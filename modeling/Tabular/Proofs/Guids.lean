import Mathlib
import Tabular.Catalog.Value
import Tabular.Proofs.CatalogNames

/-!
Numbers of 128 bits as texts. A text denotes a number if, but for braces around it, it is the
number's thirty-two hexadecimal digits, in any of three layouts and in either case. Every such text
has one canonical spelling, which denotes the same number, and two of them have it in common exactly
if they denote the same number.
-/
namespace Tabular.Guid

/-! ### Digits -/

def digits : List Char := "0123456789abcdef".toList

def digitValue (c : Char) : Nat := digits.idxOf c.toLower

def number (ds : List Char) : Nat := Nat.ofDigits 16 (ds.reverse.map digitValue)

theorem isHexDigit_iff {c : Char} : isHexDigit c = true ↔ c.toLower ∈ digits := by
  by_cases small : c.toNat < 128
  · have ascii : ∀ n < 128, isHexDigit (Char.ofNat n) = true ↔
        (Char.ofNat n).toLower ∈ digits := by
      decide +kernel
    rw [← Char.ofNat_toNat c]
    exact ascii c.toNat small
  · have below : digits.all (·.toNat < 128) = true := by decide
    have large : isHexDigit c = false := by
      simp only [isHexDigit, Char.isDigit, Char.le_def, UInt32.le_iff_toNat_le, Char.toNat_val,
        Char.reduceToNat, Bool.or_eq_false_iff, Bool.and_eq_false_iff, decide_eq_false_iff_not]
      omega
    have lower : ¬ c.isUpper := Bool.eq_false_iff.mp (isUpper_eq_false_iff.mpr (by omega))
    rw [Char.toLower_eq_of_not_isUpper lower, large]
    exact ⟨nofun, fun mem => absurd (of_decide_eq_true (List.all_eq_true.mp below c mem)) small⟩

theorem digitValue_lt {c : Char} (h : isHexDigit c = true) : digitValue c < 16 :=
  List.idxOf_lt_length_iff.mpr (isHexDigit_iff.mp h)

/-- A digit in small letters is found at its value. -/
theorem getD_digitValue {c : Char} (h : isHexDigit c = true) :
    digits.getD (digitValue c) '0' = c.toLower := by
  rw [List.getD_eq_getElem?_getD, List.getElem?_eq_getElem (digitValue_lt h), Option.getD_some]
  exact List.getElem_idxOf _

theorem isHexDigit_toLower {c : Char} (h : isHexDigit c = true) : isHexDigit c.toLower = true := by
  rwa [isHexDigit_iff, Char.toLower_toLower_eq_toLower, ← isHexDigit_iff]

section

variable {ds es : List Char}

theorem number_map_toLower (ds : List Char) : number (ds.map Char.toLower) = number ds := by
  unfold number
  rw [← List.map_reverse, List.map_map]
  refine congrArg (Nat.ofDigits 16) (List.map_congr_left fun c _ => ?_)
  rw [Function.comp_apply, digitValue, Char.toLower_toLower_eq_toLower, digitValue]

theorem lt_of_mem_values (hex : ∀ c ∈ ds, isHexDigit c = true) :
    ∀ v ∈ ds.reverse.map digitValue, v < 16 := by
  intro v hv
  obtain ⟨c, hc, rfl⟩ := List.mem_map.mp hv
  exact digitValue_lt (hex c (List.mem_reverse.mp hc))

theorem number_lt (hex : ∀ c ∈ ds, isHexDigit c = true) : number ds < 16 ^ ds.length := by
  simpa [number] using Nat.ofDigits_lt_base_pow_length (by decide) (lt_of_mem_values hex)

/-- As many digits write the same number exactly if they differ in case only. -/
theorem number_eq_iff (hds : ∀ c ∈ ds, isHexDigit c = true) (hes : ∀ c ∈ es, isHexDigit c = true)
    (length : ds.length = es.length) :
    number ds = number es ↔ ds.map Char.toLower = es.map Char.toLower := by
  constructor
  · intro same
    have values : ds.reverse.map digitValue = es.reverse.map digitValue :=
      Nat.ofDigits_inj_of_len_eq (by decide) (by simpa using length) (lt_of_mem_values hds)
        (lt_of_mem_values hes) same
    rw [List.map_reverse, List.map_reverse, List.reverse_inj] at values
    have lower {xs : List Char} (hex : ∀ c ∈ xs, isHexDigit c = true) :
        xs.map Char.toLower = (xs.map digitValue).map (digits.getD · '0') := by
      rw [List.map_map]
      exact List.map_congr_left fun c hc => (getD_digitValue (hex c hc)).symm
    rw [lower hds, lower hes, values]
  · intro same
    rw [← number_map_toLower ds, same, number_map_toLower]

end

/-! ### Groups -/

/-- Groups of so many characters with hyphens between them, and the same characters without the
hyphens. -/
inductive Grouped : List Nat → List Char → List Char → Prop
  | last {n : Nat} {g : List Char} : g.length = n → Grouped [n] g g
  | more {n m : Nat} {ns : List Nat} {g cs ds : List Char} : g.length = n →
      Grouped (m :: ns) cs ds → Grouped (n :: m :: ns) (g ++ '-' :: cs) (g ++ ds)

def hyphens (start : Nat) : List Nat → List Nat
  | n :: m :: ns => (start + n) :: hyphens (start + n + 1) (m :: ns)
  | _ => []

theorem le_of_mem_hyphens {start i : Nat} {ns : List Nat} (h : i ∈ hyphens start ns) :
    start ≤ i := by
  fun_induction hyphens start ns with
  | case1 start n m ns ih =>
    rcases List.mem_cons.mp h with rfl | h
    · exact Nat.le_add_right _ _
    · have := ih h
      omega
  | case2 => cases h

theorem ungroup?_eq_some_iff {n : Nat} {ns : List Nat} {cs ds : List Char} :
    ungroup? (n :: ns) cs = some ds ↔ Grouped (n :: ns) cs ds := by
  induction ns generalizing n cs ds with
  | nil =>
    unfold ungroup?
    constructor
    · intro h
      split at h
      · next length =>
        obtain rfl := Option.some.inj h
        exact .last length
      · cases h
    · rintro (⟨length⟩ | _)
      rw [if_pos length]
  | cons m ns ih =>
    constructor
    · intro h
      unfold ungroup? at h
      split at h
      · next rest behind =>
        obtain ⟨es, found, rfl⟩ := Option.map_eq_some_iff.mp h
        have long := congrArg List.length behind
        rw [List.length_drop, List.length_cons] at long
        have front : (cs.take n).length = n := List.length_take_of_le (by omega)
        have whole := Grouped.more front (ih.mp found)
        rwa [← behind, List.take_append_drop] at whole
      · cases h
    · rintro (_ | ⟨length, rest⟩)
      unfold ungroup?
      rw [List.drop_left' length, List.take_left' length]
      simp only [ih.mpr rest, Option.map_some]

theorem grouped_group {n : Nat} {ns : List Nat} {ds : List Char}
    (length : ds.length = (n :: ns).sum) : Grouped (n :: ns) (group (n :: ns) ds) ds := by
  induction ns generalizing n ds with
  | nil =>
    rw [List.sum_singleton] at length
    exact .last length
  | cons m ns ih =>
    rw [List.sum_cons] at length
    have front : (ds.take n).length = n := List.length_take_of_le (by omega)
    have rest : Grouped (m :: ns) (group (m :: ns) (ds.drop n)) (ds.drop n) :=
      ih (by rw [List.length_drop]; omega)
    have whole := Grouped.more front rest
    rwa [List.take_append_drop] at whole

namespace Grouped

variable {ns : List Nat} {cs ds : List Char}

theorem length_digits (h : Grouped ns cs ds) : ds.length = ns.sum := by
  induction h with
  | last length => simpa using length
  | more length _ ih => rw [List.length_append, length, ih, ← List.sum_cons]

theorem length_eq (h : Grouped ns cs ds) : cs.length + 1 = ns.sum + ns.length := by
  induction h with
  | last length => simp [length]
  | more length _ ih =>
    simp only [List.length_append, List.length_cons, List.sum_cons] at ih ⊢
    omega

/-- The characters of groups are hyphens where these stand, and digits everywhere else. -/
theorem getElem?_eq (h : Grouped ns cs ds) (start : Nat) {i : Nat} {c : Char}
    (hc : cs[i]? = some c) :
    start + i ∈ hyphens start ns ∧ c = '-' ∨ start + i ∉ hyphens start ns ∧ c ∈ ds := by
  induction h generalizing start i with
  | last => exact .inr ⟨by simp [hyphens], List.mem_of_getElem? hc⟩
  | @more n m ns g cs ds length _ ih =>
    rw [hyphens, List.mem_cons]
    -- in the first group, at the hyphen that ends it, or in the groups behind
    rcases Nat.lt_trichotomy i n with before | rfl | behind
    · rw [List.getElem?_append_left (by omega)] at hc
      refine .inr ⟨?_, List.mem_append_left _ (List.mem_of_getElem? hc)⟩
      rintro (same | later)
      · omega
      · have := le_of_mem_hyphens later
        omega
    · rw [List.getElem?_append_right (by omega), length, Nat.sub_self,
        List.getElem?_cons_zero] at hc
      exact .inl ⟨.inl rfl, (Option.some.inj hc).symm⟩
    · obtain ⟨j, rfl⟩ := Nat.exists_eq_add_of_lt behind
      rw [List.getElem?_append_right (by omega), length, Nat.add_assoc, Nat.add_sub_cancel_left,
        List.getElem?_cons_succ] at hc
      rw [show start + (n + j + 1) = start + n + 1 + j by omega]
      rcases ih (start + n + 1) hc with ⟨there, rfl⟩ | ⟨away, mem⟩
      · exact .inl ⟨.inr there, rfl⟩
      · refine .inr ⟨?_, List.mem_append_right _ mem⟩
        rintro (same | there)
        · omega
        · exact away there

theorem mem_of_mem (h : Grouped ns cs ds) {c : Char} (hc : c ∈ cs) : c = '-' ∨ c ∈ ds := by
  obtain ⟨i, hi⟩ := List.mem_iff_getElem?.mp hc
  exact (h.getElem?_eq 0 hi).imp And.right And.right

end Grouped

/-! ### Braces -/

theorem trimBraces_eq {front cs back : List Char} (hfront : ∀ c ∈ front, isBrace c = true)
    (hback : ∀ c ∈ back, isBrace c = true) (solid : ∀ c ∈ cs, isBrace c = false) :
    trimBraces (front ++ (cs ++ back)) = cs := by
  have whole {xs : List Char} (hxs : ∀ c ∈ xs, isBrace c = false) : xs.dropWhile isBrace = xs :=
    List.dropWhile_eq_self_iff.mpr fun pos => by simp [hxs _ (List.getElem_mem pos)]
  unfold trimBraces
  rw [List.dropWhile_append_of_pos hfront]
  cases cs with
  | nil =>
    rw [List.nil_append, List.dropWhile_eq_nil_iff.mpr hback]
    rfl
  | cons c cs =>
    rw [List.cons_append, List.dropWhile_cons_of_neg (by simp [solid c List.mem_cons_self]),
      ← List.cons_append, List.reverse_append,
      List.dropWhile_append_of_pos fun d hd => hback d (List.mem_reverse.mp hd),
      whole fun d hd => solid d (List.mem_reverse.mp hd), List.reverse_reverse]

theorem exists_braces (cs : List Char) :
    ∃ front back, (∀ c ∈ front, isBrace c = true) ∧ (∀ c ∈ back, isBrace c = true) ∧
      cs = front ++ (trimBraces cs ++ back) := by
  refine ⟨cs.takeWhile isBrace, ((cs.dropWhile isBrace).reverse.takeWhile isBrace).reverse,
    fun c => List.mem_takeWhile_imp, ?_, ?_⟩
  · intro c hc
    exact List.mem_takeWhile_imp (List.mem_reverse.mp hc)
  · rw [trimBraces, ← List.reverse_append, List.takeWhile_append_dropWhile, List.reverse_reverse,
      List.takeWhile_append_dropWhile]

/-! ### Texts -/

/-- The layouts of thirty-two characters: side by side, in groups, or in groups behind the start of
a name. -/
inductive Layout : List Char → List Char → Prop
  | plain {ds : List Char} : ds.length = 32 → Layout ds ds
  | hyphened {cs ds : List Char} : Grouped groups cs ds → Layout cs ds
  | named {cs ds : List Char} : Grouped groups cs ds → Layout (urn ++ cs) ds

/-- A text writes hexadecimal digits in some layout, with any braces around them. -/
def Writes (text : String) (ds : List Char) : Prop :=
  (∀ c ∈ ds, isHexDigit c = true) ∧
    ∃ front cs back, text.toList = front ++ (cs ++ back) ∧ Layout cs ds ∧
      (∀ c ∈ front, isBrace c = true) ∧ ∀ c ∈ back, isBrace c = true

def Denotes (text : String) (n : BitVec 128) : Prop := ∃ ds, Writes text ds ∧ n.toNat = number ds

/-- Are all of a text's 36 characters small hexadecimal digits, but for the hyphens behind its first
four groups? -/
def IsCanonical (text : String) : Prop :=
  text.length = 36 ∧
    ∀ i c, text.toList[i]? = some c → if i ∈ [8, 13, 18, 23] then c = '-' else c ∈ digits

def spelling (ds : List Char) : String := String.ofList (group groups (ds.map Char.toLower))

section

variable {cs ds es : List Char} {text : String}

theorem Layout.length_eq (h : Layout cs ds) : ds.length = 32 := by
  cases h with
  | plain length => exact length
  | hyphened grouped => exact grouped.length_digits
  | named grouped => exact grouped.length_digits

theorem Layout.isBrace_eq_false (h : Layout cs ds) (hex : ∀ c ∈ ds, isHexDigit c = true) :
    ∀ c ∈ cs, isBrace c = false := by
  have digit {c : Char} (hc : c = '-' ∨ c ∈ ds) : isBrace c = false := by
    rcases hc with rfl | hc
    · decide
    · have lower := isHexDigit_iff.mp (hex c hc)
      cases brace : isBrace c with
      | false => rfl
      | true =>
        simp only [isBrace, Bool.or_eq_true, beq_iff_eq] at brace
        rcases brace with rfl | rfl
        all_goals exact absurd lower (by decide)
  cases h with
  | plain => exact fun c hc => digit (.inr hc)
  | hyphened grouped => exact fun c hc => digit (grouped.mem_of_mem hc)
  | named grouped =>
    intro c hc
    rcases List.mem_append.mp hc with hc | hc
    · have name : urn.all (!isBrace ·) = true := by decide
      simpa using List.all_eq_true.mp name c hc
    · exact digit (grouped.mem_of_mem hc)

/-- A ninth character that is a hyphen tells groups from the start of a name. -/
theorem Grouped.isPrefixOf_urn (h : Grouped groups cs ds) : urn.isPrefixOf cs = false := by
  rw [← Bool.not_eq_true, List.isPrefixOf_iff_prefix]
  rintro ⟨rest, rfl⟩
  have ninth : (urn ++ rest)[8]? = some ':' := by
    rw [List.getElem?_append_left (by decide)]
    rfl
  rcases h.getElem?_eq 0 ninth with ⟨-, other⟩ | ⟨away, -⟩
  · exact absurd other (by decide)
  · exact absurd away (by decide)

theorem body?_eq_some_iff : body? cs = some ds ↔ Layout cs ds := by
  unfold body?
  constructor
  · intro h
    split at h
    · next length =>
      obtain rfl := Option.some.inj h
      exact .plain length
    · split at h
      · next named =>
        obtain ⟨rest, rfl⟩ := List.isPrefixOf_iff_prefix.mp named
        rw [List.drop_left] at h
        exact .named (ungroup?_eq_some_iff.mp h)
      · exact .hyphened (ungroup?_eq_some_iff.mp h)
  · intro h
    cases h with
    | plain length => rw [if_pos length]
    | hyphened grouped =>
      have length : cs.length + 1 = 37 := grouped.length_eq
      rw [if_neg (by omega), grouped.isPrefixOf_urn, if_neg Bool.false_ne_true]
      exact ungroup?_eq_some_iff.mpr grouped
    | @named cs ds grouped =>
      have length : cs.length + 1 = 37 := grouped.length_eq
      have long : (urn ++ cs).length = 45 := by
        rw [List.length_append, show urn.length = 9 from rfl]
        omega
      rw [if_neg (by omega), if_pos (List.isPrefixOf_iff_prefix.mpr (List.prefix_append _ _)),
        List.drop_left]
      exact ungroup?_eq_some_iff.mpr grouped

theorem writes_iff : Writes text ds ↔
    (∀ c ∈ ds, isHexDigit c = true) ∧ body? (trimBraces text.toList) = some ds := by
  unfold Writes
  refine and_congr_right fun hex => ?_
  rw [body?_eq_some_iff]
  constructor
  · rintro ⟨front, cs, back, whole, layout, hfront, hback⟩
    rwa [whole, trimBraces_eq hfront hback (layout.isBrace_eq_false hex)]
  · intro layout
    obtain ⟨front, back, hfront, hback, whole⟩ := exists_braces text.toList
    exact ⟨front, _, back, whole, layout, hfront, hback⟩

theorem Writes.eq (h : Writes text ds) (k : Writes text es) : ds = es :=
  Option.some.inj ((writes_iff.mp h).2.symm.trans (writes_iff.mp k).2)

theorem Writes.length_eq (h : Writes text ds) : ds.length = 32 := by
  obtain ⟨-, front, cs, back, -, layout, -⟩ := h
  exact layout.length_eq

theorem Writes.denotes_iff (h : Writes text ds) {n : BitVec 128} :
    Denotes text n ↔ n.toNat = number ds := by
  constructor
  · rintro ⟨es, writes, value⟩
    rwa [h.eq writes]
  · exact fun value => ⟨ds, h, value⟩

theorem Writes.exists_denotes (h : Writes text ds) : ∃ n, Denotes text n := by
  have small := number_lt h.1
  rw [h.length_eq] at small
  refine ⟨BitVec.ofNat 128 (number ds), h.denotes_iff.mpr ?_⟩
  rw [BitVec.toNat_ofNat, Nat.mod_eq_of_lt (by simpa using small)]

theorem canonical?_eq_some_iff {g : String} :
    canonical? text = some g ↔ ∃ ds, Writes text ds ∧ spelling ds = g := by
  unfold canonical?
  constructor
  · intro h
    obtain ⟨ds, found, h⟩ := Option.bind_eq_some_iff.mp h
    split at h
    · next hex => exact ⟨ds, writes_iff.mpr ⟨List.all_eq_true.mp hex, found⟩, Option.some.inj h⟩
    · cases h
  · rintro ⟨ds, writes, rfl⟩
    obtain ⟨hex, found⟩ := writes_iff.mp writes
    refine Option.bind_eq_some_iff.mpr ⟨ds, found, ?_⟩
    rw [if_pos (List.all_eq_true.mpr hex)]
    rfl

/-! ### The canonical spelling -/

theorem grouped_spelling (length : ds.length = 32) :
    Grouped groups (spelling ds).toList (ds.map Char.toLower) := by
  rw [spelling, String.toList_ofList]
  exact grouped_group (by rw [List.length_map, length]; rfl)

theorem Writes.spelling (h : Writes text ds) : Writes (spelling ds) (ds.map Char.toLower) := by
  refine ⟨?_, [], _, [], by simp, .hyphened (grouped_spelling h.length_eq), nofun, nofun⟩
  intro c hc
  obtain ⟨d, hd, rfl⟩ := List.mem_map.mp hc
  exact isHexDigit_toLower (h.1 d hd)

/-- The canonical spelling denotes the number that the text denotes. -/
theorem Writes.denotes_spelling_iff (h : Writes text ds) {n : BitVec 128} :
    Denotes (Guid.spelling ds) n ↔ Denotes text n := by
  rw [h.spelling.denotes_iff, h.denotes_iff, number_map_toLower]

theorem Writes.isCanonical_spelling (h : Writes text ds) : IsCanonical (Guid.spelling ds) := by
  have grouped := grouped_spelling h.length_eq
  constructor
  · have length : (Guid.spelling ds).toList.length + 1 = 37 := grouped.length_eq
    rw [String.length_toList] at length
    omega
  · intro i c hc
    have place := grouped.getElem?_eq 0 hc
    rw [Nat.zero_add, show hyphens 0 groups = [8, 13, 18, 23] from rfl] at place
    rcases place with ⟨there, hyphen⟩ | ⟨away, mem⟩
    · rw [if_pos there, hyphen]
    · obtain ⟨d, hd, rfl⟩ := List.mem_map.mp mem
      rw [if_neg away]
      exact isHexDigit_iff.mp (h.1 d hd)

/-- The canonical spelling of a canonical spelling is itself. -/
theorem canonical?_canonical? {g : String} (h : canonical? text = some g) :
    canonical? g = some g := by
  obtain ⟨ds, writes, rfl⟩ := canonical?_eq_some_iff.mp h
  refine canonical?_eq_some_iff.mpr ⟨_, writes.spelling, ?_⟩
  unfold spelling
  rw [List.map_map]
  exact congrArg (fun f => String.ofList (group groups (ds.map f)))
    (funext Char.toLower_toLower_eq_toLower)

theorem exists_canonical?_iff : (∃ g, canonical? text = some g) ↔ ∃ n, Denotes text n := by
  constructor
  · rintro ⟨g, h⟩
    obtain ⟨ds, writes, -⟩ := canonical?_eq_some_iff.mp h
    exact writes.exists_denotes
  · rintro ⟨n, ds, writes, -⟩
    exact ⟨_, canonical?_eq_some_iff.mpr ⟨ds, writes, rfl⟩⟩

/-- Two texts have one canonical spelling exactly if they denote one number. -/
theorem canonical?_eq_iff {other g k : String} (hg : canonical? text = some g)
    (hk : canonical? other = some k) : g = k ↔ ∃ n, Denotes text n ∧ Denotes other n := by
  obtain ⟨ds, writes, rfl⟩ := canonical?_eq_some_iff.mp hg
  obtain ⟨es, writes', rfl⟩ := canonical?_eq_some_iff.mp hk
  constructor
  · intro same
    obtain ⟨n, denotes⟩ := writes.exists_denotes
    refine ⟨n, denotes, ?_⟩
    rwa [← writes'.denotes_spelling_iff, ← same, writes.denotes_spelling_iff]
  · rintro ⟨n, denotes, denotes'⟩
    -- one number has one list of thirty-two digits up to case
    have same := (writes.denotes_iff.mp denotes).symm.trans (writes'.denotes_iff.mp denotes')
    rw [number_eq_iff writes.1 writes'.1 (writes.length_eq.trans writes'.length_eq.symm)] at same
    rw [spelling, same, ← spelling]

end

end Tabular.Guid
