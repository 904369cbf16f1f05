import Tabular.Proofs.CatalogNames
import Tabular.Proofs.ServerNames

/-!
Bare names. What lower-casing writes it leaves as it is, wherever it stands; so a name that is made
bare is made bare to itself, also where an expansion was cut or a sigma has come to stand at the
end.
-/
namespace Tabular

namespace Text

/-! ### Runs of capitals -/

def loweredCode (r : Nat × Nat × Nat × Int) (k : Nat) : Nat := (r.1 + r.2.2.2).toNat + k * r.2.2.1

/-- Is no form of the run `r` a capital of the run `q`? Runs whose spans meet alternate with each
other, so these are told apart form by form. -/
def clearOf (r q : Nat × Nat × Nat × Int) : Bool :=
  (loweredCode r (r.2.1 - 1)).blt q.1 || (q.1 + q.2.1 * q.2.2.1).ble (loweredCode r 0) ||
    (List.range r.2.1).all fun k => (runOffset? (loweredCode r k) q).isNone

def blankRanges : List (Nat × Nat) := [
  (0x9, 0xd), (0x20, 0x20), (0x85, 0x85), (0xa0, 0xa0), (0x1680, 0x1680), (0x2000, 0x200a),
  (0x2028, 0x2029), (0x202f, 0x202f), (0x205f, 0x205f), (0x3000, 0x3000)]

/-- Where no lower-case form lies: NUL, the capital `İ`, surrogates and blanks. -/
def unloweredRanges : List (Nat × Nat) := [(0, 0), (0x130, 0x130), (0xd800, 0xdfff)] ++ blankRanges

theorem isBlank_eq (c : Char) : isBlank c = inRanges blankRanges c.toNat := by
  rw [Bool.eq_iff_iff]
  simp [isBlank, blankRanges, inRanges]
  omega

theorem lowerRuns_clearOf : (lowerRuns.all fun r => lowerRuns.all (clearOf r)) = true := by
  decide +kernel

theorem lowerRuns_ranges : ∀ r ∈ lowerRuns, 0 < r.2.1 ∧ 0 ≤ (r.1 : Int) + r.2.2.2 ∧
    loweredCode r (r.2.1 - 1) < 0x110000 ∧
    ∀ b ∈ unloweredRanges, loweredCode r (r.2.1 - 1) < b.1 ∨ b.2 < loweredCode r 0 := by
  decide +kernel

theorem runOffset?_eq_some {n : Nat} {r : Nat × Nat × Nat × Int} {offset : Int}
    (h : runOffset? n r = some offset) :
    offset = r.2.2.2 ∧ ∃ k < r.2.1, n = r.1 + k * r.2.2.1 := by
  obtain ⟨first, count, step, shift⟩ := r
  simp only [runOffset?, Option.ite_none_right_eq_some, Bool.and_eq_true, decide_eq_true_eq,
    beq_iff_eq, Option.some.injEq] at h
  obtain ⟨⟨⟨low, high⟩, whole⟩, rfl⟩ := h
  obtain ⟨k, hk⟩ := Nat.dvd_of_mod_eq_zero whole
  have place : n = first + k * step := by rw [Nat.mul_comm] at hk; omega
  have inside : k * step < count * step := by omega
  exact ⟨rfl, k, Nat.lt_of_mul_lt_mul_right inside, place⟩

theorem runOffset?_below {n : Nat} {r : Nat × Nat × Nat × Int} (h : n < r.1) :
    runOffset? n r = none := by
  obtain ⟨first, count, step, shift⟩ := r
  dsimp only at h
  simp only [runOffset?, ite_eq_right_iff, Bool.and_eq_true, decide_eq_true_eq]
  omega

theorem runOffset?_above {n : Nat} {r : Nat × Nat × Nat × Int} (h : r.1 + r.2.1 * r.2.2.1 ≤ n) :
    runOffset? n r = none := by
  obtain ⟨first, count, step, shift⟩ := r
  dsimp only at h
  simp only [runOffset?, ite_eq_right_iff, Bool.and_eq_true, decide_eq_true_eq]
  omega

theorem loweredCode_bounds {r : Nat × Nat × Nat × Int} {k : Nat} (h : k < r.2.1) :
    loweredCode r 0 ≤ loweredCode r k ∧ loweredCode r k ≤ loweredCode r (r.2.1 - 1) := by
  have more : k * r.2.2.1 ≤ (r.2.1 - 1) * r.2.2.1 := Nat.mul_le_mul_right _ (by omega)
  unfold loweredCode
  omega

/-- A form lies in no range that is clear of its run. -/
theorem loweredCode_notMem {r : Nat × Nat × Nat × Int} {k : Nat} (hr : r ∈ lowerRuns)
    (hk : k < r.2.1) {b : Nat × Nat} (hb : b ∈ unloweredRanges) :
    ¬ (b.1 ≤ loweredCode r k ∧ loweredCode r k ≤ b.2) := by
  have clear := (lowerRuns_ranges r hr).2.2.2 b hb
  have bounds := loweredCode_bounds hk
  omega

theorem runOffset?_loweredCode {r q : Nat × Nat × Nat × Int} {k : Nat} (hr : r ∈ lowerRuns)
    (hq : q ∈ lowerRuns) (hk : k < r.2.1) : runOffset? (loweredCode r k) q = none := by
  have clear := List.all_eq_true.mp (List.all_eq_true.mp lowerRuns_clearOf r hr) q hq
  have bounds := loweredCode_bounds hk
  simp only [clearOf, Bool.or_eq_true, Nat.blt_eq, Nat.ble_eq, List.all_eq_true, List.mem_range,
    Option.isNone_iff_eq_none] at clear
  rcases clear with (below | above) | each
  · exact runOffset?_below (Nat.lt_of_le_of_lt bounds.2 below)
  · exact runOffset?_above (Nat.le_trans above bounds.1)
  · exact each k hk

/-! ### Lower-case forms -/

/-- A character on its own is no capital, or takes the form of its place in a run. -/
theorem toNat_lowerChar (c : Char) :
    lowerChar c = c ∨ ∃ r ∈ lowerRuns, ∃ k < r.2.1, (lowerChar c).toNat = loweredCode r k := by
  unfold lowerChar
  split
  · next offset found =>
    obtain ⟨r, hr, taken⟩ := List.exists_of_findSome?_eq_some found
    obtain ⟨rfl, k, hk, place⟩ := runOffset?_eq_some taken
    obtain ⟨-, low, high, clear⟩ := lowerRuns_ranges r hr
    have code : ((c.toNat : Int) + r.2.2.2).toNat = loweredCode r k := by
      rw [place, loweredCode]
      push_cast
      omega
    have surrogate := loweredCode_notMem hr hk (b := (0xd800, 0xdfff)) (by decide)
    have bounds := loweredCode_bounds hk
    have valid : (loweredCode r k).isValidChar := by
      unfold Nat.isValidChar
      dsimp only at surrogate
      omega
    refine .inr ⟨r, hr, k, hk, ?_⟩
    rw [code, Char.ofNat, dif_pos valid]
    rfl
  · exact .inl rfl

theorem lowerChar_lowerChar (c : Char) : lowerChar (lowerChar c) = lowerChar c := by
  rcases toNat_lowerChar c with same | ⟨r, hr, k, hk, code⟩
  · exact congrArg lowerChar same
  · -- A form is no capital of any run, so no run is found for it.
    generalize lowerChar c = d at code ⊢
    have none_ : lowerRuns.findSome? (runOffset? d.toNat) = none := by
      rw [List.findSome?_eq_none_iff, code]
      exact fun q hq => runOffset?_loweredCode hr hq hk
    rw [lowerChar, none_]

/-- Only what lies in a range without lower-case forms is lower-cased into it. -/
theorem mem_range_of_lowerChar {c : Char} {b : Nat × Nat} (hb : b ∈ unloweredRanges)
    (h : b.1 ≤ (lowerChar c).toNat ∧ (lowerChar c).toNat ≤ b.2) :
    b.1 ≤ c.toNat ∧ c.toNat ≤ b.2 := by
  rcases toNat_lowerChar c with same | ⟨r, hr, k, hk, code⟩
  · rwa [same] at h
  · rw [code] at h
    exact absurd h (loweredCode_notMem hr hk hb)

/-! ### Texts in lower case -/

/-- A character that lower-casing leaves as it is, wherever it stands. -/
def IsSettled (c : Char) : Prop := ∀ before after, lowerAt before c after = [c]

theorem isSettled_of_lowerChar {c : Char} (dotted : c ≠ 'İ') (sigma : c ≠ 'Σ')
    (upper : c.isUpper = false) (own : lowerChar c = c) : IsSettled c := by
  intro before after
  unfold lowerAt
  rw [if_neg (by simpa using dotted), if_neg (by simpa using sigma),
    Char.toLower_eq_of_not_isUpper (Bool.eq_false_iff.mp upper), own, ite_self]

/-- The first run has the capitals of ASCII, and all the others lie beyond. -/
theorem lowerChar_of_ascii {c : Char} (small : c.toNat < 0x80) : lowerChar c = c.toLower := by
  have beyond : ∀ r ∈ lowerRuns.tail, 0x80 ≤ r.1 := by decide +kernel
  have none_ : lowerRuns.tail.findSome? (runOffset? c.toNat) = none :=
    List.findSome?_eq_none_iff.mpr fun r hr =>
      runOffset?_below (Nat.lt_of_lt_of_le small (beyond r hr))
  have first : lowerRuns.findSome? (runOffset? c.toNat) = runOffset? c.toNat (0x41, 26, 1, 32) := by
    change ((0x41, 26, 1, 32) :: lowerRuns.tail).findSome? _ = _
    rw [List.findSome?_cons, none_]
    cases runOffset? c.toNat (0x41, 26, 1, 32) <;> rfl
  have every : ∀ n < 0x80, (runOffset? n (0x41, 26, 1, 32)).elim (Char.ofNat n)
      (fun offset => Char.ofNat (n + offset).toNat) = (Char.ofNat n).toLower := by
    decide +kernel
  have own := every c.toNat small
  rw [Char.ofNat_toNat] at own
  unfold lowerChar
  rw [first, ← own]
  cases runOffset? c.toNat (0x41, 26, 1, 32) <;> rfl

/-- The forms that depend on more than the character, or are no single one. -/
def oddForms : List Char := ['i', '\u0307', 'ς', 'σ']

theorem mem_lowerAt {before after : List Char} {c d : Char} (h : d ∈ lowerAt before c after) :
    d ∈ oddForms ∨ c ≠ 'İ' ∧ d = lowerChar c := by
  unfold lowerAt at h
  split at h
  · simp only [List.mem_cons, List.not_mem_nil, or_false] at h
    rcases h with rfl | rfl <;> exact .inl (by decide)
  next plain =>
  have dotted : c ≠ 'İ' := by simpa using plain
  split at h
  · split at h <;> obtain rfl := List.mem_singleton.mp h <;> exact .inl (by decide)
  split at h
  · next small =>
    rw [← lowerChar_of_ascii small] at h
    exact .inr ⟨dotted, List.mem_singleton.mp h⟩
  · exact .inr ⟨dotted, List.mem_singleton.mp h⟩

theorem isSettled_of_mem_lowerAt {before after : List Char} {c d : Char}
    (h : d ∈ lowerAt before c after) : IsSettled d := by
  have upper := isUpper_of_mem_lowerAt h
  rcases mem_lowerAt h with odd | ⟨dotted, rfl⟩
  · have known : (oddForms.all fun d => d ≠ 'İ' ∧ d ≠ 'Σ' ∧ lowerChar d = d) = true := by
      decide +kernel
    obtain ⟨notDotted, notSigma, own⟩ := of_decide_eq_true (List.all_eq_true.mp known d odd)
    exact isSettled_of_lowerChar notDotted notSigma upper own
  · have own := lowerChar_lowerChar c
    refine isSettled_of_lowerChar (fun same => dotted ?_) (fun same => ?_) upper own
    · have inside : 0x130 ≤ (lowerChar c).toNat ∧ (lowerChar c).toNat ≤ 0x130 := by
        rw [same]
        decide
      have code := mem_range_of_lowerChar (b := (0x130, 0x130)) (by decide) inside
      exact Char.toNat_inj.mp (Nat.le_antisymm code.2 code.1)
    · rw [same] at own
      exact absurd own (by decide +kernel)

theorem mem_range_of_mem_lowerAt {before after : List Char} {c d : Char} {b : Nat × Nat}
    (hb : b ∈ unloweredRanges) (h : d ∈ lowerAt before c after)
    (inside : b.1 ≤ d.toNat ∧ d.toNat ≤ b.2) : b.1 ≤ c.toNat ∧ c.toNat ≤ b.2 := by
  rcases mem_lowerAt h with odd | ⟨-, rfl⟩
  · have clear : (unloweredRanges.all fun b =>
        oddForms.all fun d => ¬ (b.1 ≤ d.toNat ∧ d.toNat ≤ b.2)) = true := by
      decide +kernel
    have apart := List.all_eq_true.mp (List.all_eq_true.mp clear b hb) d odd
    exact absurd inside (of_decide_eq_true apart)
  · exact mem_range_of_lowerChar hb inside

theorem isBlank_of_mem_lowerAt {before after : List Char} {c d : Char}
    (h : d ∈ lowerAt before c after) (hc : isBlank c = false) : isBlank d = false := by
  rw [Bool.eq_false_iff] at hc ⊢
  intro blank
  refine hc ?_
  rw [isBlank_eq, inRanges, List.any_eq_true] at blank ⊢
  obtain ⟨b, hb, inside⟩ := blank
  rw [Bool.and_eq_true, decide_eq_true_eq, decide_eq_true_eq] at inside
  have wide : b ∈ unloweredRanges := List.mem_append_right _ hb
  refine ⟨b, hb, ?_⟩
  rw [Bool.and_eq_true, decide_eq_true_eq, decide_eq_true_eq]
  exact mem_range_of_mem_lowerAt wide h inside

theorem nul_of_mem_lowerAt {before after : List Char} {c : Char}
    (h : '\x00' ∈ lowerAt before c after) : c = '\x00' := by
  have code := mem_range_of_mem_lowerAt (b := (0, 0)) (by decide) h (by decide)
  exact Char.toNat_inj.mp (Nat.le_antisymm code.2 code.1)

theorem exists_of_mem_lowerFrom {before cs : List Char} {d : Char} (h : d ∈ lowerFrom before cs) :
    ∃ c ∈ cs, ∃ front back, d ∈ lowerAt front c back := by
  induction cs generalizing before with
  | nil => simp [lowerFrom] at h
  | cons c cs ih =>
    rw [lowerFrom] at h
    rcases List.mem_append.mp h with here | later
    · exact ⟨c, List.mem_cons_self, before, cs, here⟩
    · obtain ⟨c', hc', there⟩ := ih later
      exact ⟨c', List.mem_cons_of_mem c hc', there⟩

theorem lowerFrom_of_isSettled {cs : List Char} (h : ∀ c ∈ cs, IsSettled c) (before : List Char) :
    lowerFrom before cs = cs := by
  induction cs generalizing before with
  | nil => rfl
  | cons c cs ih =>
    rw [List.forall_mem_cons] at h
    rw [lowerFrom, h.1, ih h.2, List.singleton_append]

theorem lowerAt_ne_nil (before : List Char) (c : Char) (after : List Char) :
    lowerAt before c after ≠ [] := by
  unfold lowerAt
  split
  · simp
  split
  · split <;> simp
  split <;> simp

/-- A text that begins with no blank does so in lower case. -/
theorem exists_cons_lower {c : Char} (cs : List Char) (hc : isBlank c = false) :
    ∃ d rest, lower (c :: cs) = d :: rest ∧ isBlank d = false := by
  rw [lower, lowerFrom]
  obtain ⟨d, more, form⟩ := List.exists_cons_of_ne_nil (lowerAt_ne_nil [] c cs)
  have mem : d ∈ lowerAt [] c cs := form ▸ List.mem_cons_self
  exact ⟨d, more ++ lowerFrom [c] cs, by rw [form, List.cons_append], isBlank_of_mem_lowerAt mem hc⟩

end Text

namespace Identifier

/-- Is a text a name that needs no change to be bare: one in lower case, without spaces and hyphens?
-/
structure IsBare (limit : Nat) (cs : List Char) : Prop extends IsCanonical limit cs where
  settled : ∀ c ∈ cs, Text.IsSettled c
  noSpace : ' ' ∉ cs
  noHyphen : '-' ∉ cs

theorem underscore_of_ne {c : Char} (space : c ≠ ' ') (hyphen : c ≠ '-') : underscore c = c := by
  simp [underscore, space, hyphen]

theorem underscore_cases (c : Char) :
    underscore c = '_' ∨ underscore c = c ∧ c ≠ ' ' ∧ c ≠ '-' := by
  by_cases space : c = ' '
  · exact .inl (by rw [space]; decide)
  by_cases hyphen : c = '-'
  · exact .inl (by rw [hyphen]; decide)
  exact .inr ⟨underscore_of_ne space hyphen, space, hyphen⟩

/-- What holds of the underscore and of every character but spaces and hyphens holds of what stands
in for a character. -/
theorem of_underscore {P : Char → Prop} {c : Char} (mark : P '_') (own : P c) :
    P (underscore c) := by
  rcases underscore_cases c with h | ⟨h, -⟩
  · rwa [h]
  · rwa [h]

theorem bareOf_eq (limit : Nat) (name : String) :
    bareOf limit name = (validate name).map fun _ =>
      let bare := truncate limit ((Text.lower (Text.trim name.toList)).map underscore)
      ⟨String.ofList bare, String.ofList bare⟩ := by
  unfold bareOf
  cases validate name <;> rfl

/-- A bare name is taken as it is. -/
theorem IsBare.bareOf {limit : Nat} {cs : List Char} (h : IsBare limit cs) :
    bareOf limit (String.ofList cs) = .ok ⟨String.ofList cs, String.ofList cs⟩ := by
  have plain : cs.map underscore = cs := by
    refine (List.map_congr_left fun c hc => ?_).trans (List.map_id cs)
    exact underscore_of_ne (fun same => h.noSpace (same ▸ hc)) fun same => h.noHyphen (same ▸ hc)
  rw [bareOf_eq, h.validate, String.toList_ofList, h.trim, Text.lower,
    Text.lowerFrom_of_isSettled h.settled, plain, h.truncate]
  rfl

/-- What a text in lower case is cut to, with underscores for spaces and hyphens. -/
theorem isBare_truncate {limit : Nat} {c : Char} (cs : List Char) (positive : 0 < limit)
    (hc : Text.isBlank c = false) (noNul : '\x00' ∉ c :: cs) :
    IsBare limit (truncate limit ((Text.lower (c :: cs)).map underscore)) := by
  have settled : ∀ d ∈ (Text.lower (c :: cs)).map underscore, Text.IsSettled d := by
    intro d hd
    obtain ⟨e, he, rfl⟩ := List.mem_map.mp hd
    obtain ⟨_, -, _, _, form⟩ := Text.exists_of_mem_lowerFrom he
    have own : '_' ∈ Text.lowerAt [] '_' [] := by decide
    have mark : Text.IsSettled '_' := Text.isSettled_of_mem_lowerAt own
    exact of_underscore mark (Text.isSettled_of_mem_lowerAt form)
  have clear : '\x00' ∉ (Text.lower (c :: cs)).map underscore := by
    intro mem
    obtain ⟨e, he, nul⟩ := List.mem_map.mp mem
    obtain ⟨a, ha, _, _, form⟩ := Text.exists_of_mem_lowerFrom he
    rcases underscore_cases e with mark | ⟨own, -⟩
    · exact absurd (mark.symm.trans nul) (by decide)
    · rw [own.symm.trans nul] at form
      exact noNul (Text.nul_of_mem_lowerAt form ▸ ha)
  have apart {d : Char} (hd : d = ' ' ∨ d = '-') :
      d ∉ (Text.lower (c :: cs)).map underscore := by
    intro mem
    obtain ⟨e, -, rfl⟩ := List.mem_map.mp mem
    rcases underscore_cases e with mark | ⟨own, space, hyphen⟩
    · rw [mark] at hd
      exact absurd hd (by decide)
    · rw [own] at hd
      exact hd.elim space hyphen
  -- The cut leaves out characters only, so what every one of them is stays true of those left.
  have part : truncate limit ((Text.lower (c :: cs)).map underscore) ⊆
      (Text.lower (c :: cs)).map underscore := fun d hd =>
    List.mem_of_mem_take ((Text.trimEnd_prefix _).subset hd)
  refine ⟨?_, fun d hd => settled d (part hd), fun mem => apart (.inl rfl) (part mem),
    fun mem => apart (.inr rfl) (part mem)⟩
  obtain ⟨d, rest, lowered, hd⟩ := Text.exists_cons_lower cs hc
  rw [lowered, List.map_cons] at clear ⊢
  have first : Text.isBlank (underscore d) = false :=
    of_underscore (P := fun d => Text.isBlank d = false) (by decide) hd
  exact isCanonical_truncate positive first clear

theorem of_bareOf {limit : Nat} {name : String} {id : Identifier} (positive : 0 < limit)
    (h : bareOf limit name = .ok id) : id.quoted = id.bare ∧ IsBare limit id.bare.toList := by
  rw [bareOf_eq] at h
  cases hv : validate name with
  | error f =>
    rw [hv] at h
    cases h
  | ok _ =>
    obtain ⟨filled, noNul⟩ := validate_eq_ok_iff.mp hv
    obtain ⟨c, cs, trimmed, hc⟩ := Text.exists_cons_trim filled
    have clear : '\x00' ∉ c :: cs := fun mem => noNul (Text.mem_of_mem_trim (trimmed ▸ mem))
    rw [hv] at h
    obtain rfl := Except.ok.inj h
    dsimp only
    rw [String.toList_ofList, trimmed]
    exact ⟨rfl, isBare_truncate cs positive hc clear⟩

/-- A name that is made bare is canonical, holds no space and no hyphen, stands without quotes, and
is made bare to itself. -/
theorem bareOf_canonical {limit : Nat} {name : String} {id : Identifier} (positive : 0 < limit)
    (h : bareOf limit name = .ok id) :
    id.quoted = id.bare ∧ IsCanonical limit id.bare.toList ∧ ' ' ∉ id.bare.toList ∧
      '-' ∉ id.bare.toList ∧ bareOf limit id.quoted = .ok id := by
  obtain ⟨unquoted, bare⟩ := of_bareOf positive h
  refine ⟨unquoted, bare.toIsCanonical, bare.noSpace, bare.noHyphen, ?_⟩
  obtain ⟨quoted, name⟩ := id
  obtain rfl : quoted = name := unquoted
  have again := bare.bareOf
  rwa [String.ofList_toList] at again

/-- The limit falls into the two characters that `İ` becomes, and the sigma in front is a final one.
-/
theorem bareOf_canonical_cut :
    let id : Identifier := ⟨"ας_i", "ας_i"⟩
    0 < 4 ∧ bareOf 4 " ΑΣ İX" = .ok id ∧ IsCanonical 4 id.bare.toList ∧
      bareOf 4 id.quoted = .ok id := by
  intro id
  have safe : bareOf 4 " ΑΣ İX" = .ok id := eq_ok_of_toOption (by decide +kernel)
  obtain ⟨-, canonical, -, -, again⟩ := bareOf_canonical (by decide) safe
  exact ⟨by decide, safe, canonical, again⟩

end Identifier

end Tabular
