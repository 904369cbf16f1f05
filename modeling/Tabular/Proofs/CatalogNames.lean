import Mathlib
import Tabular.Catalog.Creation

/-!
Names of a catalog. Lower-casing leaves no capital of ASCII behind, so two names that a catalog is
given by a schema differ in more than case, or not at all.
-/
namespace Tabular

/-! ### Capitals -/

theorem isUpper_eq_false_iff {c : Char} : c.isUpper = false ↔ c.toNat < 65 ∨ 90 < c.toNat := by
  unfold Char.isUpper
  rw [decide_eq_false_iff_not]
  simp only [ge_iff_le, UInt32.le_iff_toNat_le, Char.toNat_val, Char.reduceToNat]
  omega

theorem isUpper_ofNat {n : Nat} (h : n < 65 ∨ 90 < n) : (Char.ofNat n).isUpper = false := by
  rw [isUpper_eq_false_iff]
  by_cases valid : n.isValidChar
  · rw [Char.ofNat, dif_pos valid]
    exact h
  · rw [Char.ofNat, dif_neg valid]
    exact .inl (by decide)

namespace Text

/-- No run of capitals is mapped onto the capitals of ASCII. -/
theorem lowerRuns_apart : ∀ r ∈ lowerRuns,
    90 < (r.1 : Int) + r.2.2.2 ∨ (r.1 : Int) + r.2.1 * r.2.2.1 + r.2.2.2 ≤ 65 := by
  decide +kernel

theorem runOffset?_apart {n : Nat} {r : Nat × Nat × Nat × Int} {offset : Int}
    (mem : r ∈ lowerRuns) (h : runOffset? n r = some offset) :
    90 < (n : Int) + offset ∨ (n : Int) + offset < 65 := by
  obtain ⟨first, count, step, shift⟩ := r
  have apart := lowerRuns_apart _ mem
  simp only [runOffset?, Option.ite_none_right_eq_some, Bool.and_eq_true, decide_eq_true_eq,
    Option.some.injEq] at h
  dsimp only at apart
  obtain ⟨⟨⟨low, high⟩, -⟩, rfl⟩ := h
  omega

theorem isUpper_lowerChar {c : Char} (h : c.isUpper = false) : (lowerChar c).isUpper = false := by
  unfold lowerChar
  split
  · next offset found =>
    obtain ⟨r, mem, hr⟩ := List.exists_of_findSome?_eq_some found
    have := runOffset?_apart mem hr
    exact isUpper_ofNat (by omega)
  · exact h

theorem isUpper_of_mem_lowerAt {before after : List Char} {c d : Char}
    (h : d ∈ lowerAt before c after) : d.isUpper = false := by
  unfold lowerAt at h
  split at h
  · simp only [List.mem_cons, List.not_mem_nil, or_false] at h
    rcases h with rfl | rfl <;> decide
  split at h
  · split at h
    · obtain rfl := List.mem_singleton.mp h
      decide
    · obtain rfl := List.mem_singleton.mp h
      decide
  split at h
  · obtain rfl := List.mem_singleton.mp h
    exact Char.isUpper_toLower_eq_false c
  · next beyond =>
    obtain rfl := List.mem_singleton.mp h
    exact isUpper_lowerChar (isUpper_eq_false_iff.mpr (by omega))

theorem isUpper_of_mem_lower {cs : List Char} {d : Char} (h : d ∈ lower cs) :
    d.isUpper = false := by
  have from_ : ∀ before, d ∈ lowerFrom before cs → d.isUpper = false := by
    clear h
    induction cs with
    | nil => intro before h; simp [lowerFrom] at h
    | cons c cs ih =>
      intro before h
      unfold lowerFrom at h
      rcases List.mem_append.mp h with h | h
      · exact isUpper_of_mem_lowerAt h
      · exact ih _ h
  exact from_ [] h

end Text

/-! ### Bare names -/

namespace Identifier

theorem isUpper_of_mem_bareOf {limit : Nat} {name : String} {id : Identifier} {c : Char}
    (h : bareOf limit name = .ok id) (hc : c ∈ id.bare.toList) : c.isUpper = false := by
  unfold bareOf at h
  cases hv : validate name with
  | error f => rw [hv] at h; cases h
  | ok _ =>
    rw [hv] at h
    obtain rfl := Except.ok.inj h
    rw [String.toList_ofList] at hc
    have kept := List.mem_of_mem_take ((Text.trimEnd_prefix _).subset hc)
    obtain ⟨d, hd, rfl⟩ := List.mem_map.mp kept
    unfold underscore
    split
    · decide
    · exact Text.isUpper_of_mem_lower hd

end Identifier

/-- Has a name no capital of ASCII? -/
def IsSmall (name : String) : Prop := ∀ c ∈ name.toList, c.isUpper = false

theorem isSmall_catalogName {name stored : String} (h : catalogName name = .ok stored) :
    IsSmall stored := by
  unfold catalogName at h
  cases hid : Identifier.forCatalog name with
  | error f => rw [hid] at h; cases h
  | ok id =>
    rw [hid] at h
    obtain rfl : id.bare = stored := Except.ok.inj h
    exact fun c hc => Identifier.isUpper_of_mem_bareOf hid hc

theorem IsSmall.map_toLower {name : String} (h : IsSmall name) :
    name.toList.map Char.toLower = name.toList := by
  refine (List.map_congr_left fun c hc => ?_).trans (List.map_id _)
  exact Char.toLower_eq_of_not_isUpper (Bool.eq_false_iff.mp (h c hc))

/-- Small names that differ in case at most are equal. -/
theorem IsSmall.eq_of_sameName {a b : String} (ha : IsSmall a) (hb : IsSmall b)
    (h : sameName a b = true) : a = b := by
  unfold sameName at h
  rw [ha.map_toLower, hb.map_toLower, beq_iff_eq] at h
  exact String.toList_injective h

/-! ### Names up to case -/

theorem sameName_iff {a b : String} :
    sameName a b = true ↔ a.toList.map Char.toLower = b.toList.map Char.toLower := beq_iff_eq

theorem sameName_trans {a b c : String} (h : sameName a b = true) (k : sameName b c = true) :
    sameName a c = true :=
  sameName_iff.mpr ((sameName_iff.mp h).trans (sameName_iff.mp k))

theorem sameName_symm {a b : String} (h : sameName a b = true) : sameName b a = true := by
  rwa [sameName_comm]

end Tabular
