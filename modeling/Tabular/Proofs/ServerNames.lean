import Tabular.Proofs.Lexing
import Tabular.Proofs.Naming
import Tabular.Proofs.Outcomes

/-!
Names for a server. A name that is made safe is neither blank nor too long and has no blanks at its
ends; in brackets it is read as the name that it is, so that making it safe once more changes
nothing. Brackets are taken off exactly where they were put on.
-/
namespace Tabular

namespace Text

/-! ### Blanks at the ends -/

theorem trimEnd_cons {c : Char} (cs : List Char) (hc : isBlank c = false) :
    trimEnd (c :: cs) = c :: trimEnd cs := by
  have start : trimStart (c :: cs) = c :: cs := trimStart_eq_self (by simp [hc])
  rw [← trim_cons cs hc, trim, start]

theorem isBlank_getLast_trimEnd (cs : List Char) :
    ∀ c ∈ (trimEnd cs).getLast?, isBlank c = false := by
  rw [trimEnd_eq_reverse, List.getLast?_reverse]
  exact isBlank_head_trimStart cs.reverse

theorem trimEnd_eq_self {cs : List Char} (h : ∀ c ∈ cs.getLast?, isBlank c = false) :
    trimEnd cs = cs := by
  rw [← List.head?_reverse] at h
  rw [trimEnd_eq_reverse, trimStart_eq_self h, List.reverse_reverse]

/-- Something is left of a text that is not all blank, and it begins with no blank. -/
theorem exists_cons_trim {cs : List Char} (h : allBlank cs = false) :
    ∃ c rest, trim cs = c :: rest ∧ isBlank c = false := by
  cases ht : trim cs with
  | nil =>
    obtain ⟨front, back, hfront, hback, whole⟩ := exists_blank_trim cs
    rw [← whole, ht, List.append_nil, allBlank, List.all_append, Bool.and_eq_false_iff] at h
    rcases h with h | h
    · exact absurd hfront (by rw [allBlank, h]; decide)
    · exact absurd hback (by rw [allBlank, h]; decide)
  | cons c rest =>
    refine ⟨c, rest, rfl, isBlank_head_trimStart cs c ?_⟩
    obtain ⟨back, whole⟩ := trimEnd_prefix (trimStart cs)
    rw [← whole, show trimEnd (trimStart cs) = c :: rest from ht]
    rfl

end Text

namespace Identifier

/-! ### Canonical names -/

/-- Is a text a name that needs no change to be safe: of few characters, none of them NUL, with no
blanks at its ends? -/
structure IsCanonical (limit : Nat) (cs : List Char) : Prop where
  nonempty : 0 < cs.length
  short : cs.length ≤ limit
  noNul : '\x00' ∉ cs
  first : ∀ c ∈ cs.head?, Text.isBlank c = false
  last : ∀ c ∈ cs.getLast?, Text.isBlank c = false

section

variable {limit : Nat} {cs : List Char}

theorem IsCanonical.trim (h : IsCanonical limit cs) : Text.trim cs = cs := by
  rw [Text.trim, Text.trimStart_eq_self h.first, Text.trimEnd_eq_self h.last]

theorem IsCanonical.truncate (h : IsCanonical limit cs) : truncate limit cs = cs := by
  rw [Identifier.truncate, List.take_of_length_le h.short, Text.trimEnd_eq_self h.last]

theorem IsCanonical.validate (h : IsCanonical limit cs) : validate (String.ofList cs) = .ok () := by
  rw [validate_eq_ok_iff, isBlankText, String.toList_ofList]
  refine ⟨?_, h.noNul⟩
  cases cs with
  | nil => exact absurd h.nonempty (by decide)
  | cons c cs => rw [Text.allBlank, List.all_cons, h.first c rfl, Bool.false_and]

/-- What is cut off behind the limit, and the blanks that come to the end by it, leave the first
character where it is. -/
theorem isCanonical_truncate {c : Char} (positive : 0 < limit) (hc : Text.isBlank c = false)
    (noNul : '\x00' ∉ c :: cs) : IsCanonical limit (Identifier.truncate limit (c :: cs)) := by
  have head : Identifier.truncate limit (c :: cs) = c :: Text.trimEnd (cs.take (limit - 1)) := by
    rw [Identifier.truncate, List.take_cons positive, Text.trimEnd_cons _ hc]
  have part : Identifier.truncate limit (c :: cs) <+: (c :: cs).take limit := Text.trimEnd_prefix _
  refine ⟨?_, ?_, ?_, ?_, Text.isBlank_getLast_trimEnd _⟩
  · rw [head]
    exact Nat.succ_pos _
  · exact Nat.le_trans part.length_le (List.length_take_le _ _)
  · exact fun mem => noNul (List.mem_of_mem_take (part.subset mem))
  · rw [head]
    simpa using hc

end

/-! ### Brackets -/

theorem bracket_eq (cs : List Char) : bracket cs = '[' :: SqlText.doubled ']' cs ++ [']'] := by
  rw [bracket, SqlText.doubleBrackets_eq]

theorem readBracketed_doubleBrackets (cs : List Char) :
    readBracketed (doubleBrackets cs ++ [']']) = some cs := by
  induction cs with
  | nil => rfl
  | cons c cs ih =>
    by_cases hc : c = ']'
    · subst hc
      rw [doubleBrackets, if_pos rfl, List.cons_append, List.cons_append, readBracketed, ih]
      rfl
    · rw [doubleBrackets, if_neg hc, List.cons_append, readBracketed, if_neg hc, ih]
      · rfl
      · exact fun h _ => hc h
      · exact fun _ h _ => hc h

theorem unbracket_eq_some_iff {cs inner : List Char} :
    unbracket cs = some inner ↔ cs = bracket inner := by
  refine ⟨unbracket_eq, ?_⟩
  rintro rfl
  exact readBracketed_doubleBrackets inner

theorem trim_bracket (cs : List Char) : Text.trim (bracket cs) = bracket cs := by
  have last : ∀ c ∈ (bracket cs).getLast?, Text.isBlank c = false := by
    rw [bracket, List.getLast?_append]
    rintro c ⟨⟩
    decide
  have first : ∀ c ∈ (bracket cs).head?, Text.isBlank c = false := by
    rintro c ⟨⟩
    decide
  rw [Text.trim, Text.trimStart_eq_self first, Text.trimEnd_eq_self last]

theorem serverText_bracket (cs : List Char) : serverText (String.ofList (bracket cs)) = cs := by
  rw [serverText, String.toList_ofList, trim_bracket, unbracket_eq_some_iff.mpr rfl]
  rfl

/-! ### Names made safe -/

/-- What a name is made of that a server takes. -/
theorem of_forServer {name : String} {id : Identifier} (h : forServer name = .ok id) :
    IsCanonical serverLimit id.bare.toList ∧
      id.quoted = String.ofList (bracket id.bare.toList) := by
  obtain ⟨filled, noNul⟩ := forServer_isOk_iff.mp ⟨id, h⟩
  rw [isBlankText, String.toList_ofList] at filled
  rw [← nul_mem_serverText] at noNul
  obtain ⟨c, rest, trimmed, hc⟩ := Text.exists_cons_trim filled
  have clear : '\x00' ∉ c :: rest := fun mem => noNul (Text.mem_of_mem_trim (trimmed ▸ mem))
  rw [forServer_eq] at h
  cases hv : validate (String.ofList (serverText name)) with
  | error f =>
    rw [hv] at h
    cases h
  | ok _ =>
    rw [hv] at h
    obtain rfl := Except.ok.inj h
    dsimp only
    rw [String.toList_ofList, trimmed]
    exact ⟨isCanonical_truncate (by decide) hc clear, rfl⟩

/-- A canonical name is taken as it is, from inside its brackets. -/
theorem IsCanonical.forServer_bracket {cs : List Char} (h : IsCanonical serverLimit cs) :
    forServer (String.ofList (bracket cs)) =
      .ok ⟨String.ofList (bracket cs), String.ofList cs⟩ := by
  rw [forServer_eq, serverText_bracket, h.validate, h.trim, h.truncate]
  rfl

/-- A name that is made safe for a server is canonical, stands in brackets with every closing one
inside written twice, and is made safe to itself; brackets are taken off a text only if it is some
name in brackets. -/
theorem forServer_canonical :
    (∀ {name : String} {id : Identifier}, forServer name = .ok id →
      IsCanonical serverLimit id.bare.toList ∧
      id.quoted.toList = '[' :: SqlText.doubled ']' id.bare.toList ++ [']'] ∧
      forServer id.quoted = .ok id) ∧
    ∀ cs inner : List Char,
      unbracket cs = some inner ↔ cs = '[' :: SqlText.doubled ']' inner ++ [']'] := by
  refine ⟨fun {name id} h => ?_, fun cs inner => ?_⟩
  · obtain ⟨canonical, quoted⟩ := of_forServer h
    refine ⟨canonical, ?_, ?_⟩
    · rw [quoted, String.toList_ofList, bracket_eq]
    · rw [quoted, canonical.forServer_bracket, String.ofList_toList, ← quoted]
  · rw [unbracket_eq_some_iff, bracket_eq]

/-- The limit falls behind a blank, which goes, too; the bracket in front of it stays. -/
theorem forServer_canonical_cut :
    let name := String.ofList (' ' :: List.replicate 126 'y' ++ "] tail".toList)
    let id : Identifier :=
      ⟨String.ofList ('[' :: List.replicate 126 'y' ++ "]]]".toList),
        String.ofList (List.replicate 126 'y' ++ [']'])⟩
    forServer name = .ok id ∧ IsCanonical serverLimit id.bare.toList ∧
      forServer id.quoted = .ok id := by
  intro name id
  have safe : forServer name = .ok id := eq_ok_of_toOption (by decide +kernel)
  obtain ⟨canonical, -, again⟩ := forServer_canonical.1 safe
  exact ⟨safe, canonical, again⟩

end Identifier

end Tabular
