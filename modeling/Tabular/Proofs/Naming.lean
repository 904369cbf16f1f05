import Tabular.Compilation

/-!
When a name can be made safe. A name fails only for being blank or holding a NUL character, the
fault is always about the name itself, and a prefix in front of a safe name keeps it safe.
-/
namespace Tabular

namespace Fault

def IsArgument (f : Fault) (entity : String) : Prop := ∃ message, f = argument entity message

theorem forEntity_isArgument {f : Fault} {name : String} (h : f.IsArgument name)
    (entity : String) : (f.forEntity entity).IsArgument entity := by
  obtain ⟨message, rfl⟩ := h
  by_cases same : name = entity
  · exact ⟨message, by simp [forEntity, same]⟩
  · exact ⟨_, by simp only [forEntity, beq_iff_eq, same, if_false]; rfl⟩

end Fault

namespace Text

theorem mem_trim_of_mem {c : Char} {cs : List Char} (h : c ∈ cs) (hc : isBlank c = false) :
    c ∈ trim cs := by
  obtain ⟨front, back, hfront, hback, whole⟩ := exists_blank_trim cs
  have notIn : ∀ {blanks : List Char}, allBlank blanks = true → c ∉ blanks := by
    intro blanks hb hm
    have := List.all_eq_true.mp hb c hm
    simp [hc] at this
  rw [← whole] at h
  rcases List.mem_append.mp h with hfm | hbm
  · rcases List.mem_append.mp hfm with hm | hm
    · exact absurd hm (notIn hfront)
    · exact hm
  · exact absurd hbm (notIn hback)

theorem mem_of_mem_trim {c : Char} {cs : List Char} (h : c ∈ trim cs) : c ∈ cs := by
  obtain ⟨front, back, -, -, whole⟩ := exists_blank_trim cs
  rw [← whole]
  simp [h]

/-- A character that is no blank stays in front. -/
theorem trim_cons {c : Char} (cs : List Char) (hc : isBlank c = false) :
    trim (c :: cs) = c :: trimEnd cs := by
  have start : trimStart (c :: cs) = c :: cs := trimStart_eq_self (by simp [hc])
  rw [trim, start, trimEnd, trimEnd, List.reverse_cons, List.dropWhile_append]
  split
  · next none =>
    have : List.dropWhile isBlank cs.reverse = [] := by simpa using none
    simp [this, hc]
  · simp

end Text

namespace Identifier

theorem readBracketed_eq {cs inner : List Char} (h : readBracketed cs = some inner) :
    cs = doubleBrackets inner ++ [']'] := by
  fun_induction readBracketed cs generalizing inner with
  | case1 => simp at h
  | case2 =>
    obtain rfl : [] = inner := by simpa using h
    rfl
  | case3 cs ih =>
    obtain ⟨rest, hr, rfl⟩ := Option.map_eq_some_iff.mp h
    simp [doubleBrackets, ← ih hr]
  | case4 => simp at h
  | case5 c cs _ _ hc ih =>
    obtain ⟨rest, hr, rfl⟩ := Option.map_eq_some_iff.mp h
    simp [doubleBrackets, hc, ← ih hr]

theorem unbracket_eq {cs inner : List Char} (h : unbracket cs = some inner) :
    cs = bracket inner := by
  unfold unbracket at h
  split at h
  · exact congrArg _ (readBracketed_eq h)
  · simp at h

theorem mem_doubleBrackets {c : Char} (cs : List Char) : c ∈ doubleBrackets cs ↔ c ∈ cs := by
  induction cs with
  | nil => simp [doubleBrackets]
  | cons d ds ih =>
    unfold doubleBrackets
    split
    · next hd => simp [ih, hd]
    · simp [ih]

/-- The characters of a name for a server: blanks around it are taken off, and brackets. -/
def serverText (name : String) : List Char :=
  let outer := Text.trim name.toList
  (unbracket outer).getD outer

theorem nul_mem_serverText {name : String} : '\x00' ∈ serverText name ↔ '\x00' ∈ name.toList := by
  have outer : '\x00' ∈ Text.trim name.toList ↔ '\x00' ∈ name.toList :=
    ⟨Text.mem_of_mem_trim, fun h => Text.mem_trim_of_mem h (by decide)⟩
  unfold serverText
  dsimp only
  cases h : unbracket (Text.trim name.toList) with
  | none => exact outer
  | some inner =>
    rw [← outer, unbracket_eq h]
    simp [bracket, mem_doubleBrackets]

theorem forServer_eq (name : String) :
    forServer name = (validate (String.ofList (serverText name))).map fun _ =>
      let bare := truncate serverLimit (Text.trim (serverText name))
      ⟨String.ofList (bracket bare), String.ofList bare⟩ := by
  unfold forServer
  simp only [serverText]
  cases validate _ <;> rfl

theorem validate_isArgument {name : String} {f : Fault} (h : validate name = .error f) :
    ∃ entity, f.IsArgument entity := by
  unfold validate at h
  split at h
  · exact ⟨_, _, (Except.error.inj h).symm⟩
  · split at h
    · exact ⟨_, _, (Except.error.inj h).symm⟩
    · cases h

theorem validate_eq_ok_iff {name : String} :
    validate name = .ok () ↔ isBlankText name = false ∧ '\x00' ∉ name.toList := by
  unfold validate
  split
  · next h => simp [h]
  · next h =>
    split
    · next hn =>
      have : '\x00' ∈ name.toList := by simpa using hn
      simp [this]
    · next hn =>
      have : '\x00' ∉ name.toList := by simpa using hn
      simp [h, this]

theorem forServer_isArgument {name : String} {f : Fault} (h : forServer name = .error f) :
    ∃ entity, f.IsArgument entity := by
  rw [forServer_eq] at h
  cases hv : validate (String.ofList (serverText name)) with
  | error g =>
    rw [hv] at h
    obtain rfl : g = f := Except.error.inj h
    exact validate_isArgument hv
  | ok _ => rw [hv] at h; cases h

theorem forServer_isOk_iff {name : String} :
    (∃ id, forServer name = .ok id) ↔
      isBlankText (String.ofList (serverText name)) = false ∧ '\x00' ∉ name.toList := by
  rw [← nul_mem_serverText]
  have valid := @validate_eq_ok_iff (String.ofList (serverText name))
  rw [String.toList_ofList] at valid
  rw [← valid, forServer_eq]
  cases validate (String.ofList (serverText name)) with
  | error f => simp [Except.map]
  | ok _ => simp [Except.map]

/-- A name that starts like a word is safe as soon as it has no NUL character. -/
theorem forServer_cons {c : Char} {cs : List Char} (hc : Text.isBlank c = false) (hb : c ≠ '[')
    (hn : '\x00' ∉ c :: cs) : ∃ id, forServer (String.ofList (c :: cs)) = .ok id := by
  refine forServer_isOk_iff.mpr ⟨?_, by simpa only [String.toList_ofList] using hn⟩
  have text : serverText (String.ofList (c :: cs)) = c :: Text.trimEnd cs := by
    unfold serverText
    simp only [String.toList_ofList, Text.trim_cons cs hc]
    unfold unbracket
    split
    · next h => exact absurd (List.cons.inj h).1 hb
    · rfl
  simp only [text, isBlankText, Text.allBlank, String.toList_ofList, List.all_cons, hc,
    Bool.false_and]

end Identifier

end Tabular
