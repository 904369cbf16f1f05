import Mathlib
import Tabular.Proofs.Injection

/-!
Scripts as SQL Server's tools read them: a line with nothing but the separator ends a batch. A
script splits back into its statements exactly when no name in them has a line inside that reads as
the separator. All other text of a statement is harmless, whatever the names are.
-/
namespace Tabular

namespace SqlText

def lines (cs : List Char) : List (List Char) := cs.splitOn '\n'

def innerLines (cs : List Char) : List (List Char) := (lines cs).tail.dropLast

def separatorCount (word script : String) : Nat := (lines script.toList).count word.toList

def parts (word script : String) : List String :=
  ((lines script.toList).splitOn word.toList).map fun ls => String.ofList (['\n'].intercalate ls)

/-- The batches of a script. Nothing is left behind the last separator if the script ends there. -/
def batches (word script : String) : List String :=
  let parts := parts word script
  if parts.getLast? = some "" then parts.dropLast else parts

section Lines

variable {front back : List (List Char)} {cs ds first last word : List Char}

theorem lines_cons {c : Char} (hc : c ≠ '\n') :
    lines (c :: cs) = (lines cs).modifyHead (c :: ·) := by
  simp [lines, List.splitOn_cons_eq_if_modifyHead, hc]

theorem lines_break_append : lines (cs ++ '\n' :: ds) = lines cs ++ lines ds :=
  List.splitOn_append_cons_self cs ds

theorem lines_break_cons : lines ('\n' :: cs) = [] :: lines cs :=
  List.splitOn_append_cons_self [] cs

theorem exists_first_line (cs : List Char) : ∃ first back, lines cs = first :: back :=
  List.exists_cons_of_ne_nil (List.splitOn_ne_nil '\n' cs)

theorem exists_last_line (cs : List Char) : ∃ front last, lines cs = front ++ [last] :=
  ⟨_, _, (List.dropLast_append_getLast (List.splitOn_ne_nil '\n' cs)).symm⟩

/-- The last line of a text and the first line of the next become one line. -/
theorem lines_append (hc : lines cs = front ++ [last]) (hd : lines ds = first :: back) :
    lines (cs ++ ds) = front ++ (last ++ first) :: back := by
  induction cs generalizing front last with
  | nil =>
    have single : [[]] = front ++ [last] := hc
    obtain ⟨rfl, rfl⟩ : front = [] ∧ last = [] := by
      cases front with
      | nil => simpa using single.symm
      | cons l ls => simp at single
    simpa using hd
  | cons c cs ih =>
    obtain ⟨front', last', rest⟩ := exists_last_line cs
    have whole := ih rest
    by_cases hb : c = '\n'
    · subst hb
      have start : front ++ [last] = ([] :: front') ++ [last'] := by
        rw [← hc, lines_break_cons, rest, List.cons_append]
      obtain ⟨rfl, same⟩ := List.append_inj' start rfl
      obtain rfl : last = last' := by simpa using same
      simp [lines_break_cons, whole]
    · rw [lines_cons hb, rest] at hc
      rw [List.cons_append, lines_cons hb, whole]
      cases front' with
      | nil =>
        have single : [c :: last'] = front ++ [last] := by simpa using hc
        cases front with
        | nil =>
          obtain rfl : c :: last' = last := by simpa using single
          simp
        | cons l ls => simp at single
      | cons l ls =>
        have start : ((c :: l) :: ls) ++ [last'] = front ++ [last] := by simpa using hc
        obtain ⟨rfl, same⟩ := List.append_inj' start rfl
        obtain rfl : last' = last := by simpa using same
        simp

def Opens (word cs : List Char) : Prop := (lines cs).head? ≠ some word

def Closes (word cs : List Char) : Prop :=
  ∃ last ∈ (lines cs).getLast?, ∃ c ∈ last, c ∉ word

/-- Put next to other texts, such a text neither makes up a line that is the word nor undoes one. -/
def IsSealed (word cs : List Char) : Prop := Opens word cs ∧ Closes word cs

instance (word cs : List Char) : Decidable (IsSealed word cs) :=
  -- Only the characters of the line are tried, not all that there are.
  letI : ∀ last : List Char, Decidable (∃ c ∈ last, c ∉ word) := List.decidableBEx _
  inferInstanceAs (Decidable ((lines cs).head? ≠ some word ∧
    ∃ last ∈ (lines cs).getLast?, ∃ c ∈ last, c ∉ word))

theorem opens_nil (hw : word ≠ []) : Opens word [] := by
  simpa [Opens, lines] using hw.symm

theorem opens_append (hc : IsSealed word cs) : Opens word (cs ++ ds) := by
  obtain ⟨ho, last, hl, c, hm, hn⟩ := hc
  obtain ⟨front, last', split⟩ := exists_last_line cs
  obtain ⟨first, back, hd⟩ := exists_first_line ds
  obtain rfl : last' = last := by simpa [split] using hl
  unfold Opens at ho ⊢
  rw [lines_append split hd]
  cases front with
  | nil =>
    intro same
    have whole : last' ++ first = word := by simpa using same
    exact hn (whole ▸ List.mem_append_left first hm)
  | cons l ls => simpa [split] using ho

theorem closes_append (hd : Closes word ds) : Closes word (cs ++ ds) := by
  obtain ⟨last, hl, c, hm, hn⟩ := hd
  obtain ⟨front, last', hc⟩ := exists_last_line cs
  obtain ⟨first, back, split⟩ := exists_first_line ds
  unfold Closes
  rw [lines_append hc split]
  cases back with
  | nil =>
    obtain rfl : first = last := by simpa [split] using hl
    exact ⟨last' ++ first, by simp, c, List.mem_append_right _ hm, hn⟩
  | cons l ls =>
    refine ⟨last, ?_, c, hm, hn⟩
    simpa [split] using hl

theorem mem_lines_append (hc : Closes word cs) (hd : Opens word ds) :
    word ∈ lines (cs ++ ds) ↔ word ∈ lines cs ∨ word ∈ lines ds := by
  obtain ⟨last, hl, c, hm, hn⟩ := hc
  obtain ⟨front, last', split⟩ := exists_last_line cs
  obtain ⟨first, back, hback⟩ := exists_first_line ds
  obtain rfl : last' = last := by simpa [split] using hl
  have notLast : word ≠ last' := fun same => hn (same ▸ hm)
  have notFirst : word ≠ first := fun same => hd (by simp [hback, same])
  have notBoth : word ≠ last' ++ first := fun same => hn (same ▸ List.mem_append_left first hm)
  simp [lines_append split hback, split, hback, notLast, notFirst, notBoth]

/-- Sealed at both ends, a text has the word among its inner lines if it has it at all. -/
theorem mem_innerLines_of_isSealed (h : IsSealed word cs) :
    word ∈ innerLines cs ↔ word ∈ lines cs := by
  obtain ⟨ho, last, hl, c, hm, hn⟩ := h
  obtain ⟨first, back, hcs⟩ := exists_first_line cs
  have notFirst : word ≠ first := fun same => ho (by simp [hcs, same])
  have notLast : word ≠ last := fun same => hn (same ▸ hm)
  rcases List.eq_nil_or_concat back with rfl | ⟨inner, last', rfl⟩
  · simp [innerLines, hcs, notFirst]
  · rw [List.concat_eq_append, ← List.cons_append] at hcs
    rw [hcs, List.getLast?_concat, Option.mem_some_iff] at hl
    obtain rfl := hl
    simp [innerLines, hcs, notFirst, notLast]

theorem innerLines_cons {c : Char} (hc : c ≠ '\n') : innerLines (c :: cs) = innerLines cs := by
  obtain ⟨first, back, hcs⟩ := exists_first_line cs
  simp [innerLines, lines_cons hc, hcs]

theorem lines_singleton {c : Char} (hc : c ≠ '\n') : lines [c] = [[c]] := by
  have alone : '\n' ∉ [c] := by simpa using hc.symm
  exact List.splitOn_eq_singleton alone

theorem innerLines_concat {c : Char} (hc : c ≠ '\n') : innerLines (cs ++ [c]) = innerLines cs := by
  obtain ⟨front, last, hcs⟩ := exists_last_line cs
  rw [innerLines, innerLines, lines_append hcs (lines_singleton hc), hcs]
  cases front <;> simp

theorem opens_cons {c : Char} (hc : c ≠ '\n') (hw : c ∉ word) : Opens word (c :: cs) := by
  obtain ⟨first, back, hcs⟩ := exists_first_line cs
  intro start
  rw [lines_cons hc, hcs, List.modifyHead_cons, List.head?_cons, Option.some.injEq] at start
  exact hw (start ▸ List.mem_cons_self)

theorem closes_concat {c : Char} (hc : c ≠ '\n') (hw : c ∉ word) : Closes word (cs ++ [c]) :=
  closes_append ⟨[c], by simp [lines_singleton hc], c, by simp, hw⟩

/-! ### Marks written twice -/

theorem lines_doubled {close : Char} (hb : close ≠ '\n') (cs : List Char) :
    lines (doubled close cs) = (lines cs).map (doubled close) := by
  induction cs with
  | nil => rfl
  | cons c cs ih =>
    obtain ⟨first, back, hcs⟩ := exists_first_line cs
    have step : doubled close (c :: cs) =
        (if c = close then [close, close] else [c]) ++ doubled close cs := rfl
    have stepFirst : doubled close (c :: first) =
        (if c = close then [close, close] else [c]) ++ doubled close first := rfl
    by_cases hc : c = close
    · subst hc
      simp [step, stepFirst, lines_cons hb, ih, hcs]
    by_cases hn : c = '\n'
    · subst hn
      have empty : doubled close [] = [] := rfl
      simp [step, hc, lines_break_cons, ih, empty]
    · simp [step, stepFirst, hc, lines_cons hn, ih, hcs]

/-- Marks that the word does not have change nothing about its being a line. -/
theorem mem_innerLines_doubled {close : Char} (hb : close ≠ '\n') (hw : close ∉ word) :
    word ∈ innerLines (doubled close cs) ↔ word ∈ innerLines cs := by
  have unchanged (l : List Char) : doubled close l = word ↔ l = word := by
    by_cases hl : close ∈ l
    · have kept : close ∈ doubled close l := List.mem_flatMap.mpr ⟨close, hl, by simp⟩
      constructor
      · rintro rfl
        exact absurd kept hw
      · rintro rfl
        exact absurd hl hw
    · have plain : doubled close l = l := by
        have single (c : Char) (hc : c ∈ l) : (if c = close then [close, close] else [c]) = [c] :=
          if_neg fun same : c = close => hl (same ▸ hc)
        rw [doubled, List.flatMap_congr single, ← List.map_eq_flatMap, List.map_id']
      rw [plain]
  have inner : innerLines (doubled close cs) = (innerLines cs).map (doubled close) := by
    rw [innerLines, lines_doubled hb, ← List.map_tail, ← List.map_dropLast, innerLines]
  rw [inner, List.mem_map]
  simp [unchanged]

end Lines

/-! ### Pieces -/

def separatorLine : List Char := batchSeparator.toList

namespace Piece

def isStill : Piece → Bool
  | code s => decide (IsSealed separatorLine s.toList) && !(lines s.toList).contains separatorLine
  | name _ => true
  | text _ => true

@[simp] theorem isStill_name (s : String) : (name s).isStill = true := rfl

@[simp] theorem isStill_text (s : String) : (text s).isStill = true := rfl

theorem isStill_code_iff {s : String} : (code s).isStill = true ↔
    IsSealed separatorLine s.toList ∧ separatorLine ∉ lines s.toList := by
  simp [isStill]

def content? : Piece → Option String
  | code _ => none
  | name s => some s
  | text s => some s

theorem isSealed_render {p : Piece} (h : p.isStill = true) : IsSealed separatorLine p.render := by
  cases p with
  | code s => exact (isStill_code_iff.mp h).1
  | name s =>
    exact ⟨opens_cons (by decide) (by decide), closes_concat (by decide) (by decide)⟩
  | text s =>
    exact ⟨opens_cons (by decide) (by decide), closes_concat (by decide) (by decide)⟩

/-- A separator in a piece is a line inside a name or a text. -/
theorem mem_lines_render {p : Piece} (h : p.isStill = true) :
    separatorLine ∈ lines p.render ↔ ∃ s ∈ p.content?, separatorLine ∈ innerLines s.toList := by
  rw [← mem_innerLines_of_isSealed (isSealed_render h)]
  cases p with
  | code s =>
    have still := isStill_code_iff.mp h
    simp [content?, render, mem_innerLines_of_isSealed still.1, still.2]
  | name s =>
    have inner : innerLines (render (name s)) = innerLines (doubled ']' s.toList) := by
      rw [render, Identifier.bracket, doubleBrackets_eq, innerLines_concat (by decide),
        innerLines_cons (by decide)]
    rw [inner, mem_innerLines_doubled (by decide) (by decide)]
    simp [content?]
  | text s =>
    have inner : innerLines (render (text s)) = innerLines (doubled '\'' s.toList) := by
      rw [render, doubleQuotes_eq, innerLines_concat (by decide), innerLines_cons (by decide),
        innerLines_cons (by decide)]
    rw [inner, mem_innerLines_doubled (by decide) (by decide)]
    simp [content?]

theorem opens_flatMap {ps : List Piece} (h : ps.all isStill = true) :
    Opens separatorLine (ps.flatMap render) := by
  cases ps with
  | nil => exact opens_nil (by decide)
  | cons p ps =>
    rw [List.all_cons, Bool.and_eq_true] at h
    exact opens_append (isSealed_render h.1)

theorem isSealed_flatMap {ps : List Piece} (h : ps.all isStill = true) (nonempty : ps ≠ []) :
    IsSealed separatorLine (ps.flatMap render) := by
  refine ⟨opens_flatMap h, ?_⟩
  induction ps with
  | nil => exact absurd rfl nonempty
  | cons p ps ih =>
    rw [List.all_cons, Bool.and_eq_true] at h
    cases ps with
    | nil => simpa using (isSealed_render h.1).2
    | cons q qs => exact closes_append (ih h.2 (by simp))

/-- Still pieces have separators only inside their names and texts. -/
theorem mem_lines_flatMap {ps : List Piece} (h : ps.all isStill = true) :
    separatorLine ∈ lines (ps.flatMap render) ↔
      ∃ p ∈ ps, ∃ s ∈ p.content?, separatorLine ∈ innerLines s.toList := by
  induction ps with
  | nil => simp [lines, separatorLine, batchSeparator]
  | cons p ps ih =>
    rw [List.all_cons, Bool.and_eq_true] at h
    rw [List.flatMap_cons, mem_lines_append (isSealed_render h.1).2 (opens_flatMap h.2),
      mem_lines_render h.1, ih h.2, List.exists_mem_cons_iff]

theorem isStill_type (type : SqlType) : (code (" " ++ type.toText)).isStill = true := by
  have plain : ∀ c ∈ (" " ++ type.toText).toList, isTypeChar c = true :=
    List.all_eq_true.mp (all_isTypeChar type)
  have oneLine : '\n' ∉ (" " ++ type.toText).toList := fun h => absurd (plain _ h) (by decide)
  have blank : ' ' ∈ (" " ++ type.toText).toList := by simp
  have foreign : (" " ++ type.toText).toList ≠ separatorLine := by
    intro same
    rw [same] at blank
    exact absurd blank (by decide)
  have single : lines (" " ++ type.toText).toList = [(" " ++ type.toText).toList] :=
    List.splitOn_eq_singleton oneLine
  rw [isStill_code_iff, IsSealed, Opens, Closes, single]
  refine ⟨⟨?_, _, rfl, ' ', blank, by decide⟩, ?_⟩
  · simpa using foreign
  · simpa using foreign.symm

end Piece

end SqlText

namespace Identifier

def HidesSeparator (id : Identifier) : Prop :=
  SqlText.separatorLine ∈ SqlText.innerLines id.bare.toList

instance (id : Identifier) : Decidable id.HidesSeparator :=
  inferInstanceAs (Decidable (SqlText.separatorLine ∈ SqlText.innerLines id.bare.toList))

instance (id : Identifier) : Decidable id.IsBracketed :=
  inferInstanceAs (Decidable (id.quoted = String.ofList (bracket id.bare.toList)))

end Identifier

open SqlText

namespace QualifiedName

theorem names_ne_nil (q : QualifiedName) : q.names ≠ [] := by
  simp [names, identifiers]

/-- A separator inside a qualified name is inside one of its names. -/
theorem exists_hides_of_qualifiedText {q : QualifiedName}
    (h : separatorLine ∈ innerLines (qualifiedText q.names).toList) :
    ∃ id ∈ q.identifiers, id.HidesSeparator := by
  have still : (joined "." q.names).all Piece.isStill = true :=
    all_joined Piece.isStill_name (by decide) q.names
  have nonempty : joined "." q.names ≠ [] := by
    intro none
    have named := filterMap_name?_joined "." q.names
    rw [none] at named
    exact q.names_ne_nil named.symm
  rw [qualifiedText, String.toList_ofList,
    mem_innerLines_of_isSealed (Piece.isSealed_flatMap still nonempty),
    Piece.mem_lines_flatMap still] at h
  obtain ⟨p, hp, s, hs, hidden⟩ := h
  have hn : s ∈ q.names := by
    rw [← filterMap_name?_joined "." q.names, List.mem_filterMap]
    cases p with
    | code t => cases hs
    | name t => exact ⟨_, hp, hs⟩
    | text t =>
      have member : t ∈ (joined "." q.names).filterMap Piece.text? :=
        List.mem_filterMap.mpr ⟨_, hp, rfl⟩
      rw [filterMap_text?_joined] at member
      cases member
  obtain ⟨id, hid, rfl⟩ := List.mem_map.mp hn
  exact ⟨id, hid, hidden⟩

end QualifiedName

namespace Command

theorem all_isStill_frame : frame.all Piece.isStill = true := by
  simp only [frame, createDatabasePieces, useDatabasePieces, createTablePieces, dropKeysPieces,
    primaryKeyPieces, foreignKeyPieces, List.all_append, List.all_cons, List.all_nil, Piece.isStill]
  repeat rw [String.toList_ofList]
  decide +kernel

theorem all_isStill_pieces (c : Command) : c.pieces.all Piece.isStill = true :=
  all_pieces Piece.isStill_name Piece.isStill_text Piece.isStill_type all_isStill_frame c

/-- The texts of a command are fixed, the name of a database, or the qualified name of a table. -/
theorem exists_hides_of_text {c : Command} {t : String} (ht : Piece.text t ∈ c.pieces)
    (h : separatorLine ∈ innerLines t.toList) : ∃ id ∈ c.identifiers, id.HidesSeparator := by
  have member : t ∈ c.shape.texts (c.identifiers.map (·.bare)) := by
    rw [← filterMap_text?_pieces, List.mem_filterMap]
    exact ⟨_, ht, rfl⟩
  cases c with
  | createDatabase database overwrite =>
    have own : t ∈ (identifiers (createDatabase database overwrite)).map (·.bare) :=
      List.mem_of_mem_take member
    obtain ⟨id, hid, rfl⟩ := List.mem_map.mp own
    exact ⟨id, hid, h⟩
  | useDatabase database => cases member
  | primaryKey table constraint columns => cases member
  | foreignKey child constraint childColumns parent parentColumns => cases member
  | createTable table columns =>
    have front : (identifiers (createTable table columns)).map (·.bare) =
        table.names ++ (table.names ++ columns.map fun c => c.name.bare) := by
      simp [identifiers, QualifiedName.names]
    have own : (table.names ++ (table.names ++ columns.map fun c => c.name.bare)).take
        (Shape.tableDepth table.isOwned) = table.names := by
      rw [← table.length_names, List.take_left]
    have fixed : ∀ text ∈ ["", "ALTER TABLE ", ".", " DROP CONSTRAINT ", ";", "U"],
        separatorLine ∉ innerLines text.toList := by decide
    rw [shape, Shape.texts, front, own] at member
    by_cases same : t = qualifiedText table.names
    · obtain ⟨id, hid, hidden⟩ := QualifiedName.exists_hides_of_qualifiedText (same ▸ h)
      exact ⟨id, by simp [identifiers, hid], hidden⟩
    · have known : t ∈ ["", "ALTER TABLE ", ".", " DROP CONSTRAINT ", ";", "U"] := by
        simp only [List.mem_cons, same, false_or, List.not_mem_nil, or_false, or_self] at member ⊢
        exact member
      exact absurd h (fixed t known)

/-- The text of a command has a line that reads as the separator just if one of its names has it
inside. -/
theorem mem_lines_toText {c : Command} (h : ∀ id ∈ c.identifiers, id.IsBracketed) :
    separatorLine ∈ lines c.toText.toList ↔ ∃ id ∈ c.identifiers, id.HidesSeparator := by
  rw [toList_toText h, Piece.mem_lines_flatMap c.all_isStill_pieces]
  have named (n : String) : Piece.name n ∈ c.pieces ↔ ∃ id ∈ c.identifiers, id.bare = n := by
    have names := filterMap_name?_pieces c
    constructor
    · intro hn
      have member : n ∈ c.pieces.filterMap Piece.name? := List.mem_filterMap.mpr ⟨_, hn, rfl⟩
      exact List.mem_map.mp (names ▸ member)
    · intro hn
      have member : n ∈ c.pieces.filterMap Piece.name? := names ▸ List.mem_map.mpr hn
      obtain ⟨p, hp, hpn⟩ := List.mem_filterMap.mp member
      cases p with
      | name m =>
        obtain rfl : m = n := by simpa [Piece.name?] using hpn
        exact hp
      | code m => cases hpn
      | text m => cases hpn
  constructor
  · rintro ⟨p, hp, s, hs, hidden⟩
    cases p with
    | code t => cases hs
    | name n =>
      obtain rfl : n = s := by simpa [Piece.content?] using hs
      obtain ⟨id, hid, rfl⟩ := (named n).mp hp
      exact ⟨id, hid, hidden⟩
    | text t =>
      obtain rfl : t = s := by simpa [Piece.content?] using hs
      exact exists_hides_of_text hp hidden
  · rintro ⟨id, hid, hidden⟩
    exact ⟨.name id.bare, (named _).mpr ⟨id, hid, rfl⟩, id.bare, rfl, hidden⟩

end Command

/-! ### Scripts -/

namespace Compilation

variable {word : String}

theorem length_parts (word text : String) :
    (parts word text).length = separatorCount word text + 1 := by
  have length (ls : List (List Char)) :
      (ls.splitOn word.toList).length = ls.count word.toList + 1 := by
    induction ls with
    | nil => rfl
    | cons l ls ih =>
      rw [List.splitOn_cons_eq_if_modifyHead]
      by_cases same : l = word.toList
      · simp [same, ih]
      · simp [same, ih]
  rw [parts, List.length_map, length, separatorCount]

theorem parts_of_not_mem {text : String} (h : word.toList ∉ lines text.toList) :
    parts word text = [text] := by
  have whole : ['\n'].intercalate (lines text.toList) = text.toList :=
    List.intercalate_splitOn '\n'
  simp [parts, List.splitOn_eq_singleton h, whole]

theorem lines_script (hw : '\n' ∉ word.toList) (c : Compilation) :
    lines (c.script (some word)).toList =
      c.statements.flatMap (fun st => lines st.sql.toList ++ [word.toList]) ++ [[]] := by
  have alone : lines word.toList = [word.toList] := List.splitOn_eq_singleton hw
  unfold script
  induction c.statements with
  | nil => rfl
  | cons st ss ih =>
    have step : (String.join ((st :: ss).map fun st => st.sql ++ "\n" ++ (word ++ "\n"))).toList =
        st.sql.toList ++ '\n' :: (word.toList ++ '\n' ::
          (String.join (ss.map fun st => st.sql ++ "\n" ++ (word ++ "\n"))).toList) := by
      simp
    rw [step, lines_break_append, lines_break_append, alone, ih]
    simp

/-- The batches of a script are the parts of its statements, one after the other. -/
theorem batches_script (hw : '\n' ∉ word.toList) (hn : word ≠ "") (c : Compilation) :
    batches word (c.script (some word)) = c.statements.flatMap fun st => parts word st.sql := by
  have split : (lines (c.script (some word)).toList).splitOn word.toList =
      c.statements.flatMap (fun st => (lines st.sql.toList).splitOn word.toList) ++ [[[]]] := by
    rw [lines_script hw]
    induction c.statements with
    | nil =>
      have blank : word.toList ∉ [[]] := by simpa using hn
      exact List.splitOn_eq_singleton blank
    | cons st ss ih =>
      rw [List.flatMap_cons, List.append_assoc, List.append_assoc, List.singleton_append,
        List.splitOn_append_cons_self, ih, List.flatMap_cons, List.append_assoc]
  unfold batches parts
  rw [split]
  simp [List.map_flatMap]

theorem separatorCount_script (hw : '\n' ∉ word.toList) (hn : word ≠ "") (c : Compilation) :
    separatorCount word (c.script (some word)) =
      (c.statements.map fun st => (parts word st.sql).length).sum := by
  have blank : word.toList ∉ [[]] := by simpa using hn
  rw [separatorCount, lines_script hw]
  induction c.statements with
  | nil => exact List.count_eq_zero.mpr blank
  | cons st ss ih =>
    rw [List.flatMap_cons, List.append_assoc, List.count_append, ih, List.map_cons, List.sum_cons,
      length_parts, separatorCount]
    simp

theorem length_le_sum_parts (word : String) (ss : List Statement) :
    ss.length ≤ (ss.map fun st => (parts word st.sql).length).sum := by
  induction ss with
  | nil => simp
  | cons st ss ih =>
    rw [List.map_cons, List.sum_cons, List.length_cons, length_parts]
    omega

/-- The separators of a script are as many as its statements just if no statement has one. -/
theorem separatorCount_eq_length_iff (hw : '\n' ∉ word.toList) (hn : word ≠ "")
    {c : Compilation} :
    separatorCount word (c.script (some word)) = c.statements.length ↔
      ∀ st ∈ c.statements, word.toList ∉ lines st.sql.toList := by
  rw [separatorCount_script hw hn]
  induction c.statements with
  | nil => simp
  | cons st ss ih =>
    have rest := length_le_sum_parts word ss
    have first : separatorCount word st.sql = 0 ↔ word.toList ∉ lines st.sql.toList :=
      List.count_eq_zero
    rw [List.forall_mem_cons, ← ih, ← first, List.map_cons, List.sum_cons, List.length_cons,
      length_parts]
    omega

theorem batches_eq_iff (hw : '\n' ∉ word.toList) (hn : word ≠ "") {c : Compilation} :
    batches word (c.script (some word)) = c.statements.map (·.sql) ↔
      ∀ st ∈ c.statements, word.toList ∉ lines st.sql.toList := by
  constructor
  · intro split
    rw [← separatorCount_eq_length_iff hw hn, separatorCount_script hw hn]
    have lengths := congrArg List.length split
    rw [batches_script hw hn, List.length_flatMap, List.length_map] at lengths
    exact lengths
  · intro clean
    rw [batches_script hw hn, List.map_eq_flatMap]
    exact List.flatMap_congr fun st hst => parts_of_not_mem (clean st hst)

end Compilation

namespace Schema

variable {s : Schema} {o : Options}

def HidesNoSeparator (s : Schema) (o : Options) : Prop :=
  ∀ st ∈ (s.compileScript o).statements, ∀ id ∈ st.command.identifiers, ¬id.HidesSeparator

/-- A script splits back into its statements, and has as many separators as statements, just if
none of the names in it has a line inside that reads as the separator. -/
theorem batches_script_iff (s : Schema) (o : Options) :
    let c := s.compileScript o
    let script := c.script (some batchSeparator)
    (batches batchSeparator script = c.statements.map (·.sql) ↔ s.HidesNoSeparator o) ∧
      (separatorCount batchSeparator script = c.statements.length ↔ s.HidesNoSeparator o) := by
  have line : '\n' ∉ batchSeparator.toList := by decide
  have nonempty : batchSeparator ≠ "" := by decide
  have clean : (∀ st ∈ (s.compileScript o).statements,
      batchSeparator.toList ∉ lines st.sql.toList) ↔ s.HidesNoSeparator o := by
    refine forall₂_congr fun st hst => ?_
    have bracketed : ∀ id ∈ st.command.identifiers, id.IsBracketed := by
      intro id hid
      obtain ⟨-, declared, -, hids⟩ := spells_compileScript hst
      obtain ⟨n, -, hn⟩ := exists_of_mem_results hids hid
      exact Identifier.isBracketed_of_forServer hn
    have hidden := Command.mem_lines_toText bracketed
    rw [Statement.sql, show batchSeparator.toList = separatorLine from rfl, hidden]
    simp only [not_exists, not_and]
  exact ⟨(Compilation.batches_eq_iff line nonempty).trans clean,
    (Compilation.separatorCount_eq_length_iff line nonempty).trans clean⟩

/-- A table whose name has the separator as one of its lines. -/
theorem batches_script_hidden :
    let s : Schema := ⟨"s", [⟨"a\nGO\nb", [⟨"k", some .int32, none, -1, true⟩], none⟩], []⟩
    let c := s.compileScript {}
    let script := c.script (some batchSeparator)
    c.isComplete = true ∧ batches batchSeparator script ≠ c.statements.map (·.sql) ∧
      separatorCount batchSeparator script ≠ c.statements.length := by
  intro s c script
  let table : Identifier := ⟨"[a\nGO\nb]", "a\nGO\nb"⟩
  let st : Statement := ⟨"a\nGO\nb",
    .createTable ⟨some ⟨"[dbo]", "dbo"⟩, table⟩ [⟨⟨"[k]", "k"⟩, .int, true⟩]⟩
  have mem : st ∈ c.statements := by decide +kernel
  have bracketed : ∀ id ∈ st.command.identifiers, id.IsBracketed := by decide +kernel
  have hidden : separatorLine ∈ lines st.sql.toList :=
    (Command.mem_lines_toText bracketed).mpr ⟨table, by decide +kernel, by decide +kernel⟩
  have line : '\n' ∉ batchSeparator.toList := by decide
  have nonempty : batchSeparator ≠ "" := by decide
  refine ⟨by decide +kernel, ?_, ?_⟩
  · rw [ne_eq, Compilation.batches_eq_iff line nonempty]
    exact fun clean => clean st mem hidden
  · rw [ne_eq, Compilation.separatorCount_eq_length_iff line nonempty]
    exact fun clean => clean st mem hidden

end Schema

end Tabular
