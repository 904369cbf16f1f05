import Tabular.Json.Printer
import Tabular.Proofs.Numerals

/-!
The text of a value read back. Everything comes back as it was printed but for numbers, which come
back as their texts are read.
-/
namespace Tabular

namespace JsonTree

/-! ### Strings -/

theorem hexValue?_hexDigit : ∀ n < 16, hexValue? (Json.hexDigit n) = some n := by decide

theorem scanPieces_escape {cs after : List Char} {p : Piece} (fuel : Nat)
    (h : scanEscape cs = some (p, after)) :
    scanPieces (fuel + 1) ('\\' :: cs) = (scanPieces fuel after).map fun q => (p :: q.1, q.2) := by
  rw [scanPieces, h, if_neg (by decide), if_pos (by decide), Option.bind_eq_bind, Option.bind_some]
  dsimp only
  cases scanPieces fuel after <;> rfl

theorem scanPieces_plain {c : Char} (fuel : Nat) (rest : List Char) (quote : c ≠ '"')
    (backslash : c ≠ '\\') (control : ¬ c.toNat < 0x20) :
    scanPieces (fuel + 1) (c :: rest) =
      (scanPieces fuel rest).map fun q => (.char c :: q.1, q.2) := by
  rw [scanPieces]
  simp only [beq_iff_eq, quote, backslash, control, if_false]
  cases scanPieces fuel rest <;> rfl

theorem scanEscape_control {c : Char} (rest : List Char) (h : c.toNat < 0x20) :
    scanEscape ('u' :: '0' :: '0' :: Json.hexDigit (c.toNat / 16) ::
      Json.hexDigit (c.toNat % 16) :: rest) = some (.char c, rest) := by
  have high := hexValue?_hexDigit (c.toNat / 16) (by omega)
  have low := hexValue?_hexDigit (c.toNat % 16) (by omega)
  have zero : hexValue? '0' = some 0 := by decide
  have value : 4096 * 0 + 256 * 0 + 16 * (c.toNat / 16) + c.toNat % 16 = c.toNat := by omega
  have scanned : scanHex4 ('0' :: '0' :: Json.hexDigit (c.toNat / 16) ::
      Json.hexDigit (c.toNat % 16) :: rest) = some (c.toNat, rest) := by
    simp only [scanHex4, zero, high, low, Option.bind_eq_bind, Option.bind_some, value]
    rfl
  have whole : (isLeading c.toNat || isTrailing c.toNat) = false := by
    simp only [isLeading, isTrailing, Bool.or_eq_false_iff, Bool.and_eq_false_iff,
      decide_eq_false_iff_not]
    omega
  simp only [scanEscape, scanned, Option.bind_eq_bind, Option.bind_some, whole, Char.ofNat_toNat]
  rfl

/-- An escaped character is read as one piece. -/
theorem scanPieces_escapeChar (c : Char) (fuel : Nat) (rest : List Char) :
    scanPieces (fuel + 1) (Json.escapeChar c ++ rest) =
      (scanPieces fuel rest).map fun q => (.char c :: q.1, q.2) := by
  unfold Json.escapeChar
  simp only [beq_iff_eq]
  split
  · next h =>
    subst h
    exact scanPieces_escape fuel rfl
  split
  · next h =>
    subst h
    exact scanPieces_escape fuel rfl
  split
  · next h =>
    subst h
    exact scanPieces_escape fuel rfl
  split
  · next h =>
    subst h
    exact scanPieces_escape fuel rfl
  split
  · next h =>
    subst h
    exact scanPieces_escape fuel rfl
  split
  · next h =>
    subst h
    exact scanPieces_escape fuel rfl
  split
  · next h =>
    subst h
    exact scanPieces_escape fuel rfl
  split
  · next h => exact scanPieces_escape fuel (scanEscape_control rest h)
  · next quote backslash _ _ _ _ _ control =>
    exact scanPieces_plain fuel rest quote backslash control

theorem scanPieces_flatMap {cs : List Char} (rest : List Char) {fuel : Nat}
    (h : cs.length < fuel) :
    scanPieces fuel (cs.flatMap Json.escapeChar ++ '"' :: rest) = some (cs.map .char, rest) := by
  induction cs generalizing fuel with
  | nil =>
    obtain ⟨f, rfl⟩ := Nat.exists_eq_add_one_of_ne_zero (Nat.ne_of_gt h)
    rfl
  | cons c cs ih =>
    obtain ⟨f, rfl⟩ := Nat.exists_eq_add_one_of_ne_zero (Nat.ne_of_gt (Nat.zero_lt_of_lt h))
    rw [List.length_cons] at h
    rw [List.flatMap_cons, List.append_assoc, scanPieces_escapeChar, ih (by omega)]
    rfl

theorem joinPieces_map_char (cs : List Char) : joinPieces (cs.map .char) = some cs := by
  induction cs with
  | nil => rfl
  | cons c cs ih =>
    rw [List.map_cons, joinPieces, ih]
    rfl

theorem length_le_flatMap_escapeChar (cs : List Char) :
    cs.length ≤ (cs.flatMap Json.escapeChar).length := by
  induction cs with
  | nil => simp
  | cons c cs ih =>
    have some : 0 < (Json.escapeChar c).length := by
      unfold Json.escapeChar
      repeat' split
      all_goals simp
    rw [List.flatMap_cons, List.length_append, List.length_cons]
    omega

/-- A quoted text is read as the text. -/
theorem scanString_escaped (s : String) (rest : List Char) :
    scanString (s.toList.flatMap Json.escapeChar ++ '"' :: rest) = some (some s, rest) := by
  have enough := length_le_flatMap_escapeChar s.toList
  have fits : s.toList.length <
      (s.toList.flatMap Json.escapeChar ++ '"' :: rest).length + 1 := by
    rw [List.length_append]
    omega
  have scanned := scanPieces_flatMap rest fits
  simp only [scanString, scanned, Option.bind_eq_bind, Option.bind_some, joinPieces_map_char,
    Option.map_some, String.ofList_toList]
  rfl

end JsonTree

namespace Json

mutual

def printed : Json → JsonTree
  | null => .null
  | bool b => .bool b
  | number n => .number n.reread?
  | string s => .string (some s)
  | array items => .array (printedItems items)
  | object members => .object (printedMembers members)

def printedItems : List Json → List JsonTree
  | [] => []
  | v :: vs => v.printed :: printedItems vs

def printedMembers : List (String × Json) → List (Option String × JsonTree)
  | [] => []
  | (k, v) :: ms => (some k, v.printed) :: printedMembers ms

end

mutual

/-- The number of values and separators in a value. -/
def size : Json → Nat
  | array items => 1 + sizeItems items
  | object members => 1 + sizeMembers members
  | _ => 1

def sizeItems : List Json → Nat
  | [] => 0
  | v :: vs => 1 + v.size + sizeItems vs

def sizeMembers : List (String × Json) → Nat
  | [] => 0
  | (_, v) :: ms => 1 + v.size + sizeMembers ms

end

theorem toList_quote (s : String) :
    (quote s).toList = '"' :: (s.toList.flatMap escapeChar ++ ['"']) := by
  rw [quote, String.toList_ofList]
  rfl

theorem toList_newLine (level : Nat) :
    (newLine level).toList = '\n' :: List.replicate (2 * level) ' ' := by
  rw [newLine, String.toList_ofList]

end Json

/-! ### Layouts -/

namespace JsonTree

def IsSpaces (cs : List Char) : Prop := ∀ c ∈ cs, isSpace c = true

theorem isSpaces_nil : IsSpaces [] := fun _ hc => absurd hc List.not_mem_nil

theorem isSpaces_newLine (level : Nat) : IsSpaces (Json.newLine level).toList := by
  intro c hc
  rw [Json.toList_newLine] at hc
  rcases List.mem_cons.mp hc with rfl | hc
  · decide
  · rw [(List.mem_replicate.mp hc).2]
    decide

end JsonTree

structure Layout where
  /-- In front of an item, a member or a closing bracket at a level. -/
  line : Nat → List Char
  /-- Behind the colon of a member. -/
  gap : List Char
  isSpaces_line : ∀ level, JsonTree.IsSpaces (line level)
  isSpaces_gap : JsonTree.IsSpaces gap

namespace Layout

def dense : Layout := ⟨fun _ => [], [], fun _ => JsonTree.isSpaces_nil, JsonTree.isSpaces_nil⟩

/-- One member a line, indented by two spaces a level. -/
def indented : Layout where
  line level := (Json.newLine level).toList
  gap := [' ']
  isSpaces_line := JsonTree.isSpaces_newLine
  isSpaces_gap c hc := by
    rw [List.mem_singleton.mp hc]
    decide

end Layout

namespace Json

mutual

def laidOut (l : Layout) (level : Nat) : Json → List Char
  | null => ['n', 'u', 'l', 'l']
  | bool true => ['t', 'r', 'u', 'e']
  | bool false => ['f', 'a', 'l', 's', 'e']
  | number n => n.toText.toList
  | string s => (quote s).toList
  | array [] => ['[', ']']
  | array (v :: vs) =>
    '[' :: (l.line (level + 1) ++ (laidOut l (level + 1) v ++
      (laidOutItems l (level + 1) vs ++ (l.line level ++ [']']))))
  | object [] => ['\x7b', '\x7d']
  | object ((k, v) :: ms) =>
    '\x7b' :: (l.line (level + 1) ++ ((quote k).toList ++ (':' :: (l.gap ++
      (laidOut l (level + 1) v ++ (laidOutMembers l (level + 1) ms ++
        (l.line level ++ ['\x7d'])))))))

def laidOutItems (l : Layout) (level : Nat) : List Json → List Char
  | [] => []
  | v :: vs => ',' :: (l.line level ++ (laidOut l level v ++ laidOutItems l level vs))

def laidOutMembers (l : Layout) (level : Nat) : List (String × Json) → List Char
  | [] => []
  | (k, v) :: ms =>
    ',' :: (l.line level ++ ((quote k).toList ++ (':' :: (l.gap ++
      (laidOut l level v ++ laidOutMembers l level ms)))))

end

mutual

theorem toList_prettyAt (level : Nat) (v : Json) :
    (prettyAt level v).toList = laidOut .indented level v := by
  cases v with
  | null => simp [prettyAt, laidOut]
  | bool b => cases b <;> simp [prettyAt, laidOut]
  | number n => rw [prettyAt, laidOut]
  | string s => rw [prettyAt, laidOut]
  | array vs =>
    cases vs with
    | nil => simp [prettyAt, laidOut]
    | cons v vs =>
      have head := toList_prettyAt (level + 1) v
      have tail := toList_prettyItems (level + 1) vs
      simp [prettyAt, laidOut, head, tail, Layout.indented]
  | object ms =>
    cases ms with
    | nil => simp [prettyAt, laidOut]
    | cons m ms =>
      obtain ⟨k, v⟩ := m
      have head := toList_prettyAt (level + 1) v
      have tail := toList_prettyMembers (level + 1) ms
      simp [prettyAt, laidOut, head, tail, Layout.indented]
termination_by sizeOf v

theorem toList_prettyItems (level : Nat) (vs : List Json) :
    (prettyItems level vs).toList = laidOutItems .indented level vs := by
  cases vs with
  | nil => simp [prettyItems, laidOutItems]
  | cons v vs =>
    have head := toList_prettyAt level v
    have tail := toList_prettyItems level vs
    simp [prettyItems, laidOutItems, head, tail, Layout.indented]
termination_by sizeOf vs

theorem toList_prettyMembers (level : Nat) (ms : List (String × Json)) :
    (prettyMembers level ms).toList = laidOutMembers .indented level ms := by
  cases ms with
  | nil => simp [prettyMembers, laidOutMembers]
  | cons m ms =>
    obtain ⟨k, v⟩ := m
    have head := toList_prettyAt level v
    have tail := toList_prettyMembers level ms
    simp [prettyMembers, laidOutMembers, head, tail, Layout.indented]
termination_by sizeOf ms

end

mutual

theorem toList_compact (level : Nat) (v : Json) : v.compact.toList = laidOut .dense level v := by
  cases v with
  | null => simp [compact, laidOut]
  | bool b => cases b <;> simp [compact, laidOut]
  | number n => rw [compact, laidOut]
  | string s => rw [compact, laidOut]
  | array vs =>
    cases vs with
    | nil => simp [compact, compactItems, laidOut]
    | cons v vs =>
      have head := toList_compact (level + 1) v
      have tail := toList_compactItems (level + 1) vs
      simp [compact, compactItems, laidOut, head, tail, Layout.dense]
  | object ms =>
    cases ms with
    | nil => simp [compact, compactMembers, laidOut]
    | cons m ms =>
      obtain ⟨k, v⟩ := m
      have head := toList_compact (level + 1) v
      have tail := toList_compactMembers (level + 1) ms
      simp [compact, compactMembers, laidOut, head, tail, Layout.dense]
termination_by sizeOf v

theorem toList_compactItems (level : Nat) (vs : List Json) :
    (compactItems "," vs).toList = laidOutItems .dense level vs := by
  cases vs with
  | nil => simp [compactItems, laidOutItems]
  | cons v vs =>
    have head := toList_compact level v
    have tail := toList_compactItems level vs
    simp [compactItems, laidOutItems, head, tail, Layout.dense]
termination_by sizeOf vs

theorem toList_compactMembers (level : Nat) (ms : List (String × Json)) :
    (compactMembers "," ms).toList = laidOutMembers .dense level ms := by
  cases ms with
  | nil => simp [compactMembers, laidOutMembers]
  | cons m ms =>
    obtain ⟨k, v⟩ := m
    have head := toList_compact level v
    have tail := toList_compactMembers level ms
    simp [compactMembers, laidOutMembers, head, tail, Layout.dense]
termination_by sizeOf ms

end

end Json

namespace JsonTree

open Json (printed printedItems printedMembers laidOut laidOutItems laidOutMembers quote)

variable (l : Layout)

/-! ### Blanks -/

theorem skipSpace_append {blanks : List Char} (h : IsSpaces blanks) (cs : List Char) :
    skipSpace (blanks ++ cs) = skipSpace cs := by
  unfold skipSpace
  exact List.dropWhile_append_of_pos h

theorem skipSpace_cons {c : Char} (h : isSpace c = false) (cs : List Char) :
    skipSpace (c :: cs) = c :: cs := by
  unfold skipSpace
  rw [List.dropWhile_cons_of_neg (by simp [h])]

theorem skipSpace_skipSpace (cs : List Char) : skipSpace (skipSpace cs) = skipSpace cs := by
  induction cs with
  | nil => rfl
  | cons c cs ih =>
    cases h : isSpace c with
    | true =>
      have : skipSpace (c :: cs) = skipSpace cs := by
        unfold skipSpace
        rw [List.dropWhile_cons_of_pos h]
      rw [this, ih]
    | false => rw [skipSpace_cons h, skipSpace_cons h]

theorem scanValue_skipSpace (fuel : Nat) (cs : List Char) :
    scanValue fuel (skipSpace cs) = scanValue fuel cs := by
  cases fuel with
  | zero => rfl
  | succ fuel => rw [scanValue, scanValue, skipSpace_skipSpace]

theorem scanValue_append {blanks : List Char} (h : IsSpaces blanks) (fuel : Nat)
    (cs : List Char) : scanValue fuel (blanks ++ cs) = scanValue fuel cs := by
  rw [← scanValue_skipSpace, skipSpace_append h, scanValue_skipSpace]

theorem scanItems_append {blanks : List Char} (h : IsSpaces blanks) (fuel : Nat)
    (cs : List Char) : scanItems fuel (blanks ++ cs) = scanItems fuel cs := by
  cases fuel with
  | zero => rfl
  | succ fuel => rw [scanItems, scanItems, scanValue_append h]

theorem scanMembers_append {blanks : List Char} (h : IsSpaces blanks) (fuel : Nat)
    (cs : List Char) : scanMembers fuel (blanks ++ cs) = scanMembers fuel cs := by
  cases fuel with
  | zero => rfl
  | succ fuel => rw [scanMembers, scanMembers, skipSpace_append h]

/-! ### Values -/

/-- Blanks and a separator or a bracket end a value. -/
theorem ends_append {blanks : List Char} (h : IsSpaces blanks) {c : Char} (rest : List Char)
    (hc : c.isDigit = false ∧ c ≠ '.' ∧ c ≠ 'e' ∧ c ≠ 'E') : Ends (blanks ++ c :: rest) := by
  cases blanks with
  | nil => exact ends_cons rest hc
  | cons b blanks =>
    have space := h b (by simp)
    refine ends_cons _ ⟨?_, ?_, ?_, ?_⟩
    · unfold isSpace at space
      simp only [Bool.or_eq_true, beq_iff_eq] at space
      rcases space with ((rfl | rfl) | rfl) | rfl <;> decide
    all_goals
      rintro rfl
      revert space
      decide

theorem Number.exists_head (n : Number) :
    ∃ c cs, n.toText.toList = c :: cs ∧ (c = '-' ∨ c.isDigit = true) := by
  rw [n.toList_toText]
  obtain ⟨nonempty, isDigit⟩ := n.isProper_spelling.whole
  unfold Spelling.text
  cases n.spelling.negative with
  | true => exact ⟨'-', _, rfl, .inl rfl⟩
  | false =>
    obtain ⟨c, cs, hw⟩ := List.exists_cons_of_ne_nil nonempty
    rw [hw] at isDigit ⊢
    exact ⟨c, _, rfl, .inr (isDigit c (by simp))⟩

theorem scanValue_number (n : Number) {fuel : Nat} (h : 0 < fuel) {rest : List Char}
    (ends : Ends rest) :
    scanValue fuel (n.toText.toList ++ rest) = some (.number n.reread?, rest) := by
  obtain ⟨f, rfl⟩ := Nat.exists_eq_add_one_of_ne_zero (Nat.ne_of_gt h)
  obtain ⟨numeral, scanned, value⟩ := n.scanNumeral_toText ends
  obtain ⟨c, cs, text, head⟩ := Number.exists_head n
  have apart (d : Char) (hd : d ≠ '-' ∧ d.isDigit = false) : c ≠ d := by
    rintro rfl
    rcases head with rfl | digit
    · exact hd.1 rfl
    · rw [hd.2] at digit
      cases digit
  have solid : isSpace c = false := by
    simp only [isSpace, Bool.or_eq_false_iff, beq_eq_false_iff_ne]
    refine ⟨⟨⟨?_, ?_⟩, ?_⟩, ?_⟩ <;> exact apart _ (by decide)
  rw [text, List.cons_append] at scanned ⊢
  rw [scanValue, skipSpace_cons solid]
  split
  · next h => exact absurd (List.cons.inj h).1 (apart _ (by decide))
  · next h => exact absurd (List.cons.inj h).1 (apart _ (by decide))
  · next h => exact absurd (List.cons.inj h).1 (apart _ (by decide))
  · next h => exact absurd (List.cons.inj h).1 (apart _ (by decide))
  · next h => exact absurd (List.cons.inj h).1 (apart _ (by decide))
  · next h => exact absurd (List.cons.inj h).1 (apart _ (by decide))
  · rw [scanned, ← value]
    rfl

theorem scanValue_quote (s : String) {fuel : Nat} (h : 0 < fuel) (rest : List Char) :
    scanValue fuel ((quote s).toList ++ rest) = some (.string (some s), rest) := by
  obtain ⟨f, rfl⟩ := Nat.exists_eq_add_one_of_ne_zero (Nat.ne_of_gt h)
  have step (cs : List Char) : scanValue (f + 1) ('"' :: cs) =
      (scanString cs).bind fun p => some (.string p.1, p.2) := by
    rw [scanValue, skipSpace_cons (by decide)]
    rfl
  rw [Json.toList_quote, List.cons_append, List.append_assoc, step]
  change (scanString (s.toList.flatMap Json.escapeChar ++ '"' :: rest)).bind _ = _
  rw [scanString_escaped]
  rfl

theorem scanValue_bracket (f : Nat) {blanks : List Char} (h : IsSpaces blanks) {c : Char}
    {cs : List Char} (solid : isSpace c = false) (open_ : c ≠ ']') :
    scanValue (f + 1) ('[' :: (blanks ++ c :: cs)) =
      (scanItems f (c :: cs)).bind fun p => some (.array p.1, p.2) := by
  simp only [scanValue, skipSpace_cons (c := '[') (by decide), skipSpace_append h,
    skipSpace_cons solid]
  split
  · next same => exact absurd (List.cons.inj same).1 open_
  · rfl

theorem scanValue_brace (f : Nat) {blanks : List Char} (h : IsSpaces blanks) {c : Char}
    {cs : List Char} (solid : isSpace c = false) (open_ : c ≠ '\x7d') :
    scanValue (f + 1) ('\x7b' :: (blanks ++ c :: cs)) =
      (scanMembers f (c :: cs)).bind fun p => some (.object p.1, p.2) := by
  simp only [scanValue, skipSpace_cons (c := '\x7b') (by decide), skipSpace_append h,
    skipSpace_cons solid]
  split
  · next same => exact absurd (List.cons.inj same).1 open_
  · rfl

theorem exists_head_laidOut (level : Nat) (v : Json) :
    ∃ c cs, laidOut l level v = c :: cs ∧ isSpace c = false ∧ c ≠ ']' := by
  cases v with
  | null => exact ⟨'n', ['u', 'l', 'l'], by rw [laidOut], by decide⟩
  | bool b =>
    cases b with
    | true => exact ⟨'t', ['r', 'u', 'e'], by rw [laidOut], by decide⟩
    | false => exact ⟨'f', ['a', 'l', 's', 'e'], by rw [laidOut], by decide⟩
  | number n =>
    obtain ⟨c, cs, text, head⟩ := Number.exists_head n
    refine ⟨c, cs, by rw [laidOut, text], ?_⟩
    rcases head with rfl | digit
    · decide
    · constructor
      · simp only [isSpace, Bool.or_eq_false_iff, beq_eq_false_iff_ne]
        refine ⟨⟨⟨?_, ?_⟩, ?_⟩, ?_⟩ <;> (rintro rfl; revert digit; decide)
      · rintro rfl
        revert digit
        decide
  | string s => exact ⟨'"', _, by rw [laidOut, Json.toList_quote], by decide⟩
  | array items =>
    cases items with
    | nil => exact ⟨'[', [']'], by rw [laidOut], by decide⟩
    | cons v vs => exact ⟨'[', _, by rw [laidOut], by decide⟩
  | object members =>
    cases members with
    | nil => exact ⟨'\x7b', ['\x7d'], by rw [laidOut], by decide⟩
    | cons m ms => exact ⟨'\x7b', _, by rw [laidOut], by decide⟩

def ReadsValues (fuel : Nat) : Prop :=
  ∀ (v : Json) (level : Nat) (rest : List Char), v.size ≤ fuel → Ends rest →
    scanValue fuel (laidOut l level v ++ rest) = some (v.printed, rest)

def ReadsItems (fuel : Nat) : Prop :=
  ∀ (v : Json) (vs : List Json) (level : Nat) (closing rest : List Char),
    Json.sizeItems (v :: vs) ≤ fuel → IsSpaces closing →
      scanItems fuel (laidOut l level v ++
        (laidOutItems l level vs ++ (closing ++ ']' :: rest))) =
          some (printedItems (v :: vs), rest)

def ReadsMembers (fuel : Nat) : Prop :=
  ∀ (k : String) (v : Json) (ms : List (String × Json)) (level : Nat) (closing rest : List Char),
    Json.sizeMembers ((k, v) :: ms) ≤ fuel → IsSpaces closing →
      scanMembers fuel ((quote k).toList ++ (':' :: (l.gap ++ (laidOut l level v ++
        (laidOutMembers l level ms ++ (closing ++ '\x7d' :: rest)))))) =
          some (printedMembers ((k, v) :: ms), rest)

variable {l}

theorem scanValue_items {f : Nat} (items : ReadsItems l f) {v : Json} {vs : List Json}
    (level : Nat) (rest : List Char) (enough : Json.sizeItems (v :: vs) ≤ f) :
    scanValue (f + 1) (laidOut l level (.array (v :: vs)) ++ rest) =
      some (printed (.array (v :: vs)), rest) := by
  obtain ⟨c, cs, head, solid, open_⟩ := exists_head_laidOut l (level + 1) v
  have text : laidOut l level (.array (v :: vs)) ++ rest =
      '[' :: (l.line (level + 1) ++ (laidOut l (level + 1) v ++
        (laidOutItems l (level + 1) vs ++ (l.line level ++ ']' :: rest)))) := by
    simp [laidOut]
  have read := items v vs (level + 1) (l.line level) rest enough (l.isSpaces_line level)
  rw [head, List.cons_append] at text read
  rw [text, scanValue_bracket f (l.isSpaces_line _) solid open_, read]
  rfl

theorem scanValue_members {f : Nat} (members : ReadsMembers l f) {k : String} {v : Json}
    {ms : List (String × Json)} (level : Nat) (rest : List Char)
    (enough : Json.sizeMembers ((k, v) :: ms) ≤ f) :
    scanValue (f + 1) (laidOut l level (.object ((k, v) :: ms)) ++ rest) =
      some (printed (.object ((k, v) :: ms)), rest) := by
  have text : laidOut l level (.object ((k, v) :: ms)) ++ rest =
      '\x7b' :: (l.line (level + 1) ++ ((quote k).toList ++ (':' :: (l.gap ++
        (laidOut l (level + 1) v ++ (laidOutMembers l (level + 1) ms ++
          (l.line level ++ '\x7d' :: rest))))))) := by
    simp [laidOut]
  have read := members k v ms (level + 1) (l.line level) rest enough (l.isSpaces_line level)
  rw [Json.toList_quote, List.cons_append] at text read
  rw [text, scanValue_brace f (l.isSpaces_line _) (by decide) (by decide), read]
  rfl

theorem readsValues_succ {f : Nat} (items : ReadsItems l f) (members : ReadsMembers l f) :
    ReadsValues l (f + 1) := by
  intro v level rest enough ends
  cases v with
  | null =>
    rw [laidOut, List.cons_append, scanValue, skipSpace_cons (by decide)]
    rfl
  | bool b =>
    cases b with
    | true =>
      rw [laidOut, List.cons_append, scanValue, skipSpace_cons (by decide)]
      rfl
    | false =>
      rw [laidOut, List.cons_append, scanValue, skipSpace_cons (by decide)]
      rfl
  | number n =>
    rw [laidOut]
    exact scanValue_number n (Nat.succ_pos f) ends
  | string s =>
    rw [laidOut]
    exact scanValue_quote s (Nat.succ_pos f) rest
  | array vs =>
    cases vs with
    | nil =>
      rw [laidOut, List.cons_append, scanValue, skipSpace_cons (by decide)]
      rfl
    | cons v vs =>
      rw [Json.size] at enough
      exact scanValue_items items level rest (by omega)
  | object ms =>
    cases ms with
    | nil =>
      rw [laidOut, List.cons_append, scanValue, skipSpace_cons (by decide)]
      rfl
    | cons m ms =>
      obtain ⟨k, v⟩ := m
      rw [Json.size] at enough
      exact scanValue_members members level rest (by omega)

def itemsAfter (f : Nat) (item : JsonTree) : List Char → Option (List JsonTree × List Char)
  | ',' :: cs => (scanItems f cs).bind fun p => some (item :: p.1, p.2)
  | ']' :: cs => some ([item], cs)
  | _ => none

theorem scanItems_succ (f : Nat) (cs : List Char) :
    scanItems (f + 1) cs =
      (scanValue f cs).bind fun p => itemsAfter f p.1 (skipSpace p.2) := by
  rw [scanItems]
  rfl

theorem readsItems_succ {f : Nat} (values : ReadsValues l f) (items : ReadsItems l f) :
    ReadsItems l (f + 1) := by
  intro v vs level closing rest enough spaces
  rw [Json.sizeItems] at enough
  cases vs with
  | nil =>
    rw [laidOutItems, List.nil_append, scanItems_succ,
      values v level _ (by omega) (ends_append spaces rest (by decide)), Option.bind_some,
      skipSpace_append spaces, skipSpace_cons (by decide)]
    rfl
  | cons w ws =>
    have text : laidOutItems l level (w :: ws) ++ (closing ++ ']' :: rest) =
        ',' :: (l.line level ++ (laidOut l level w ++
          (laidOutItems l level ws ++ (closing ++ ']' :: rest)))) := by
      simp [laidOutItems]
    have later := items w ws level closing rest (by omega) spaces
    rw [text, scanItems_succ, values v level _ (by omega) (ends_cons _ (by decide)),
      Option.bind_some, skipSpace_cons (by decide), itemsAfter,
      scanItems_append (l.isSpaces_line level), later]
    rfl

def membersAfter (f : Nat) (member : Option String × JsonTree) :
    List Char → Option (List (Option String × JsonTree) × List Char)
  | ',' :: cs => (scanMembers f cs).bind fun p => some (member :: p.1, p.2)
  | '\x7d' :: cs => some ([member], cs)
  | _ => none

def valueAfter (f : Nat) (name : Option String) :
    List Char → Option (List (Option String × JsonTree) × List Char)
  | ':' :: cs => (scanValue f cs).bind fun p => membersAfter f (name, p.1) (skipSpace p.2)
  | _ => none

theorem scanMembers_succ (f : Nat) (cs : List Char) :
    scanMembers (f + 1) ('"' :: cs) =
      (scanString cs).bind fun p => valueAfter f p.1 (skipSpace p.2) := by
  rw [scanMembers, skipSpace_cons (by decide)]
  rfl

theorem readsMembers_succ {f : Nat} (values : ReadsValues l f) (members : ReadsMembers l f) :
    ReadsMembers l (f + 1) := by
  intro k v ms level closing rest enough spaces
  rw [Json.sizeMembers] at enough
  have read (cs : List Char) (ends : Ends cs) :
      scanValue f (l.gap ++ (laidOut l level v ++ cs)) = some (v.printed, cs) :=
    (scanValue_append l.isSpaces_gap f _).trans (values v level cs (by omega) ends)
  rw [Json.toList_quote, List.cons_append, List.append_assoc, List.singleton_append,
    scanMembers_succ, scanString_escaped, Option.bind_some, skipSpace_cons (by decide), valueAfter]
  cases ms with
  | nil =>
    rw [laidOutMembers, List.nil_append, read _ (ends_append spaces rest (by decide)),
      Option.bind_some, skipSpace_append spaces, skipSpace_cons (by decide)]
    rfl
  | cons m ms =>
    obtain ⟨k', w⟩ := m
    have text : laidOutMembers l level ((k', w) :: ms) ++ (closing ++ '\x7d' :: rest) =
        ',' :: (l.line level ++ ((quote k').toList ++ (':' :: (l.gap ++
          (laidOut l level w ++ (laidOutMembers l level ms ++
            (closing ++ '\x7d' :: rest))))))) := by
      simp [laidOutMembers]
    have later := members k' w ms level closing rest (by omega) spaces
    rw [text, read _ (ends_cons _ (by decide)), Option.bind_some, skipSpace_cons (by decide),
      membersAfter, scanMembers_append (l.isSpaces_line level), later]
    rfl

variable (l)

theorem reads (fuel : Nat) : ReadsValues l fuel ∧ ReadsItems l fuel ∧ ReadsMembers l fuel := by
  induction fuel with
  | zero =>
    refine ⟨?_, ?_, ?_⟩
    · intro v level rest enough
      cases v <;> simp [Json.size] at enough
    · intro v vs level closing rest enough
      simp [Json.sizeItems] at enough
    · intro k v ms level closing rest enough
      simp [Json.sizeMembers] at enough
  | succ f ih =>
    obtain ⟨values, items, members⟩ := ih
    exact ⟨readsValues_succ items members, readsItems_succ values items,
      readsMembers_succ values members⟩

/-! ### Whole texts -/

mutual

theorem size_le_laidOut (level : Nat) (v : Json) : v.size ≤ 2 * (laidOut l level v).length := by
  cases v with
  | null => simp [Json.size, laidOut]
  | bool b => cases b <;> simp [Json.size, laidOut]
  | number n =>
    obtain ⟨c, cs, text, -⟩ := Number.exists_head n
    simp only [Json.size, laidOut, text, List.length_cons]
    omega
  | string s =>
    simp only [Json.size, laidOut, Json.toList_quote, List.length_cons]
    omega
  | array vs =>
    cases vs with
    | nil => simp [Json.size, Json.sizeItems, laidOut]
    | cons v vs =>
      have head := size_le_laidOut (level + 1) v
      have tail := sizeItems_le_laidOutItems (level + 1) vs
      simp [Json.size, Json.sizeItems, laidOut]
      omega
  | object ms =>
    cases ms with
    | nil => simp [Json.size, Json.sizeMembers, laidOut]
    | cons m ms =>
      obtain ⟨k, v⟩ := m
      have head := size_le_laidOut (level + 1) v
      have tail := sizeMembers_le_laidOutMembers (level + 1) ms
      simp [Json.size, Json.sizeMembers, laidOut]
      omega
termination_by sizeOf v

theorem sizeItems_le_laidOutItems (level : Nat) (vs : List Json) :
    Json.sizeItems vs ≤ 2 * (laidOutItems l level vs).length := by
  cases vs with
  | nil => simp [Json.sizeItems]
  | cons v vs =>
    have head := size_le_laidOut level v
    have tail := sizeItems_le_laidOutItems level vs
    simp [Json.sizeItems, laidOutItems]
    omega
termination_by sizeOf vs

theorem sizeMembers_le_laidOutMembers (level : Nat) (ms : List (String × Json)) :
    Json.sizeMembers ms ≤ 2 * (laidOutMembers l level ms).length := by
  cases ms with
  | nil => simp [Json.sizeMembers]
  | cons m ms =>
    obtain ⟨k, v⟩ := m
    have head := size_le_laidOut level v
    have tail := sizeMembers_le_laidOutMembers level ms
    simp [Json.sizeMembers, laidOutMembers]
    omega
termination_by sizeOf ms

end

/-- In any layout the text of a value is read as its tree. -/
theorem parse_laidOut {text : String} {v : Json} (h : text.toList = laidOut l 0 v) :
    parse text = some v.printed := by
  have enough := size_le_laidOut l 0 v
  have read := (reads l (2 * text.toList.length + 1)).1 v 0 [] (by rw [h]; omega) ends_nil
  rw [List.append_nil, ← h] at read
  simp only [parse, read, Option.bind_eq_bind, Option.bind_some]
  rfl

theorem parse_pretty (v : Json) : parse v.pretty = some v.printed :=
  parse_laidOut .indented (Json.toList_prettyAt 0 v)

end JsonTree

end Tabular
