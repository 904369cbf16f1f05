import Tabular.Identifier

/-!
A lexer for statements of SQL Server: names in brackets, texts in single quotes, a closing mark
inside written twice, and every other character a token of its own. What is rendered from names,
texts and plain code lexes back to just these.
-/
namespace Tabular

namespace SqlText

inductive Token where
  /-- A character outside names and texts. -/
  | mark (c : Char)
  | name (cs : List Char)
  | text (cs : List Char)
  deriving DecidableEq, Repr

def opensComment (c : Char) (cs : List Char) : Bool :=
  (c == '-' && cs.head? == some '-') || (c == '/' && cs.head? == some '*')

mutual

/-- The tokens of a statement; none if a name or a text does not end, or a comment begins. -/
def lex : List Char → Option (List Token)
  | [] => some []
  | c :: cs =>
    if c = '[' then (lexInside ']' cs).map fun (content, ts) => .name content :: ts
    else if c = '\'' then (lexInside '\'' cs).map fun (content, ts) => .text content :: ts
    else if opensComment c cs then none
    else (lex cs).map (.mark c :: ·)

def lexInside (close : Char) : List Char → Option (List Char × List Token)
  | [] => none
  | c :: cs =>
    if c = close then
      match cs with
      | [] => some ([], [])
      | d :: rest =>
        if d = close then (lexInside close rest).map fun (content, ts) => (close :: content, ts)
        else (lex (d :: rest)).map ([], ·)
    else (lexInside close cs).map fun (content, ts) => (c :: content, ts)

end

def doubled (close : Char) (cs : List Char) : List Char :=
  cs.flatMap fun c => if c = close then [close, close] else [c]

theorem doubleBrackets_eq (cs : List Char) : Identifier.doubleBrackets cs = doubled ']' cs := by
  induction cs with
  | nil => rfl
  | cons c cs ih =>
    unfold Identifier.doubleBrackets doubled
    split <;> simp_all [doubled]

theorem doubleQuotes_eq (cs : List Char) : Identifier.doubleQuotes cs = doubled '\'' cs := by
  induction cs with
  | nil => rfl
  | cons c cs ih =>
    unfold Identifier.doubleQuotes doubled
    split <;> simp_all [doubled]

/-- What is written with its closing marks doubled ends at the first single one. -/
theorem lexInside_doubled (close : Char) (cs : List Char) {rest : List Char}
    (hrest : rest.head? ≠ some close) :
    lexInside close (doubled close cs ++ close :: rest) = (lex rest).map (cs, ·) := by
  induction cs with
  | nil =>
    cases rest with
    | nil => simp [doubled, lexInside, lex]
    | cons d rest =>
      have hd : d ≠ close := by simpa using hrest
      simp [doubled, lexInside, hd]
  | cons c cs ih =>
    unfold doubled at ih ⊢
    by_cases hc : c = close
    · subst hc
      simp only [List.flatMap_cons, if_true, List.cons_append, List.nil_append]
      rw [lexInside.eq_def]
      simp [ih, Option.map_map, Function.comp_def]
    · simp only [List.flatMap_cons, hc, if_false, List.cons_append, List.nil_append]
      rw [lexInside.eq_def]
      simp [hc, ih, Option.map_map, Function.comp_def]

/-! ### Pieces of statements -/

inductive Piece where
  | code (s : String)
  | name (s : String)
  /-- A literal of national characters. -/
  | text (s : String)
  deriving DecidableEq, Repr

namespace Piece

def render : Piece → List Char
  | code s => s.toList
  | name s => Identifier.bracket s.toList
  | text s => 'N' :: '\'' :: Identifier.doubleQuotes s.toList ++ ['\'']

def tokens : Piece → List Token
  | code s => s.toList.map .mark
  | name s => [.name s.toList]
  | text s => [.mark 'N', .text s.toList]

def isPlain (c : Char) : Bool := c ∉ ['[', ']', '\'', '-', '/']

def isSafe : Piece → Bool
  | code s => s.toList.all isPlain
  | name _ => true
  | text _ => true

@[simp] theorem isSafe_name (s : String) : (name s).isSafe = true := rfl

@[simp] theorem isSafe_text (s : String) : (text s).isSafe = true := rfl

/-- Safe pieces never begin with a closing mark. -/
theorem head?_render {ps : List Piece} (h : ps.all isSafe = true) :
    (ps.flatMap render).head? ≠ some ']' ∧ (ps.flatMap render).head? ≠ some '\'' := by
  induction ps with
  | nil => simp
  | cons p ps ih =>
    rw [List.all_cons, Bool.and_eq_true] at h
    obtain ⟨safe, later⟩ := h
    cases p with
    | name s => simp [render, Identifier.bracket]
    | text s => simp [render]
    | code s =>
      rw [isSafe] at safe
      cases hs : s.toList with
      | nil => simpa [render, hs] using ih later
      | cons c cs =>
        rw [hs, List.all_cons, Bool.and_eq_true] at safe
        have plain : isPlain c = true := safe.1
        simp only [render, hs, List.flatMap_cons, List.cons_append, List.head?_cons, ne_eq,
          Option.some.injEq]
        constructor <;> rintro rfl <;> simp [isPlain] at plain

theorem lex_code {cs rest : List Char} (h : cs.all isPlain = true) :
    lex (cs ++ rest) = (lex rest).map (cs.map .mark ++ ·) := by
  induction cs with
  | nil => simp
  | cons c cs ih =>
    rw [List.all_cons, Bool.and_eq_true] at h
    have plain : c ≠ '[' ∧ c ≠ ']' ∧ c ≠ '\'' ∧ c ≠ '-' ∧ c ≠ '/' := by
      simpa [isPlain] using h.1
    obtain ⟨hb, -, hq, hd, hs⟩ := plain
    rw [List.cons_append, lex]
    simp [hb, hq, hd, hs, opensComment, ih h.2, Option.map_map, Function.comp_def]

/-- Safe pieces lex back to their own tokens, one after the other. -/
theorem lex_render {ps : List Piece} (h : ps.all isSafe = true) :
    lex (ps.flatMap render) = some (ps.flatMap tokens) := by
  induction ps with
  | nil => simp [lex]
  | cons p ps ih =>
    rw [List.all_cons, Bool.and_eq_true] at h
    obtain ⟨safe, later⟩ := h
    obtain ⟨noBracket, noQuote⟩ := head?_render later
    rw [List.flatMap_cons, List.flatMap_cons]
    cases p with
    | code s =>
      rw [isSafe] at safe
      rw [render, lex_code safe, ih later]
      rfl
    | name s =>
      simp only [render, Identifier.bracket, List.cons_append, List.append_assoc,
        List.nil_append, doubleBrackets_eq]
      rw [lex, if_pos rfl, lexInside_doubled ']' _ noBracket, ih later]
      rfl
    | text s =>
      simp only [render, List.cons_append, List.append_assoc, List.nil_append, doubleQuotes_eq]
      rw [lex]
      simp only [Char.reduceEq, if_false, opensComment, Char.reduceBEq, Bool.false_and,
        Bool.or_self, Bool.false_eq_true]
      rw [lex, if_neg (by decide), if_pos rfl, lexInside_doubled '\'' _ noQuote, ih later]
      rfl

end Piece

end SqlText

end Tabular
