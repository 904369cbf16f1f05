import Tabular.Proofs.Lexing
import Tabular.Statement

/-!
The five kinds of statements as templates: pieces around names and texts. The code of a template
holds no mark that could open or close a name, a text or a comment.
-/
namespace Tabular

namespace SqlText

theorem map_intercalate {α β : Type} (f : α → β) (sep : List α) (xss : List (List α)) :
    (sep.intercalate xss).map f = (sep.map f).intercalate (xss.map (·.map f)) := by
  induction xss with
  | nil => rfl
  | cons xs xss ih => cases xss <;> simp_all [List.intercalate_cons_cons]

theorem flatMap_intercalate {α β : Type} (f : α → List β) (sep : List α) (xss : List (List α)) :
    (sep.intercalate xss).flatMap f = (sep.flatMap f).intercalate (xss.map (·.flatMap f)) := by
  induction xss with
  | nil => rfl
  | cons xs xss ih => cases xss <;> simp_all [List.intercalate_cons_cons]

theorem filterMap_intercalate {α β : Type} (f : α → Option β) (sep : List α)
    (xss : List (List α)) :
    (sep.intercalate xss).filterMap f =
      (sep.filterMap f).intercalate (xss.map (·.filterMap f)) := by
  induction xss with
  | nil => rfl
  | cons xs xss ih => cases xss <;> simp_all [List.intercalate_cons_cons]

theorem nil_intercalate {α : Type} (xss : List (List α)) : [].intercalate xss = xss.flatten := by
  induction xss with
  | nil => rfl
  | cons xs xss ih => cases xss <;> simp_all [List.intercalate_cons_cons]

theorem mem_intercalate {α : Type} {x : α} {sep : List α} {xss : List (List α)}
    (h : x ∈ sep.intercalate xss) : x ∈ sep ∨ ∃ xs ∈ xss, x ∈ xs := by
  induction xss with
  | nil => simp at h
  | cons xs xss ih =>
    cases xss with
    | nil => exact .inr ⟨xs, by simp, by simpa using h⟩
    | cons ys yss =>
      simp only [List.intercalate_cons_cons, List.mem_append] at h
      rcases h with (h | h) | h
      · exact .inr ⟨xs, by simp, h⟩
      · exact .inl h
      · rcases ih h with h | ⟨zs, hzs, h⟩
        · exact .inl h
        · exact .inr ⟨zs, by simp [hzs], h⟩

namespace Token

def blank : Token → Token
  | mark c => mark c
  | name _ => name []
  | text _ => text []

def name? : Token → Option String
  | name cs => some (String.ofList cs)
  | _ => none

def text? : Token → Option String
  | text cs => some (String.ofList cs)
  | _ => none

end Token

def names (ts : List Token) : List String := ts.filterMap Token.name?

def texts (ts : List Token) : List String := ts.filterMap Token.text?

namespace Piece

def blank : Piece → Piece
  | code s => code s
  | name _ => name ""
  | text _ => text ""

def name? : Piece → Option String
  | name s => some s
  | _ => none

def text? : Piece → Option String
  | text s => some s
  | _ => none

theorem map_blank_tokens (p : Piece) : p.tokens.map Token.blank = p.blank.tokens := by
  cases p with
  | code s => simp [tokens, blank, Token.blank, Function.comp_def]
  | name s => simp [tokens, blank, Token.blank]
  | text s => simp [tokens, blank, Token.blank]

theorem map_blank_flatMap_tokens (ps : List Piece) :
    (ps.flatMap tokens).map Token.blank = (ps.map blank).flatMap tokens := by
  simp only [List.map_flatMap, List.flatMap_map, map_blank_tokens]

theorem names_tokens (p : Piece) : names p.tokens = p.name?.toList := by
  cases p with
  | code s => simp [names, tokens, name?, Token.name?]
  | name s => simp [names, tokens, name?, Token.name?]
  | text s => simp [names, tokens, name?, Token.name?]

theorem texts_tokens (p : Piece) : texts p.tokens = p.text?.toList := by
  cases p with
  | code s => simp [texts, tokens, text?, Token.text?]
  | name s => simp [texts, tokens, text?, Token.text?]
  | text s => simp [texts, tokens, text?, Token.text?, List.filterMap_cons]

theorem names_flatMap_tokens (ps : List Piece) :
    names (ps.flatMap tokens) = ps.filterMap name? := by
  induction ps with
  | nil => rfl
  | cons p ps ih =>
    have head := names_tokens p
    unfold names at ih head ⊢
    rw [List.flatMap_cons, List.filterMap_append, ih, head, List.filterMap_cons]
    cases p.name? <;> rfl

theorem texts_flatMap_tokens (ps : List Piece) :
    texts (ps.flatMap tokens) = ps.filterMap text? := by
  induction ps with
  | nil => rfl
  | cons p ps ih =>
    have head := texts_tokens p
    unfold texts at ih head ⊢
    rw [List.flatMap_cons, List.filterMap_append, ih, head, List.filterMap_cons]
    cases p.text? <;> rfl

end Piece

/-! ### Templates -/

open Piece (code name text)

def joined (sep : String) (ns : List String) : List Piece :=
  [code sep].intercalate (ns.map ([name ·]))

def qualifiedText (table : List String) : String :=
  String.ofList ((joined "." table).flatMap Piece.render)

def definitionList (columns : List (String × SqlType)) : List Piece :=
  [code ",\n    "].intercalate (columns.map fun (n, type) => [name n, code (" " ++ type.toText)])

def createDatabasePieces (overwrite : Bool) (database : String) : List Piece :=
  if overwrite then
    [code "IF DB_ID(", text database, code ") IS NOT NULL\nBEGIN\n    ALTER DATABASE ",
      name database, code " SET SINGLE_USER WITH ROLLBACK IMMEDIATE;\n    DROP DATABASE ",
      name database, code ";\nEND;\nCREATE DATABASE ", name database, code ";"]
  else
    [code "IF DB_ID(", text database, code ") IS NULL\n    CREATE DATABASE ", name database,
      code ";"]

def useDatabasePieces (database : String) : List Piece := [code "USE ", name database, code ";"]

/-- Gathers what drops the foreign keys on a table, up to the table's name. -/
def dropKeysPieces : List Piece :=
  [code "DECLARE @drop_fk nvarchar(max) = ", text "", code ";\nSELECT @drop_fk += ",
    text "ALTER TABLE ", code " + QUOTENAME(OBJECT_SCHEMA_NAME(fk.parent_object_id)) + ",
    text ".", code " + QUOTENAME(OBJECT_NAME(fk.parent_object_id)) + ",
    text " DROP CONSTRAINT ", code " + QUOTENAME(fk.name) + ", text ";",
    code "\nFROM sys.foreign_keys fk WHERE fk.referenced_object_id = OBJECT_ID("]

def createTablePieces (table : List String) (columns : List (String × SqlType)) : List Piece :=
  dropKeysPieces ++
  [text (qualifiedText table), code ", ", text "U",
    code ");\nEXEC sp_executesql @drop_fk;\nIF OBJECT_ID(", text (qualifiedText table), code ", ",
    text "U", code ") IS NOT NULL DROP TABLE "] ++ joined "." table ++
  [code ";\nCREATE TABLE "] ++ joined "." table ++ [code " (\n    "] ++ definitionList columns ++
  [code "\n);"]

def primaryKeyPieces (table : List String) (constraint : String) (columns : List String) :
    List Piece :=
  [code "ALTER TABLE "] ++ joined "." table ++
  [code " WITH NOCHECK ADD CONSTRAINT ", name constraint, code " PRIMARY KEY CLUSTERED ("] ++
  joined ", " columns ++ [code ");"]

def foreignKeyPieces (child : List String) (constraint : String) (childColumns : List String)
    (parent : List String) (parentColumns : List String) : List Piece :=
  [code "ALTER TABLE "] ++ joined "." child ++
  [code " ADD CONSTRAINT ", name constraint, code " FOREIGN KEY ("] ++
  joined ", " childColumns ++ [code ") REFERENCES "] ++ joined "." parent ++ [code " ("] ++
  joined ", " parentColumns ++ [code ") ON DELETE CASCADE ON UPDATE NO ACTION;"]

theorem map_blank_joined (sep : String) (ns : List String) :
    (joined sep ns).map Piece.blank = joined sep (List.replicate ns.length "") := by
  simp only [joined, map_intercalate, List.map_cons, List.map_nil, List.map_map,
    List.map_replicate, Piece.blank]
  congr 1
  change ns.map (fun _ => [name ""]) = _
  exact List.map_const'

theorem filterMap_name?_joined (sep : String) (ns : List String) :
    (joined sep ns).filterMap Piece.name? = ns := by
  rw [joined, filterMap_intercalate, List.map_map]
  change List.intercalate [] (ns.map ([·])) = ns
  rw [nil_intercalate, ← List.flatMap_def, ← List.map_eq_flatMap, List.map_id']

theorem filterMap_text?_joined (sep : String) (ns : List String) :
    (joined sep ns).filterMap Piece.text? = [] := by
  rw [joined, filterMap_intercalate, List.map_map]
  change List.intercalate [] (ns.map fun _ => []) = []
  simp [nil_intercalate]

theorem all_intercalate {p : Piece → Bool} {sep : List Piece} {pss : List (List Piece)}
    (hsep : sep.all p = true) (h : ∀ ps ∈ pss, ps.all p = true) :
    (sep.intercalate pss).all p = true := by
  rw [List.all_eq_true]
  intro q hq
  rcases mem_intercalate hq with hq | ⟨ps, hps, hq⟩
  · exact List.all_eq_true.mp hsep q hq
  · exact List.all_eq_true.mp (h ps hps) q hq

theorem all_joined {p : Piece → Bool} {sep : String} (hname : ∀ n, p (name n) = true)
    (hsep : p (code sep) = true) (ns : List String) : (joined sep ns).all p = true := by
  apply all_intercalate
  · simpa using hsep
  · intro ps hps
    obtain ⟨n, -, rfl⟩ := List.mem_map.mp hps
    simpa using hname n

theorem all_definitionList {p : Piece → Bool} (hname : ∀ n, p (name n) = true)
    (hsep : p (code ",\n    ") = true)
    (htype : ∀ type : SqlType, p (code (" " ++ type.toText)) = true)
    (columns : List (String × SqlType)) : (definitionList columns).all p = true := by
  apply all_intercalate
  · simpa using hsep
  · intro ps hps
    obtain ⟨⟨n, type⟩, -, rfl⟩ := List.mem_map.mp hps
    simp [hname n, htype type]

/-! ### Types -/

def isTypeChar (c : Char) : Bool := c.isAlphanum || c ∈ [' ', '(', ')']

theorem all_isTypeChar_repr (n : Nat) : (toString n).toList.all isTypeChar = true := by
  rw [List.all_eq_true]
  intro c hc
  rw [Nat.toString_eq_repr, Nat.toList_repr] at hc
  have digit : c.isDigit = true := Nat.isDigit_of_mem_toDigits (by decide) (by decide) hc
  simp [isTypeChar, Char.isAlphanum, digit]

theorem all_isTypeChar (type : SqlType) : (" " ++ type.toText).toList.all isTypeChar = true := by
  have base : type.base.toText.toList.all isTypeChar = true := by
    cases type.base with
    | varchar n =>
      simp only [SqlBase.toText, String.toList_append, List.all_append, all_isTypeChar_repr]
      decide
    | varbinary n =>
      simp only [SqlBase.toText, String.toList_append, List.all_append, all_isTypeChar_repr]
      decide
    | _ => decide
  have clause : (nullClause type.nullable).toList.all isTypeChar = true := by
    cases type.nullable <;> decide
  simp only [SqlType.toText, String.toList_append, List.all_append, base, clause]
  decide

theorem isSafe_type (type : SqlType) : (code (" " ++ type.toText)).isSafe = true := by
  rw [Piece.isSafe, List.all_eq_true]
  intro c hc
  have written := List.all_eq_true.mp (all_isTypeChar type) c hc
  simp only [Piece.isPlain, List.mem_cons, List.not_mem_nil, decide_eq_true_eq]
  rintro (rfl | rfl | rfl | rfl | rfl | h)
  · exact absurd written (by decide)
  · exact absurd written (by decide)
  · exact absurd written (by decide)
  · exact absurd written (by decide)
  · exact absurd written (by decide)
  · exact h

theorem map_blank_definitionList (columns : List (String × SqlType)) :
    (definitionList columns).map Piece.blank = definitionList (columns.map ("", ·.2)) := by
  simp only [definitionList, map_intercalate, List.map_map]
  rfl

theorem filterMap_name?_definitionList (columns : List (String × SqlType)) :
    (definitionList columns).filterMap Piece.name? = columns.map (·.1) := by
  rw [definitionList, filterMap_intercalate, List.map_map]
  change List.intercalate [] (columns.map fun c => [c.1]) = _
  rw [nil_intercalate, ← List.flatMap_def, ← List.map_eq_flatMap]

theorem filterMap_text?_definitionList (columns : List (String × SqlType)) :
    (definitionList columns).filterMap Piece.text? = [] := by
  rw [definitionList, filterMap_intercalate, List.map_map]
  change List.intercalate [] (columns.map fun _ => []) = []
  simp [nil_intercalate]

end SqlText

end Tabular
