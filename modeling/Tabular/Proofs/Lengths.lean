import Mathlib
import Tabular.Catalog.Value

/-!
Greatest lengths on the two engines. A declared length goes into the type of a column where the
engine has a bounded type of that length; everywhere else the type is unbounded, so what fits the
declaration fits the type. A native column stores a text that fits as it is, and refuses any other.
-/
namespace Tabular

/-- Has a declared length room for a value, on an engine that bounds lengths up to a limit? A length
below one or above the limit bounds nothing. -/
def HasRoom (limit : Int) (n : Int32) (length : Nat) : Prop :=
  n.toInt < 1 ∨ limit < n.toInt ∨ (length : Int) ≤ n.toInt

theorem hasRoom_iff {limit : Int} {n : Int32} {length : Nat} (low : 1 ≤ n.toInt)
    (high : n.toInt ≤ limit) : HasRoom limit n length ↔ length ≤ n.toInt.toNat := by
  unfold HasRoom
  omega

/-! ### Tokens -/

namespace SqlBase

theorem sized_inj {word : String} {k m : Nat} : s!"{word}({k})" = s!"{word}({m})" ↔ k = m := by
  change word ++ "(" ++ k.repr ++ ")" = word ++ "(" ++ m.repr ++ ")" ↔ k = m
  rw [String.append_left_inj, String.append_right_inj, Nat.repr_inj]

theorem max_ne_sized (word : String) (k : Nat) : s!"{word}(max)" ≠ s!"{word}({k})" := by
  intro same
  change word ++ "(max)" = word ++ "(" ++ k.repr ++ ")" at same
  rw [show "(max)" = "(" ++ "max" ++ ")" from rfl, ← String.append_assoc, ← String.append_assoc,
    String.append_left_inj, String.append_right_inj] at same
  have digit : 'm' ∈ Nat.toDigits 10 k := by
    rw [← Nat.toList_repr, ← same]
    decide
  exact absurd (Nat.isDigit_of_mem_toDigits (by decide) (by decide) digit) (by decide)

theorem text_ne_sized (k : Nat) : "text" ≠ s!"varchar({k})" := by
  intro same
  change "text" = "varchar" ++ "(" ++ k.repr ++ ")" at same
  have heads := congrArg (·.toList.head?) same
  simp at heads

def Takes (length : Nat) : SqlBase → Prop
  | varchar k | varbinary k => length ≤ k
  | text | varcharMax | varbinaryMax => True
  | _ => False

end SqlBase

namespace SqlType

variable {t : SqlType} {word : String} {unbounded : List SqlBase} {n : Int32}

/-- A type for values of a declared length. The token has the length behind a word if SQL Server
bounds values of that length, the type is one of the unbounded ones if not, and it takes whatever
the declaration has room for. -/
structure Suits (t : SqlType) (word : String) (unbounded : List SqlBase) (n : Int32) : Prop where
  token : ∀ k : Nat, t.toText = s!"{word}({k}) {nullClause t.nullable}" ↔
    (k : Int) = n.toInt ∧ 1 ≤ k ∧ k ≤ 8000
  free : n.toInt < 1 ∨ 8000 < n.toInt → t.base ∈ unbounded
  room : ∀ length, t.base.Takes length ↔ HasRoom 8000 n length

theorem toText_eq_sized_iff {k : Nat} :
    t.toText = s!"{word}({k}) {nullClause t.nullable}" ↔ t.base.toText = s!"{word}({k})" := by
  have divided : s!"{word}({k}) {nullClause t.nullable}" =
      s!"{word}({k})" ++ " " ++ nullClause t.nullable := by
    change word ++ "(" ++ k.repr ++ (")" ++ " ") ++ nullClause t.nullable = _
    rw [← String.append_assoc]
    rfl
  rw [divided, toText, String.append_left_inj, String.append_left_inj]

/-- A bounded type suits the length that it has. -/
theorem suits_of_bounded (text : t.base.toText = s!"{word}({n.toInt.toNat})")
    (takes : ∀ length, t.base.Takes length ↔ length ≤ n.toInt.toNat) (low : 1 ≤ n.toInt)
    (high : n.toInt ≤ 8000) : t.Suits word unbounded n where
  token k := by
    rw [toText_eq_sized_iff, text, SqlBase.sized_inj]
    omega
  free beyond := by omega
  room length := by rw [takes, hasRoom_iff low high]

/-- An unbounded type suits the lengths that are not bounded. -/
theorem suits_of_unbounded (mem : t.base ∈ unbounded)
    (text : ∀ k : Nat, t.base.toText ≠ s!"{word}({k})") (takes : ∀ length, t.base.Takes length)
    (beyond : n.toInt < 1 ∨ 8000 < n.toInt) : t.Suits word unbounded n where
  token k := by
    rw [toText_eq_sized_iff]
    exact ⟨fun same => absurd same (text k), fun _ => by omega⟩
  free _ := mem
  room length := iff_of_true (takes length) (beyond.imp_right .inl)

theorem of?_string_suits (n : Int32) (nullable : Bool) :
    ∃ base, of? .string n nullable = some ⟨base, nullable⟩ ∧
      Suits ⟨base, nullable⟩ "varchar" [.text, .varcharMax] n := by
  unfold of? SqlBase.of? sqlLengthLimit
  by_cases low : n.toInt < 1
  · refine ⟨.text, by simp [low], ?_⟩
    exact suits_of_unbounded (by simp) SqlBase.text_ne_sized (fun _ => trivial) (.inl low)
  · by_cases high : 8000 < n.toInt
    · refine ⟨.varcharMax, by simp [low, high], ?_⟩
      exact suits_of_unbounded (by simp) (SqlBase.max_ne_sized "varchar") (fun _ => trivial)
        (.inr high)
    · refine ⟨.varchar n.toInt.toNat, by simp [low, high], ?_⟩
      exact suits_of_bounded rfl (fun _ => .rfl) (by omega) (by omega)

theorem of?_binary_suits (n : Int32) (nullable : Bool) :
    ∃ base, of? .binary n nullable = some ⟨base, nullable⟩ ∧
      Suits ⟨base, nullable⟩ "varbinary" [.varbinaryMax] n := by
  unfold of? SqlBase.of? sqlLengthLimit
  by_cases bounded : 1 ≤ n.toInt ∧ n.toInt ≤ 8000
  · refine ⟨.varbinary n.toInt.toNat, by simp [bounded], ?_⟩
    exact suits_of_bounded rfl (fun _ => .rfl) bounded.1 bounded.2
  · refine ⟨.varbinaryMax, by simp [bounded], ?_⟩
    exact suits_of_unbounded (by simp) (SqlBase.max_ne_sized "varbinary") (fun _ => trivial)
      (by omega)

end SqlType

/-! ### Catalogs -/

/-- A text of at most as many characters as the column is sized for is stored as it is, and a longer
one is refused; a size of zero is no bound. -/
theorem StoredColumn.coerce_text {c : StoredColumn}
    (kind : c.type.kind = .wChar ∨ c.type.kind = .longVarWChar) (s : String) :
    c.coerce (.string s) =
      if c.type.size = 0 ∨ s.length ≤ c.type.size.toNat then .ok (.string s)
      else .error (.tooLong c.name) := by
  have bounded : (c.type.size = 0 ∨ s.length ≤ c.type.size.toNat) ↔
      ¬(0 < c.type.size ∧ c.type.size.toNat < s.length) := by
    rw [UInt32.lt_iff_toNat_lt, ← UInt32.toNat_inj, UInt32.toNat_zero]
    omega
  unfold coerce
  -- the two kinds of texts share a branch, which is opened once for each
  rcases kind with kind | kind
  all_goals
    simp only [kind, text, bounded, Bool.and_eq_true, decide_eq_true_eq, ite_not]
    change (if 0 < c.type.size ∧ c.type.size.toNat < s.length then _ else _) = _
    by_cases long : 0 < c.type.size ∧ c.type.size.toNat < s.length
    · rw [if_pos long, if_pos long]
      rfl
    · rw [if_neg long, if_neg long]
      rfl

/-- The native type of texts is sized for the lengths that a catalog bounds. -/
theorem NativeType.of_string (n : Int32) (nullable : Bool) :
    ∃ kind size, of .string n nullable = ⟨kind, size, nullable⟩ ∧
      (kind = .wChar ∨ kind = .longVarWChar) ∧
      ∀ length : Nat, size = 0 ∨ length ≤ size.toNat ↔ HasRoom 255 n length := by
  unfold of NativeKind.of nativeLengthLimit
  by_cases bounded : 1 ≤ n.toInt ∧ n.toInt ≤ 255
  · have size : (UInt32.ofNat n.toInt.toNat).toNat = n.toInt.toNat :=
      UInt32.toNat_ofNat_of_lt' (by unfold UInt32.size; omega)
    have positive : UInt32.ofNat n.toInt.toNat ≠ 0 := by
      intro zero
      rw [← UInt32.toNat_inj, size, UInt32.toNat_zero] at zero
      omega
    refine ⟨.wChar, UInt32.ofNat n.toInt.toNat, by simp [bounded], .inl rfl, fun length => ?_⟩
    rw [size, hasRoom_iff bounded.1 bounded.2]
    exact or_iff_right positive
  · refine ⟨.longVarWChar, 0, by simp [bounded], .inr rfl, fun length => ?_⟩
    unfold HasRoom
    exact iff_of_true (.inl rfl) (by omega)

/-- Lengths on the two engines. SQL Server's type of a text or of bytes has the declared length in
its token from 1 to 8000 and is unbounded otherwise, and it takes every value that the declaration
has room for. A catalog's type of a text has room for the declared length up to 255, and for all
texts otherwise: a text within it is stored unchanged, a longer one refused. -/
theorem Engine.mapType_keeps_length (n : Int32) (nullable : Bool) :
    (∃ base, sql.mapType .string n nullable = .ok ⟨.sql ⟨base, nullable⟩, none⟩ ∧
      SqlType.Suits ⟨base, nullable⟩ "varchar" [.text, .varcharMax] n) ∧
    (∃ base, sql.mapType .binary n nullable = .ok ⟨.sql ⟨base, nullable⟩, none⟩ ∧
      SqlType.Suits ⟨base, nullable⟩ "varbinary" [.varbinaryMax] n) ∧
    ∃ kind size, jet.mapType .string n nullable = .ok ⟨.native ⟨kind, size, nullable⟩, none⟩ ∧
      ∀ name s : String, StoredColumn.coerce ⟨name, kind, size, nullable⟩ (.string s) =
        if n.toInt < 1 ∨ 255 < n.toInt ∨ (s.length : Int) ≤ n.toInt then .ok (.string s)
        else .error (.tooLong name) := by
  refine ⟨?_, ?_, ?_⟩
  · obtain ⟨base, found, suits⟩ := SqlType.of?_string_suits n nullable
    exact ⟨base, by rw [mapType, found]; rfl, suits⟩
  · obtain ⟨base, found, suits⟩ := SqlType.of?_binary_suits n nullable
    exact ⟨base, by rw [mapType, found]; rfl, suits⟩
  · obtain ⟨kind, size, chosen, texts, room⟩ := NativeType.of_string n nullable
    refine ⟨kind, size, by rw [mapType, chosen], fun name s => ?_⟩
    rw [StoredColumn.coerce_text texts]
    simp only [room, HasRoom]

/-- The last bounded type, and the type for a length beyond it. -/
example : [8000, 8001].map (fun n => (SqlType.of? .string n true).map SqlType.toText) =
    [some "varchar(8000) NULL", some "varchar(max) NULL"] := by decide +kernel

end Tabular
