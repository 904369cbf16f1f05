import Tabular.Proofs.Guids
import Tabular.Proofs.Rows

/-!
Values as they are stored. What a column stores for a value, it stores unchanged when it is given
that. A column of GUIDs takes the texts that denote numbers and stores one text for each number, so
comparing what is stored tells whether two values denote the same one.
-/
namespace Tabular

namespace Json

def DenotesGuid (v : Json) (n : BitVec 128) : Prop := ∃ s, v = .string s ∧ Guid.Denotes s n

def IsCanonicalGuid (v : Json) : Prop := ∃ s, v = .string s ∧ Guid.IsCanonical s

theorem denotesGuid_string {s : String} {n : BitVec 128} :
    DenotesGuid (.string s) n ↔ Guid.Denotes s n := by
  constructor
  · rintro ⟨t, same, denotes⟩
    obtain rfl := Json.string.inj same
    exact denotes
  · exact fun denotes => ⟨s, rfl, denotes⟩

end Json

/-- Texts agree, by themselves or among the values of a key, if they are the same. -/
theorem agreeing_string_cons {s t : String} {vs ws : List Json} :
    agreeing (.string s :: vs) (.string t :: ws) = true ↔ s = t ∧ agreeing vs ws = true := by
  simp [agreeing, Json.unsignedZeros]

namespace StoredColumn

variable {c : StoredColumn} {v w v' w' : Json}

/-- A value that is stored is stored as it is when it is given again. -/
theorem coerce_stored (h : c.coerce v = .ok w) : c.coerce w = .ok w := by
  by_cases kind : c.type.kind = .guid
  · by_cases given : v = .null
    · subst given
      obtain rfl := Except.ok.inj h
      exact coerce_null
    · obtain ⟨s, g, -, canonical, rfl⟩ := (coerce_guid_eq_ok_iff kind given).mp h
      have text : Json.string g ≠ .null := nofun
      exact (coerce_guid_eq_ok_iff kind text).mpr
        ⟨g, g, rfl, Guid.canonical?_canonical? canonical, rfl⟩
  · obtain rfl := eq_of_coerce kind h
    exact h

section

variable (kind : c.type.kind = .guid) (given : v ≠ .null)
include kind given

theorem exists_coerce_guid_iff : (∃ w, c.coerce v = .ok w) ↔ ∃ n, v.DenotesGuid n := by
  constructor
  · rintro ⟨w, h⟩
    obtain ⟨s, g, rfl, canonical, -⟩ := (coerce_guid_eq_ok_iff kind given).mp h
    obtain ⟨n, denotes⟩ := Guid.exists_canonical?_iff.mp ⟨g, canonical⟩
    exact ⟨n, s, rfl, denotes⟩
  · rintro ⟨n, s, rfl, denotes⟩
    obtain ⟨g, canonical⟩ := Guid.exists_canonical?_iff.mpr ⟨n, denotes⟩
    exact ⟨.string g, (coerce_guid_eq_ok_iff kind given).mpr ⟨s, g, rfl, canonical, rfl⟩⟩

/-- The text that is stored is canonical and denotes what the given one denotes. -/
theorem coerce_guid_canonical (h : c.coerce v = .ok w) :
    w.IsCanonicalGuid ∧ ∀ n, w.DenotesGuid n ↔ v.DenotesGuid n := by
  obtain ⟨s, g, rfl, canonical, rfl⟩ := (coerce_guid_eq_ok_iff kind given).mp h
  obtain ⟨ds, writes, rfl⟩ := Guid.canonical?_eq_some_iff.mp canonical
  refine ⟨⟨_, rfl, writes.isCanonical_spelling⟩, fun n => ?_⟩
  rw [Json.denotesGuid_string, Json.denotesGuid_string, writes.denotes_spelling_iff]

theorem coerce_guid_eq_iff (given' : v' ≠ .null) (h : c.coerce v = .ok w)
    (h' : c.coerce v' = .ok w') : w = w' ↔ ∃ n, v.DenotesGuid n ∧ v'.DenotesGuid n := by
  obtain ⟨s, g, rfl, canonical, rfl⟩ := (coerce_guid_eq_ok_iff kind given).mp h
  obtain ⟨t, k, rfl, canonical', rfl⟩ := (coerce_guid_eq_ok_iff kind given').mp h'
  simp only [Json.string.injEq, Json.denotesGuid_string]
  exact Guid.canonical?_eq_iff canonical canonical'

end

/-- Stored values are canonical: any column stores again what it stored. A column of GUIDs takes
exactly the texts that denote a number of 128 bits, in whichever layout; it stores a text of
thirty-six characters for the number, and the same text for two values, which then agree where keys
are compared, exactly if they denote the same number. -/
theorem coerce_canonical (c : StoredColumn) :
    (∀ v w, c.coerce v = .ok w → c.coerce w = .ok w) ∧
    (c.type.kind = .guid →
      (∀ v, v ≠ .null → ((∃ w, c.coerce v = .ok w) ↔ ∃ n, v.DenotesGuid n)) ∧
      (∀ v w, v ≠ .null → c.coerce v = .ok w →
        w.IsCanonicalGuid ∧ ∀ n, w.DenotesGuid n ↔ v.DenotesGuid n) ∧
      ∀ v v' w w', v ≠ .null → v' ≠ .null → c.coerce v = .ok w → c.coerce v' = .ok w' →
        (w = w' ↔ ∃ n, v.DenotesGuid n ∧ v'.DenotesGuid n) ∧
        (agreeing [w] [w'] = true ↔ w = w')) := by
  refine ⟨fun _ _ => coerce_stored, fun kind => ⟨?_, ?_, ?_⟩⟩
  · exact fun _ given => exists_coerce_guid_iff kind given
  · exact fun _ _ given h => coerce_guid_canonical kind given h
  · intro v v' w w' given given' h h'
    refine ⟨coerce_guid_eq_iff kind given given' h h', ?_⟩
    obtain ⟨⟨s, rfl, -⟩, -⟩ := coerce_guid_canonical kind given h
    obtain ⟨⟨t, rfl, -⟩, -⟩ := coerce_guid_canonical kind given' h'
    rw [agreeing_string_cons, Json.string.injEq]
    exact and_iff_left (by decide)

/-- A GUID in capitals and braces, and the same one as a name. -/
theorem coerce_canonical_name :
    let id : StoredColumn := ⟨"masterid", .guid, 16, false⟩
    let braced := Json.string "\x7b6F9619FF-8B86-D011-B42D-00C04FC964FF\x7d"
    let named := Json.string "urn:uuid:6f9619ff-8b86-d011-b42d-00c04fc964ff"
    let stored := Json.string "6f9619ff-8b86-d011-b42d-00c04fc964ff"
    id.type.kind = .guid ∧ braced ≠ .null ∧ named ≠ .null ∧ id.coerce braced = .ok stored ∧
      id.coerce named = .ok stored ∧ id.coerce stored = .ok stored ∧ stored.IsCanonicalGuid ∧
      ∃ n, braced.DenotesGuid n ∧ named.DenotesGuid n := by
  intro id braced named stored
  have fromBraced : id.coerce braced = .ok stored := eq_ok_of_toOption (by decide +kernel)
  have fromNamed : id.coerce named = .ok stored := eq_ok_of_toOption (by decide +kernel)
  obtain ⟨again, guids⟩ := coerce_canonical id
  obtain ⟨-, canonical, decides⟩ := guids rfl
  have same := (decides braced named stored stored nofun nofun fromBraced fromNamed).1
  exact ⟨rfl, nofun, nofun, fromBraced, fromNamed, again _ _ fromBraced,
    (canonical braced stored nofun fromBraced).1, same.mp rfl⟩

end StoredColumn

end Tabular
