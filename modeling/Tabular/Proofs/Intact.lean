import Tabular.Proofs.Deletion
import Tabular.Proofs.Reopening

/-!
Catalogs that are sound, with primary keys that are distinct as long as numbers are kept apart. Each
operation takes such a catalog to such a catalog.
-/
namespace Tabular

namespace Catalog

/-- Sound, with distinct primary keys if no two numbers are read as one. -/
structure Intact (P : Number → Prop) (c : Catalog) : Prop where
  sound : c.Sound P
  distinct : Number.KeptApart P → c.KeysDistinct

namespace Intact

variable {P : Number → Prop} {c c' : Catalog} {table : String}

theorem empty (name : String) (createdAt : Timestamp) : Intact P { name, createdAt } := by
  refine ⟨⟨.nil, ?_, ?_, ?_⟩, fun _ => ?_⟩
  · intro t ht
    cases ht
  · intro t ht
    cases ht
  · intro t ht
    cases ht
  · intro t ht
    cases ht

theorem appendTable {columns : List StoredColumn} (intact : c.Intact P)
    (h : c.appendTable table columns = .ok c') : c'.Intact P :=
  ⟨intact.sound.appendTable h, fun apart => (intact.distinct apart).appendTable h⟩

theorem dropTable (intact : c.Intact P) (h : c.dropTable table = .ok c') : c'.Intact P :=
  ⟨intact.sound.dropTable h, fun apart => (intact.distinct apart).dropTable h⟩

theorem withKey {i : Nat} {t : StoredTable} {k : StoredKey} (intact : c.Intact P)
    (fits : c.KeyFits table k i t) (takes : c.TakesKey t k) :
    (c.replace i (t.withKey k)).Intact P :=
  ⟨intact.sound.withKey fits takes, fun apart => (intact.distinct apart).withKey takes⟩

theorem insert {values : List (String × Json)} (intact : c.Intact P)
    (hvalues : ∀ v ∈ values, v.2.Within P) (h : c.insert table values = .ok c') : c'.Intact P := by
  obtain ⟨i, t, stored, fits, rfl⟩ := insert_eq_ok h
  exact ⟨intact.sound.insert fits hvalues, fun apart => (intact.distinct apart).insert fits⟩

theorem deleteRows {criteria : Criteria} {removed : Nat} (intact : c.Intact P)
    (h : c.deleteRows table criteria = .ok (removed, c')) : c'.Intact P :=
  ⟨intact.sound.deleteRows h, fun apart => (intact.distinct apart).deleteRows h⟩

theorem durable (closed : Number.Closed P) : Durable (Intact P) := by
  intro c c' intact h
  exact ⟨intact.sound.reread? closed h,
    fun apart => KeysDistinct.reread? apart intact.sound (intact.distinct apart) h⟩

end Intact

end Catalog

end Tabular
