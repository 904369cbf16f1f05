import Tabular.Proofs.Handles
import Tabular.Proofs.Intact

/-!
What holds of every document in a store, whatever becomes of a task. A task upholds a property of
catalogs if all documents have it afterwards when they had it before, also if the task fails midway.
-/
namespace Tabular

def Catalog.ReadsAs (G : Catalog → Prop) (text : String) : Prop :=
  ∀ version c, Catalog.parse? text = some (version, c) → G c

def Store.Holding (G : Catalog → Prop) (s : Store) : Prop :=
  ∀ p text, s.entry? p = some (.file (.text text)) → Catalog.ReadsAs G text

theorem Catalog.readsAs_empty (G : Catalog → Prop) : Catalog.ReadsAs G "" := by
  intro version c h
  cases h

theorem Catalog.Durable.readsAs {G : Catalog → Prop} (durable : Catalog.Durable G) {c : Catalog}
    (hc : G c) : Catalog.ReadsAs G c.toText := by
  intro version c' h
  rw [Catalog.parse?_toText] at h
  obtain ⟨d, hd, he⟩ := Option.map_eq_some_iff.mp h
  obtain ⟨-, rfl⟩ := Prod.mk.inj he
  exact durable c d hc hd

namespace Store

variable {G : Catalog → Prop} {s t : Store}

theorem Holding.put (held : s.Holding G) {p : Place} (hp : p ≠ []) {content : Content}
    (new : ∀ text, content = .text text → Catalog.ReadsAs G text) :
    (s.put p (.file content)).Holding G := by
  intro q text hq
  rw [entry?_put hp] at hq
  split at hq
  · exact new text (Entry.file.inj (Option.some.inj hq))
  · exact held q text hq

theorem Holding.erase (held : s.Holding G) {p : Place} (hp : p ≠ []) : (s.erase p).Holding G := by
  intro q text hq
  rw [entry?_erase hp] at hq
  split at hq
  · cases hq
  · exact held q text hq

theorem Holding.outcome (held : s.Holding G) {r : Except FileError Store}
    (hr : ∀ t, r = .ok t → t.Holding G) : (s.outcome r).2.Holding G := by
  cases r with
  | ok t => exact hr t rfl
  | error e => exact held

end Store

/-- A task that upholds a property of documents and ends in a result with a property. -/
def Upholds {α : Type} (G : Catalog → Prop) (d : FileTask α) (J : α → Prop) : Prop :=
  ∀ s : Store, s.Holding G → (s.run d).2.Holding G ∧ J (s.run d).1

namespace Upholds

variable {G : Catalog → Prop} {α β : Type} {d : FileTask α} {J J' : α → Prop} {K : β → Prop}

theorem pure {a : α} (h : J a) : Upholds G (Pure.pure a) J := fun _ held => ⟨held, h⟩

theorem bind {k : α → FileTask β} (hd : Upholds G d J) (hk : ∀ a, J a → Upholds G (k a) K) :
    Upholds G (d >>= k) K := by
  intro s held
  obtain ⟨between, ha⟩ := hd s held
  rw [Store.run_bind]
  exact hk _ ha _ between

theorem imp (hd : Upholds G d J) (h : ∀ a, J a → J' a) : Upholds G d J' :=
  fun s held => ⟨(hd s held).1, h _ (hd s held).2⟩

/-! ### Queries -/

theorem isFile (path : String) : Upholds G (FileTask.isFile path) fun _ => True :=
  fun _ held => ⟨held, trivial⟩

theorem now : Upholds G FileTask.now fun _ => True := fun _ held => ⟨held, trivial⟩

theorem read (path : String) :
    Upholds G (FileTask.read path) fun r => ∀ text, r = .ok text → Catalog.ReadsAs G text := by
  intro s held
  refine ⟨held, fun text h => ?_⟩
  obtain ⟨p, -, he⟩ := Store.read_eq_ok_iff.mp h
  exact held p text he

theorem create (path : String) : Upholds G (FileTask.create path) fun _ => True := by
  intro s held
  refine ⟨held.outcome fun t h => ?_, trivial⟩
  obtain ⟨p, hp, -, rfl⟩ := Store.create_eq_ok_iff.mp h
  refine held.put (Store.place_ne_nil hp) fun text h => ?_
  rw [← Content.text.inj h]
  exact Catalog.readsAs_empty G

theorem write (path : String) {text : String} (new : Catalog.ReadsAs G text) :
    Upholds G (FileTask.write path text) fun _ => True := by
  intro s held
  refine ⟨held.outcome fun t h => ?_, trivial⟩
  obtain ⟨p, hp, -, rfl⟩ := Store.write_eq_ok_iff.mp h
  refine held.put (Store.place_ne_nil hp) fun other h => ?_
  rwa [← Content.text.inj h]

theorem rename (path goal : String) : Upholds G (FileTask.rename path goal) fun _ => True := by
  intro s held
  refine ⟨held.outcome fun t h => ?_, trivial⟩
  obtain ⟨p, content, q, hp, he, hq, -, rfl⟩ := Store.rename_eq_ok_iff.mp h
  refine (held.erase (Store.place_ne_nil hp)).put (Store.place_ne_nil hq) fun text h => ?_
  exact held p text (h ▸ he)

theorem remove (path : String) : Upholds G (FileTask.remove path) fun _ => True := by
  intro s held
  refine ⟨held.outcome fun t h => ?_, trivial⟩
  obtain ⟨p, content, hp, -, rfl⟩ := Store.remove_eq_ok_iff.mp h
  exact held.erase (Store.place_ne_nil hp)

end Upholds

def Sure {ε α : Type} (J : α → Prop) (r : Except ε α) : Prop := ∀ a, r = .ok a → J a

/-! ### Tasks that stop at a fault -/

namespace Upholds

variable {G : Catalog → Prop} {α β : Type} {J : α → Prop} {K : β → Prop}

theorem andThen {m : ExceptT Fault FileTask α} {k : α → ExceptT Fault FileTask β}
    (hm : Upholds G m.run (Sure J)) (hk : ∀ a, J a → Upholds G (k a).run (Sure K)) :
    Upholds G (m >>= k).run (Sure K) := by
  change Upholds G (m.run >>= ExceptT.bindCont k) _
  refine hm.bind fun r hr => ?_
  cases r with
  | ok a => exact hk a (hr a rfl)
  | error f => exact .pure fun b hb => by cases hb

theorem lift {d : FileTask α} (hd : Upholds G d J) :
    Upholds G (ExceptT.lift d : ExceptT Fault FileTask α).run (Sure J) := by
  change Upholds G (d >>= fun a => (Pure.pure (Except.ok a) : FileTask (Except Fault α))) _
  exact hd.bind fun a ha => .pure fun b hb => Except.ok.inj hb ▸ ha

theorem liftExcept (r : Except Fault α) :
    Upholds G (liftM r : ExceptT Fault FileTask α).run (Sure fun _ => True) := by
  cases r <;> exact .pure fun _ _ => trivial

end Upholds

namespace CatalogHandle

variable {G : Catalog → Prop}

theorem upholds_acquireLock (path : String) : Upholds G (acquireLock path) fun _ => True := by
  refine (Upholds.create (lockPath path)).bind fun r _ => ?_
  split <;> exact .pure trivial

theorem upholds_releaseLock (path : String) : Upholds G (releaseLock path) fun _ => True := by
  refine (Upholds.remove (lockPath path)).bind fun r _ => ?_
  split <;> exact .pure trivial

theorem upholds_locked {α : Type} {path : String} {task : FileTask (Except Fault α)} {J : α → Prop}
    (h : Upholds G task (Sure J)) : Upholds G (locked path task) (Sure J) := by
  refine (upholds_acquireLock path).bind fun r _ => ?_
  split
  · exact .pure fun a ha => by cases ha
  · refine h.bind fun result hresult => ?_
    dsimp only
    split
    · exact (upholds_releaseLock path).bind fun _ _ => .pure hresult
    · exact .pure hresult

theorem upholds_save (durable : Catalog.Durable G) {h : CatalogHandle} (hc : G h.catalog) :
    Upholds G h.save fun _ => True := by
  refine (Upholds.write (draftPath h.path) (durable.readsAs hc)).bind fun r _ => ?_
  split
  · exact .pure trivial
  · exact (Upholds.rename _ _).bind fun _ _ => .pure trivial

theorem upholds_delete (path : String) : Upholds G (delete path) fun _ => True := by
  refine (upholds_acquireLock path).bind fun r _ => ?_
  split
  · exact .pure trivial
  · refine (Upholds.remove path).bind fun removed _ => ?_
    refine (upholds_releaseLock path).bind fun _ _ => ?_
    split <;> exact .pure trivial

theorem upholds_create (durable : Catalog.Durable G) (path name : String)
    (new : ∀ createdAt, G { name, createdAt }) :
    Upholds G (create path name) (Sure (G ·.catalog)) := by
  refine (Upholds.isFile path).bind fun present _ => ?_
  dsimp only
  split
  · exact .pure fun a ha => by cases ha
  · refine upholds_locked (Upholds.now.bind fun createdAt _ => ?_)
    refine (upholds_save durable (new createdAt)).bind fun saved _ => .pure fun h hh => ?_
    cases saved with
    | error e => cases hh
    | ok _ =>
      obtain rfl := Except.ok.inj hh
      exact new createdAt

/-- A document that comes back as its catalog can be opened where the lock can be made. -/
theorem run_openAt_of_holds {s t : Store} {path : String} {c : Catalog}
    (ends : path.toList.getLast? = some 'n') (holds : s.Holds path c) (back : c.reread? = some c)
    (lock : s.create (lockPath path) = .ok t) : s.run (openAt path) = (.ok ⟨path, c⟩, t) := by
  obtain ⟨text, read, hc⟩ := holds
  have parsed : Catalog.parse? text = some (Catalog.formatVersion, c) := by
    rcases hc with rfl | parsed
    · rw [Catalog.parse?_toText, back]
      rfl
    · exact parsed
  obtain ⟨q, hq, he⟩ := Store.read_eq_ok_iff.mp read
  exact run_openAt (Store.isFile_iff.mpr ⟨q, _, hq, he⟩) lock ((read_lock ends lock).mpr read)
    parsed

theorem upholds_openAt (path : String) : Upholds G (openAt path) (Sure (G ·.catalog)) := by
  refine (Upholds.isFile path).bind fun present _ => ?_
  split
  · exact .pure fun a ha => by cases ha
  · refine upholds_locked ((Upholds.read path).bind fun r hr => ?_)
    split
    · exact .pure fun a ha => by cases ha
    · next text =>
      refine .pure fun h hh => ?_
      exact hr text rfl _ _ (ofText_eq_ok hh).2

/-- A change that is refused, or cannot be written, leaves behind what was there or what was to be
written. -/
theorem upholds_commit (durable : Catalog.Durable G) {h : CatalogHandle}
    {r : Except Refusal Catalog}
    {I J : Catalog → Prop} (before : I h.catalog)
    (after : ∀ c, r = .ok c → G c ∧ J c ∧ I c) :
    Upholds G (h.commit r) fun p => I p.2.catalog ∧ Sure (fun _ => J p.2.catalog) p.1 := by
  unfold commit
  cases r with
  | error e => exact .pure ⟨before, fun a ha => by cases ha⟩
  | ok c =>
    obtain ⟨good, new, kept⟩ := after c rfl
    refine (upholds_save (h := { h with catalog := c }) durable good).bind fun saved _ => ?_
    exact .pure ⟨kept, fun _ _ => new⟩

end CatalogHandle

end Tabular
