import Tabular.Proofs.Places

/-!
What a step leaves as it was. A file is seen by its path; a step changes the files that it names,
and a path that ends in another name shows what it showed before.
-/
namespace Tabular

namespace Store

def file? (s : Store) (path : String) : Option Content :=
  match s.lookUp path with
  | .ok (_, .file content) => some content
  | _ => none

variable {s t u : Store} {path other : String} {p : Place} {content : Content}

theorem file?_eq_some_iff :
    s.file? path = some content ↔
      ∃ p, s.locate path = .ok ⟨p, true⟩ ∧ s.entry? p = some (.file content) := by
  unfold file?
  constructor
  · intro h
    split at h
    · next p found hl =>
      obtain rfl := Option.some.inj h
      exact ⟨p, lookUp_eq_file_iff.mp hl⟩
    · cases h
  · rintro ⟨p, h⟩
    rw [lookUp_eq_file_iff.mpr h]

theorem file?_empty (path : String) : empty.file? path = none := by
  rw [Option.eq_none_iff_forall_ne_some]
  intro content h
  obtain ⟨p, -, he⟩ := file?_eq_some_iff.mp h
  cases p <;> cases he

theorem isFile_eq_isSome (s : Store) (path : String) : s.isFile path = (s.file? path).isSome := by
  rw [Bool.eq_iff_iff, isFile_iff, Option.isSome_iff_exists]
  constructor
  · rintro ⟨p, content, h⟩
    exact ⟨content, file?_eq_some_iff.mpr ⟨p, h⟩⟩
  · rintro ⟨content, h⟩
    obtain ⟨p, h⟩ := file?_eq_some_iff.mp h
    exact ⟨p, content, h⟩

theorem read_eq_ok_iff_file? {text : String} :
    s.read path = .ok text ↔ s.file? path = some (.text text) :=
  read_eq_ok_iff.trans file?_eq_some_iff.symm

/-- A file shows the same if directories stay and its place is not touched. -/
theorem file?_of_entry (dirs : s.SameDirectories t)
    (entry : ∀ p, s.locate path = .ok ⟨p, true⟩ → t.entry? p = s.entry? p) :
    t.file? path = s.file? path := by
  apply Option.ext
  intro content
  rw [file?_eq_some_iff, file?_eq_some_iff]
  constructor
  · rintro ⟨p, hp, he⟩
    have hs := dirs.symm.locate hp
    exact ⟨p, hs, by rw [← entry p hs, he]⟩
  · rintro ⟨p, hp, he⟩
    exact ⟨p, dirs.locate hp, by rw [entry p hp, he]⟩

/-- Directories stay, and so do files, but for those that share a name with one of some paths. -/
structure ChangesOnly (paths : List String) (s t : Store) : Prop where
  directories : s.SameDirectories t
  file : ∀ other, (∀ path ∈ paths, Path.base path.toList ≠ Path.base other.toList) →
    t.file? other = s.file? other

namespace ChangesOnly

variable {paths more : List String}

theorem refl (paths : List String) (s : Store) : s.ChangesOnly paths s := ⟨.refl s, fun _ _ => rfl⟩

theorem mono (h : s.ChangesOnly paths t) (inside : paths ⊆ more) : s.ChangesOnly more t :=
  ⟨h.directories, fun other apart => h.file other fun path hp => apart path (inside hp)⟩

theorem trans (h : s.ChangesOnly paths t) (k : t.ChangesOnly paths u) : s.ChangesOnly paths u :=
  ⟨h.directories.trans k.directories, fun other apart =>
    (k.file other apart).trans (h.file other apart)⟩

/-- A path with another name shows the same before and after. -/
theorem file_of_ne (h : s.ChangesOnly [path] t)
    (apart : Path.base path.toList ≠ Path.base other.toList) : t.file? other = s.file? other := by
  apply h.file
  intro path' hp
  rwa [List.mem_singleton.mp hp]

theorem read_of_ne (h : s.ChangesOnly [path] t)
    (apart : Path.base path.toList ≠ Path.base other.toList) {text : String} :
    t.read other = .ok text ↔ s.read other = .ok text := by
  rw [read_eq_ok_iff_file?, read_eq_ok_iff_file?, h.file_of_ne apart]

end ChangesOnly

/-! ### Places -/

/-- What stands at one place alone can be seen at no other path. -/
theorem changesOnly_of_entry (hp : s.locate path = .ok ⟨p, true⟩) (dirs : s.SameDirectories t)
    (rest : ∀ q ≠ p, t.entry? q = s.entry? q) : s.ChangesOnly [path] t where
  directories := dirs
  file := fun _ apart => file?_of_entry dirs fun q hq =>
    rest q (place_ne hp hq (apart path List.mem_cons_self)).symm

theorem changesOnly_put (hp : s.locate path = .ok ⟨p, true⟩) (free : s.entry? p ≠ some .directory)
    (content : Content) : s.ChangesOnly [path] (s.put p (.file content)) := by
  have nonempty := place_ne_nil hp
  refine changesOnly_of_entry hp (sameDirectories_put nonempty content free) fun q away => ?_
  rw [entry?_put nonempty, if_neg away]

theorem file?_put (hp : s.locate path = .ok ⟨p, true⟩) (free : s.entry? p ≠ some .directory)
    (content : Content) : (s.put p (.file content)).file? path = some content := by
  have nonempty := place_ne_nil hp
  have located := (sameDirectories_put nonempty content free).locate hp
  exact file?_eq_some_iff.mpr ⟨p, located, by rw [entry?_put nonempty, if_pos rfl]⟩

theorem changesOnly_erase (hp : s.locate path = .ok ⟨p, true⟩)
    (free : s.entry? p ≠ some .directory) : s.ChangesOnly [path] (s.erase p) := by
  have nonempty := place_ne_nil hp
  refine changesOnly_of_entry hp (sameDirectories_erase nonempty free) fun q away => ?_
  rw [entry?_erase nonempty, if_neg away]

theorem file?_erase (hp : s.locate path = .ok ⟨p, true⟩) (free : s.entry? p ≠ some .directory) :
    (s.erase p).file? path = none := by
  have nonempty := place_ne_nil hp
  have dirs := sameDirectories_erase nonempty free
  rw [Option.eq_none_iff_forall_ne_some]
  intro content h
  obtain ⟨q, hq, he⟩ := file?_eq_some_iff.mp h
  obtain ⟨rfl, -⟩ := Target.mk.inj (Except.ok.inj (hp.symm.trans (dirs.symm.locate hq)))
  rw [entry?_erase nonempty, if_pos rfl] at he
  cases he

/-- A place that was free is free again, as if it had never been taken. -/
theorem erase_put (hp : p ≠ []) (free : s.entry? p = none) (e : Entry) :
    (s.put p e).erase p = s := by
  have absent : ∀ q ∈ s.entries, (q.1 != p) = true := by
    cases p with
    | nil => exact absurd rfl hp
    | cons name rest =>
      intro q hq
      have missing : s.entries.find? (·.1 == name :: rest) = none := by
        unfold entry? at free
        simpa using free
      simpa using List.find?_eq_none.mp missing q hq
  unfold put erase
  simp only [List.filter_append, List.filter_filter, Bool.and_self]
  rw [List.filter_eq_self.mpr absent]
  simp

/-! ### Steps -/

theorem create_ok (h : s.create path = .ok t) :
    s.file? path = none ∧ t.file? path = some (.text "") ∧ s.ChangesOnly [path] t := by
  obtain ⟨p, hp, free, rfl⟩ := create_eq_ok_iff.mp h
  have clear : s.entry? p ≠ some .directory := by simp [free]
  refine ⟨?_, file?_put hp clear _, changesOnly_put hp clear _⟩
  rw [Option.eq_none_iff_forall_ne_some]
  intro content h
  obtain ⟨q, hq, he⟩ := file?_eq_some_iff.mp h
  obtain ⟨rfl, -⟩ := Target.mk.inj (Except.ok.inj (hp.symm.trans hq))
  rw [free] at he
  cases he

theorem write_ok (h : s.write path content = .ok t) :
    t.file? path = some content ∧ s.ChangesOnly [path] t := by
  obtain ⟨p, hp, free, rfl⟩ := write_eq_ok_iff.mp h
  exact ⟨file?_put hp free _, changesOnly_put hp free _⟩

theorem remove_ok (h : s.remove path = .ok t) :
    t.file? path = none ∧ s.ChangesOnly [path] t := by
  obtain ⟨p, content, hp, he, rfl⟩ := remove_eq_ok_iff.mp h
  have free : s.entry? p ≠ some .directory := by simp [he]
  exact ⟨file?_erase hp free, changesOnly_erase hp free⟩

theorem rename_ok {goal : String} (h : s.rename path goal = .ok t) :
    t.file? goal = s.file? path ∧ s.ChangesOnly [path, goal] t := by
  obtain ⟨p, content, q, hp, he, hq, other, rfl⟩ := rename_eq_ok_iff.mp h
  have free : s.entry? p ≠ some .directory := by simp [he]
  have erased := changesOnly_erase hp free
  have located := erased.directories.locate hq
  have clear : Store.entry? (s.erase p) q ≠ some .directory :=
    fun d => other ((erased.directories.directory q).mpr d)
  have placed := changesOnly_put located clear content
  refine ⟨?_, (erased.mono (by simp)).trans (placed.mono (by simp))⟩
  rw [file?_put located clear, file?_eq_some_iff.mpr ⟨p, hp, he⟩]

/-- A file can be removed. -/
theorem exists_remove (h : s.file? path = some content) : ∃ t, s.remove path = .ok t := by
  obtain ⟨p, hp, he⟩ := file?_eq_some_iff.mp h
  exact ⟨_, remove_eq_ok_iff.mpr ⟨p, content, hp, he, rfl⟩⟩

/-- A file that was made and removed leaves nothing behind. -/
theorem remove_create (h : s.create path = .ok t) : t.remove path = .ok s := by
  obtain ⟨p, hp, free, rfl⟩ := create_eq_ok_iff.mp h
  have nonempty := place_ne_nil hp
  have dirs := sameDirectories_put nonempty (.text "") (by rw [free]; simp)
  refine remove_eq_ok_iff.mpr ⟨p, .text "", dirs.locate hp, ?_, erase_put nonempty free _⟩
  rw [entry?_put nonempty, if_pos rfl]

end Store

end Tabular
