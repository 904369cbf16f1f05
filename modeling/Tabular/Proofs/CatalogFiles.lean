import Tabular.Proofs.Handles

/-!
The files of catalogs. Each catalog of a directory has a document, a lock and a draft of the
document, and no two of all these have one name. What a step on a catalog does to them is said
once for each step: a failed one leaves the store as it was.
-/
namespace Tabular

namespace Path

theorem base_join (directory path : String) :
    base (join directory path).toList = base path.toList := by
  unfold join
  split
  · rfl
  · split
    · next slash =>
      rw [String.toList_append]
      cases hd : directory.toList.getLast? with
      | none => rw [List.getLast?_eq_none_iff.mp hd, List.nil_append]
      | some c =>
        obtain ⟨front, hfront⟩ := List.getLast?_eq_some_iff.mp hd
        obtain rfl : c = '/' := by simpa [hd] using slash
        rw [hfront, List.append_assoc]
        exact base_append _ _
    · rw [String.toList_append, String.toList_append, List.append_assoc]
      exact base_append _ _

theorem base_withFileName (path name : String) :
    base (withFileName path name).toList = base name.toList := by
  unfold withFileName
  split <;> exact base_join _ _

/-- A name behind the directory of a path. -/
theorem base_dropWhile_append (cs : List Char) {name : List Char} (plain : '/' ∉ name) :
    base ((cs.dropWhile (· != '/')).reverse ++ name) = name := by
  cases hd : cs.dropWhile (· != '/') with
  | nil => simpa using base_of_notMem plain
  | cons c ds =>
    have slash : c = '/' := by
      have head := List.head?_dropWhile_not (· != '/') cs
      rw [hd] at head
      simpa using head
    rw [List.reverse_cons, List.append_assoc, slash]
    exact (base_append _ _).trans (base_of_notMem plain)

variable {path : String} {c : Char}

theorem trimmed_eq (h : path.toList.getLast? = some c) (slash : c ≠ '/') (dot : c ≠ '.') :
    trimmed path = path.toList.reverse := by
  rw [← List.head?_reverse] at h
  unfold trimmed
  cases hr : path.toList.reverse with
  | nil => rfl
  | cons d ds =>
    obtain rfl : d = c := by simpa [hr] using h
    unfold trimIdle
    split <;> simp_all

theorem fileName?_eq (h : path.toList.getLast? = some c) (slash : c ≠ '/') (dot : c ≠ '.') :
    fileName? path = some (String.ofList (base path.toList)) := by
  have last := getLast?_base h slash
  unfold base at last ⊢
  rw [List.getLast?_reverse] at last
  unfold fileName?
  rw [trimmed_eq h slash dot]
  refine if_neg fun idle => ?_
  generalize path.toList.reverse.takeWhile (· != '/') = component at last idle
  simp only [List.mem_cons, List.not_mem_nil, or_false] at idle
  rcases idle with rfl | rfl | rfl
  · cases last
  · exact dot (Option.some.inj last).symm
  · exact dot (Option.some.inj last).symm

end Path

namespace CatalogHandle

/-- A name that leads to no other directory. -/
def IsPlain (name : String) : Prop := '/' ∉ name.toList

inductive Role where
  | document | lock | draft
  deriving DecidableEq

def Role.path (document : String) : Role → String
  | .document => document
  | lock => lockPath document
  | draft => draftPath document

def Role.suffix : Role → String
  | document => ".jet.json"
  | lock => ".jet.lock"
  | draft => ".jet.tmp"

section Names

variable {directory name other : String}

theorem base_pathOf (plain : IsPlain name) :
    Path.base (pathOf directory name).toList = name.toList ++ Role.document.suffix.toList := by
  unfold pathOf
  rw [Path.base_join, String.toList_append, String.toList_append, List.append_assoc]
  refine Path.base_of_notMem fun slash => ?_
  rcases List.mem_append.mp slash with slash | slash
  · exact plain slash
  · exact absurd slash (by decide)

theorem fileName?_pathOf (plain : IsPlain name) :
    Path.fileName? (pathOf directory name) =
      some (String.ofList (name.toList ++ Role.document.suffix.toList)) := by
  rw [Path.fileName?_eq (getLast?_pathOf directory name) (by decide) (by decide), base_pathOf plain]

theorem stem?_pathOf (plain : IsPlain name) :
    Path.stem? (pathOf directory name) documentSuffix = some (name ++ ".") := by
  have whole : name.toList ++ Role.document.suffix.toList =
      (name ++ ".").toList ++ documentSuffix.toList := by
    rw [String.toList_append, List.append_assoc]
    rfl
  have length : (String.ofList (name.toList ++ Role.document.suffix.toList)).length -
      documentSuffix.length = (name ++ ".").toList.length := by
    rw [← String.length_toList, String.toList_ofList, whole, List.length_append,
      ← String.length_toList, Nat.add_sub_cancel]
  have isSuffix : documentSuffix.toList.isSuffixOf
      (String.ofList (name.toList ++ Role.document.suffix.toList)).toList = true := by
    rw [String.toList_ofList, whole, List.isSuffixOf_iff_suffix]
    exact List.suffix_append _ _
  unfold Path.stem?
  rw [fileName?_pathOf plain]
  simp only [Option.bind_eq_bind, Option.bind_some]
  rw [if_pos isSuffix, length, String.toList_ofList, whole, List.take_left, String.ofList_toList]

theorem base_lockPath (plain : IsPlain name) :
    Path.base (lockPath (pathOf directory name)).toList =
      name.toList ++ Role.lock.suffix.toList := by
  unfold lockPath
  rw [Path.base_withFileName, stem?_pathOf plain, Option.getD_some, String.toList_append,
    String.toList_append, List.append_assoc]
  refine Path.base_of_notMem fun slash => ?_
  rcases List.mem_append.mp slash with slash | slash
  · exact plain slash
  · exact absurd slash (by decide)

theorem splitExtension_document (cs : List Char) :
    (Path.splitExtension (cs ++ Role.document.suffix.toList).reverse).1 =
      (cs ++ ".jet".toList).reverse := by
  rw [List.reverse_append, List.reverse_append]
  rfl

theorem base_draftPath (plain : IsPlain name) :
    Path.base (draftPath (pathOf directory name)).toList =
      name.toList ++ Role.draft.suffix.toList := by
  have front : '/' ∉ name.toList ++ Role.draft.suffix.toList := by
    intro slash
    rcases List.mem_append.mp slash with slash | slash
    · exact plain slash
    · exact absurd slash (by decide)
  unfold draftPath Path.withExtension
  rw [fileName?_pathOf plain]
  dsimp only
  rw [String.toList_ofList, splitExtension_document, List.reverse_append, List.reverse_reverse,
    String.toList_append, String.toList_append, String.toList_ofList, List.append_assoc,
    List.append_assoc, List.append_assoc]
  exact Path.base_dropWhile_append _ front

theorem base_path (plain : IsPlain name) (role : Role) :
    Path.base (role.path (pathOf directory name)).toList = name.toList ++ role.suffix.toList := by
  cases role with
  | document => exact base_pathOf plain
  | lock => exact base_lockPath plain
  | draft => exact base_draftPath plain

theorem Role.getLast?_append (cs : List Char) (role : Role) :
    (cs ++ role.suffix.toList).getLast? = role.suffix.toList.getLast? := by
  rw [List.getLast?_append]
  cases role <;> rfl

theorem Role.eq_of_getLast? {role role' : Role}
    (h : role.suffix.toList.getLast? = role'.suffix.toList.getLast?) : role = role' := by
  revert h
  cases role <;> cases role' <;> decide

/-- The name of a file tells the catalog and what the file is for. -/
theorem eq_of_append_suffix {cs ds : List Char} {role role' : Role}
    (h : cs ++ role.suffix.toList = ds ++ role'.suffix.toList) : cs = ds ∧ role = role' := by
  have last := congrArg List.getLast? h
  rw [Role.getLast?_append, Role.getLast?_append] at last
  obtain rfl := Role.eq_of_getLast? last
  exact ⟨List.append_cancel_right h, rfl⟩

theorem base_path_ne (role role' : Role) (plain : IsPlain name) (plain' : IsPlain other)
    (apart : name = other → role ≠ role') :
    Path.base (role.path (pathOf directory name)).toList ≠
      Path.base (role'.path (pathOf directory other)).toList := by
  rw [base_path plain, base_path plain']
  intro same
  obtain ⟨names, roles⟩ := eq_of_append_suffix same
  exact apart (String.toList_injective names) roles

theorem pathOf_injective (plain : IsPlain name) (plain' : IsPlain other)
    (same : pathOf directory name = pathOf directory other) : name = other := by
  have document : Path.base (pathOf directory name).toList = name.toList ++ _ := base_pathOf plain
  rw [same, base_pathOf plain'] at document
  exact String.toList_injective (List.append_cancel_right document).symm

end Names

/-! ### Steps -/

variable {s t u : Store} {path : String} {f : Fault}

theorem run_acquireLock_error (h : s.run (acquireLock path) = (.error f, t)) : t = s := by
  unfold acquireLock at h
  rw [Store.run_bind, Store.run_create] at h
  cases hc : s.create (lockPath path) with
  | ok u =>
    rw [hc] at h
    cases (Prod.mk.inj h).1
  | error e =>
    rw [hc] at h
    cases e <;> exact (Prod.mk.inj h).2.symm

theorem run_releaseLock (h : s.remove (lockPath path) = .ok t) :
    s.run (releaseLock path) = (.ok (), t) := by
  unfold releaseLock
  rw [Store.run_bind, Store.run_remove, h]
  rfl

/-- Where a lock stands, it is released, and nothing else changes. -/
theorem exists_run_releaseLock {content : Content} (h : s.file? (lockPath path) = some content) :
    ∃ t, s.run (releaseLock path) = (.ok (), t) ∧ t.file? (lockPath path) = none ∧
      s.ChangesOnly [lockPath path] t := by
  obtain ⟨t, ht⟩ := Store.exists_remove h
  exact ⟨t, run_releaseLock ht, Store.remove_ok ht⟩

theorem run_locked_error {α : Type} {task : FileTask (Except Fault α)}
    (h : s.run (locked path task) = (.error f, u)) :
    u = s ∨ ∃ t v, s.create (lockPath path) = .ok t ∧ t.run task = (.error f, v) ∧
      u = (v.run (releaseLock path)).2 := by
  unfold locked at h
  rw [Store.run_bind] at h
  rcases hl : s.run (acquireLock path) with ⟨_ | ⟨⟩, t⟩
  · rw [hl] at h
    exact .inl ((Prod.mk.inj h).2.symm.trans (run_acquireLock_error hl))
  · rw [hl] at h
    dsimp only at h
    rw [Store.run_bind] at h
    rcases ht : t.run task with ⟨g | a, v⟩
    · rw [ht] at h
      dsimp only at h
      rw [if_pos (show (!(Except.error g : Except Fault α).isOk) = true from rfl),
        Store.run_bind] at h
      obtain ⟨hg, rfl⟩ := Prod.mk.inj h
      obtain rfl := Except.error.inj hg
      exact .inr ⟨t, v, run_acquireLock_ok hl, ht, rfl⟩
    · rw [ht] at h
      cases (Prod.mk.inj h).1

theorem run_openAt_error (h : s.run (openAt path) = (.error f, t)) : t = s := by
  unfold openAt at h
  rw [Store.run_bind, Store.run_isFile] at h
  dsimp only at h
  split at h
  · exact (Prod.mk.inj h).2.symm
  rcases run_locked_error h with rfl | ⟨u, v, hl, hv, rfl⟩
  · rfl
  have untouched : v = u := by
    rw [Store.run_bind, Store.run_read] at hv
    dsimp only at hv
    split at hv <;> exact (Prod.mk.inj hv).2.symm
  rw [untouched, run_releaseLock (Store.remove_create hl)]

/-- Where a document can be written whenever its lock is made, a creation that fails has changed
nothing. -/
theorem run_create_error {name : String}
    (writable : ∀ u, s.create (lockPath path) = .ok u → Writable u path)
    (h : s.run (create path name) = (.error f, t)) : t = s := by
  unfold create at h
  rw [Store.run_bind, Store.run_isFile] at h
  dsimp only at h
  split at h
  · exact (Prod.mk.inj h).2.symm
  rcases run_locked_error h with rfl | ⟨u, v, hl, hv, -⟩
  · rfl
  obtain ⟨w, saved⟩ :=
    exists_run_save (h := ⟨path, { name, createdAt := u.clock }⟩) (writable u hl)
  rw [Store.run_bind, Store.run_now] at hv
  dsimp only at hv
  rw [Store.run_bind, saved] at hv
  cases (Prod.mk.inj hv).1

/-- What a deletion leaves behind: everything if it fails, and neither document nor lock if not. -/
theorem run_delete {r : Except Fault Unit} (ends : path.toList.getLast? = some 'n')
    (h : s.run (delete path) = (r, t)) :
    (r.isOk = false → t = s) ∧
      (r.isOk = true → s.file? (lockPath path) = none ∧ t.file? (lockPath path) = none ∧
        t.file? path = none ∧ s.ChangesOnly [path, lockPath path] t) := by
  unfold delete at h
  rw [Store.run_bind] at h
  rcases hl : s.run (acquireLock path) with ⟨g | ⟨⟩, u⟩
  · rw [hl] at h
    obtain ⟨rfl, rfl⟩ := Prod.mk.inj h
    exact ⟨fun _ => run_acquireLock_error hl, fun ok => by cases ok⟩
  have made := run_acquireLock_ok hl
  obtain ⟨free, locked, lock⟩ := Store.create_ok made
  rw [hl] at h
  dsimp only at h
  rw [Store.run_bind, Store.run_remove] at h
  cases hr : u.remove path with
  | ok v =>
    obtain ⟨gone, document⟩ := Store.remove_ok hr
    have kept : v.file? (lockPath path) = some (.text "") :=
      (document.file_of_ne (base_lockPath_ne ends).symm).trans locked
    obtain ⟨w, released, unlocked, unlock⟩ := exists_run_releaseLock kept
    rw [hr] at h
    dsimp only [Store.outcome] at h
    rw [Store.run_bind, released] at h
    obtain ⟨rfl, rfl⟩ := Prod.mk.inj h
    refine ⟨fun failed => (by cases failed), fun _ => ⟨free, unlocked, ?_, ?_⟩⟩
    · exact (unlock.file_of_ne (base_lockPath_ne ends)).trans gone
    · exact ((lock.mono (by simp)).trans (document.mono (by simp))).trans (unlock.mono (by simp))
  | error e =>
    rw [hr] at h
    dsimp only [Store.outcome] at h
    rw [Store.run_bind, run_releaseLock (Store.remove_create made)] at h
    have restored : t = s := by
      cases e <;> exact (Prod.mk.inj h).2.symm
    subst restored
    have missing : t.file? path = none := by
      rw [← lock.file_of_ne (base_lockPath_ne ends)]
      cases hf : u.file? path with
      | none => rfl
      | some content =>
        obtain ⟨v, hv⟩ := Store.exists_remove hf
        rw [hr] at hv
        cases hv
    exact ⟨fun _ => rfl, fun _ => ⟨free, free, missing, .refl _ t⟩⟩

/-- A change that is refused leaves everything, and one that is not is in the document. -/
theorem run_commit {h : CatalogHandle} (writable : Writable s h.path) (r : Except Refusal Catalog) :
    (∃ e, r = .error e ∧ s.run (h.commit r) = ((.error e.fault, h), s)) ∨
      ∃ c t, r = .ok c ∧ s.run (h.commit r) = ((.ok (), ⟨h.path, c⟩), t) ∧
        t.read h.path = .ok c.toText ∧ s.ChangesOnly [draftPath h.path, h.path] t := by
  cases r with
  | error e => exact .inl ⟨e, rfl, rfl⟩
  | ok c =>
    obtain ⟨t, saved⟩ : ∃ t, s.run (save ⟨h.path, c⟩) = (.ok (), t) := exists_run_save writable
    obtain ⟨read, changed⟩ := read_of_run_save saved
    have run : s.run (h.commit (.ok c)) = ((.ok (), ⟨h.path, c⟩), t) := by
      unfold commit
      dsimp only
      rw [Store.run_bind, saved]
      rfl
    exact .inr ⟨c, t, rfl, run, read, changed⟩

end CatalogHandle

end Tabular
