import Tabular.Proofs.CatalogFiles
import Tabular.Proofs.Discipline

/-!
Where the files of a catalog stand. A name without a slash gives a document that is a direct child
of the directory, and its lock and its draft stand beside it: whatever is asked of the file system
when such a catalog is made or replaced changes these three files alone. A name with a slash is
joined to the directory as it is, so that it leads below the directory, above it or away from it.
-/
namespace Tabular

namespace Path

def names (path : String) : List (List Char) := (components path.toList).filter (!isIdle ·)

def tidy (path : String) : String := String.ofList (trimmed path).reverse

/-- The text of a directory in front of its files: with a slash at its end, unless it is empty. -/
def slashed (directory : String) : List Char :=
  if directory.toList.getLast?.all (· == '/') then directory.toList else directory.toList ++ ['/']

structure IsFileName (file : String) : Prop where
  plain : '/' ∉ file.toList
  ends : ∃ c, file.toList.getLast? = some c ∧ c ≠ '.'

section Texts

variable {directory file : String}

theorem IsFileName.ne_nil (h : IsFileName file) : file.toList ≠ [] := by
  obtain ⟨c, hc, -⟩ := h.ends
  rintro none
  rw [none] at hc
  cases hc

theorem IsFileName.isIdle_eq (h : IsFileName file) : isIdle file.toList = false := by
  obtain ⟨c, hc, dot⟩ := h.ends
  rw [isIdle, Bool.or_eq_false_iff, beq_eq_false_iff_ne, beq_eq_false_iff_ne]
  refine ⟨h.ne_nil, fun same => dot ?_⟩
  rw [same] at hc
  exact (Option.some.inj hc).symm

theorem IsFileName.head?_ne (h : IsFileName file) : file.toList.head? ≠ some '/' := fun slash =>
  h.plain (List.mem_of_head? slash)

theorem slashed_eq (directory : String) :
    slashed directory = [] ∨ ∃ front, slashed directory = front ++ ['/'] := by
  unfold slashed
  split
  · rename_i ends
    cases last : directory.toList.getLast? with
    | none => exact .inl (List.getLast?_eq_none_iff.mp last)
    | some c =>
      obtain ⟨front, whole⟩ := List.getLast?_eq_some_iff.mp last
      obtain rfl : c = '/' := by simpa [last] using ends
      exact .inr ⟨front, whole⟩
  · exact .inr ⟨_, rfl⟩

theorem toList_join (h : file.toList.head? ≠ some '/') :
    (join directory file).toList = slashed directory ++ file.toList := by
  unfold join slashed
  rw [if_neg (by simpa using h)]
  split
  · rw [String.toList_append]
  · rw [String.toList_append, String.toList_append]
    rfl

theorem head?_join (h : file.toList.head? ≠ some '/') :
    ((join directory file).toList.head? == some '/') = (directory.toList.head? == some '/') := by
  rw [toList_join h]
  cases text : directory.toList with
  | nil => simpa [slashed, text] using h
  | cons c cs =>
    unfold slashed
    rw [text]
    split <;> rfl

/-! ### Components -/

theorem components_append_slash (front cs : List Char) :
    components (front ++ '/' :: cs) = components front ++ components cs := by
  simp only [components_eq_splitOn]
  exact List.splitOn_append_cons_self ..

theorem components_of_notMem {cs : List Char} (plain : '/' ∉ cs) : components cs = [cs] := by
  rw [components_eq_splitOn]
  exact List.splitOn_eq_singleton plain

theorem filter_components_slashed (directory : String) :
    (components (slashed directory)).filter (!isIdle ·) = names directory := by
  unfold slashed names
  split
  · rfl
  · rw [components_append_slash, List.filter_append]
    exact List.append_nil _

theorem names_join (h : IsFileName file) :
    names (join directory file) = names directory ++ [file.toList] := by
  have last : [file.toList].filter (!isIdle ·) = [file.toList] := by
    rw [List.filter_singleton, h.isIdle_eq]
    rfl
  rw [names, toList_join h.head?_ne, ← filter_components_slashed]
  rcases slashed_eq directory with none | ⟨front, slashed⟩
  · rw [none, List.nil_append, components_of_notMem h.plain, last]
    rfl
  · rw [slashed, List.append_assoc, List.singleton_append, components_append_slash,
      components_append_slash, components_of_notMem h.plain, List.filter_append, List.filter_append,
      last]
    exact congrArg (· ++ _) (List.append_nil _).symm

/-! ### Ends that name nothing -/

theorem trimIdle_slash {cs : List Char} (h : cs ≠ []) : trimIdle ('/' :: cs) = trimIdle cs := by
  rw [trimIdle]
  rintro ⟨⟩
  exact h rfl

theorem trimIdle_slashed (directory : String) :
    trimIdle (slashed directory).reverse = trimmed directory := by
  unfold slashed trimmed
  split
  · rfl
  · rename_i other
    rw [List.reverse_append]
    refine trimIdle_slash fun none => other ?_
    simp [List.reverse_eq_nil_iff.mp none]

/-- The end of a reversed path that is trimmed is its own, so that the path starts as it did. -/
theorem getLast?_trimIdle (cs : List Char) : (trimIdle cs).getLast? = cs.getLast? := by
  fun_induction trimIdle cs with
  | case1 => rfl
  | case2 cs more ih =>
    obtain ⟨c, cs, rfl⟩ := List.exists_cons_of_ne_nil more
    rw [ih, List.getLast?_cons_cons]
  | case3 cs ih => rw [ih, List.getLast?_cons_cons]
  | case4 => rfl

theorem filter_components_trimIdle (cs : List Char) :
    (components (trimIdle cs).reverse).filter (!isIdle ·) =
      (components cs.reverse).filter (!isIdle ·) := by
  fun_induction trimIdle cs with
  | case1 => rfl
  | case2 cs more ih =>
    rw [ih, List.reverse_cons, components_append_slash, List.filter_append]
    exact (List.append_nil _).symm
  | case3 cs ih =>
    rw [ih, List.reverse_cons (a := '.'), List.reverse_cons, List.append_assoc,
      components_append_slash, List.singleton_append, components_append_slash, List.filter_append,
      List.filter_append]
    rfl
  | case4 => rfl

theorem names_tidy (directory : String) : names (tidy directory) = names directory := by
  rw [names, tidy, String.toList_ofList, trimmed, filter_components_trimIdle, List.reverse_reverse,
    names]

theorem head?_tidy (directory : String) :
    (tidy directory).toList.head? = directory.toList.head? := by
  rw [tidy, String.toList_ofList, List.head?_reverse, trimmed, getLast?_trimIdle,
    List.getLast?_reverse]

theorem dropWhile_trimmed_join (h : IsFileName file) :
    (trimmed (join directory file)).dropWhile (· != '/') = (slashed directory).reverse := by
  obtain ⟨c, last, dot⟩ := h.ends
  have whole : (join directory file).toList.getLast? = some c := getLast?_join directory last
  have slash : c ≠ '/' := fun same => h.plain (same ▸ List.mem_of_getLast? last)
  have skipped : ∀ c ∈ file.toList.reverse, (c != '/') = true := by
    intro c hc
    rw [bne_iff_ne]
    rintro rfl
    exact h.plain (List.mem_reverse.mp hc)
  rw [trimmed_eq whole slash dot, toList_join h.head?_ne, List.reverse_append,
    List.dropWhile_append_of_pos skipped]
  rcases slashed_eq directory with none | ⟨front, slashed⟩
  · rw [none]
    rfl
  · rw [slashed, List.reverse_append]
    rfl

/-- A file that is put in a directory is a child of the directory. -/
theorem parent_join (h : IsFileName file) : parent (join directory file) = tidy directory := by
  rw [parent, tidy, dropWhile_trimmed_join h, trimIdle_slashed]

theorem notMem_of_fileName?_eq_some {path : String} (h : fileName? path = some file) :
    '/' ∉ file.toList := by
  unfold fileName? at h
  dsimp only at h
  split at h
  · cases h
  · obtain rfl := Option.some.inj h
    rw [String.toList_ofList, List.mem_reverse]
    intro slash
    exact absurd (List.mem_takeWhile_imp slash) (by decide)

end Texts

end Path

namespace CatalogHandle

section Files

variable {directory name : String}

def Role.file (name : String) (role : Role) : String := name ++ role.suffix

theorem Role.isFileName (plain : IsPlain name) (role : Role) :
    Path.IsFileName (role.file name) where
  plain := by
    rw [file, String.toList_append, List.mem_append, not_or]
    exact ⟨plain, by cases role <;> decide⟩
  ends := by
    rw [file, String.toList_append, Role.getLast?_append]
    cases role with
    | document => exact ⟨'n', rfl, by decide⟩
    | lock => exact ⟨'k', rfl, by decide⟩
    | draft => exact ⟨'p', rfl, by decide⟩

theorem pathOf_eq (directory name : String) :
    pathOf directory name = Path.join directory (Role.document.file name) := by
  rw [pathOf, String.append_assoc]
  rfl

theorem lockPath_pathOf (plain : IsPlain name) :
    lockPath (pathOf directory name) = Path.join (Path.tidy directory) (Role.lock.file name) := by
  unfold lockPath Path.withFileName
  rw [fileName?_pathOf plain, stem?_pathOf plain, pathOf_eq,
    Path.parent_join (Role.document.isFileName plain), Option.getD_some, String.append_assoc]
  rfl

theorem draftPath_pathOf (plain : IsPlain name) :
    draftPath (pathOf directory name) = Path.join directory (Role.draft.file name) := by
  have file := Role.draft.isFileName plain
  unfold draftPath Path.withExtension
  rw [fileName?_pathOf plain]
  dsimp only
  rw [String.toList_ofList, splitExtension_document, pathOf_eq,
    Path.dropWhile_trimmed_join (Role.document.isFileName plain), List.reverse_append,
    List.reverse_reverse, List.reverse_reverse]
  apply String.toList_injective
  rw [Path.toList_join file.head?_ne, String.toList_append, String.toList_append,
    String.toList_ofList, Role.file, String.toList_append, List.append_assoc, List.append_assoc,
    List.append_assoc]
  rfl

/-- A document is a direct child of its directory exactly if its name leads to no other. -/
theorem isChild_pathOf_iff :
    Path.fileName? (pathOf directory name) = some (Role.document.file name) ∧
        Path.parent (pathOf directory name) = Path.tidy directory ↔ IsPlain name := by
  constructor
  · rintro ⟨named, -⟩ slash
    refine Path.notMem_of_fileName?_eq_some named ?_
    rw [Role.file, String.toList_append]
    exact List.mem_append_left _ slash
  · intro plain
    refine ⟨?_, by rw [pathOf_eq, Path.parent_join (Role.document.isFileName plain)]⟩
    rw [fileName?_pathOf plain, Role.file, String.ofList_append, String.ofList_toList,
      String.ofList_toList]

end Files

end CatalogHandle

/-! ### Places -/

namespace Store

variable {s t u : Store}

def placeOf (s : Store) (path : String) : Except FileError Place :=
  s.follow (if path.toList.head? == some '/' then [] else s.home) (Path.names path)

theorem SameDirectories.placeOf_eq (h : s.SameDirectories t) {path : String} {place : Place}
    (hs : s.placeOf path = .ok place) : t.placeOf path = .ok place := by
  unfold placeOf at hs ⊢
  rw [← h.home]
  exact h.follow hs

theorem placeOf_tidy (path : String) : s.placeOf (Path.tidy path) = s.placeOf path := by
  unfold placeOf
  rw [Path.names_tidy, Path.head?_tidy]

/-- In front of another, a component that names nothing can be left out. -/
theorem follow_idle {p : Place} {i c : List Char} {cs : List (List Char)}
    (idle : Path.isIdle i = true) : s.follow p (i :: c :: cs) = s.follow p (c :: cs) := by
  cases found : s.entry? p with
  | none => simp only [follow, found]
  | some e =>
    cases e with
    | file content => simp only [follow, found]
    | directory => simp only [follow, found, idle, if_true]

theorem follow_filter (p : Place) (cs : List (List Char)) (c : List Char) :
    s.follow p (cs ++ [c]) = s.follow p (cs.filter (!Path.isIdle ·) ++ [c]) := by
  induction cs generalizing p with
  | nil => rfl
  | cons d cs ih =>
    cases idle : Path.isIdle d with
    | true =>
      obtain ⟨e, rest, more⟩ := List.exists_cons_of_ne_nil (List.append_ne_nil_of_right_ne_nil cs
        (List.cons_ne_nil c []))
      rw [List.filter_cons_of_neg (by simp [idle]), ← ih, List.cons_append, more, follow_idle idle]
    | false =>
      rw [List.filter_cons_of_pos (by simp [idle]), List.cons_append, List.cons_append]
      unfold follow
      simp only [ih]

theorem follow_append {p q : Place} {cs ds : List (List Char)} (h : s.follow p (cs ++ ds) = .ok q) :
    ∃ r, s.follow p cs = .ok r ∧ s.follow r ds = .ok q := by
  induction cs generalizing p with
  | nil => exact ⟨p, rfl, h⟩
  | cons c cs ih =>
    rw [List.cons_append] at h
    cases found : s.entry? p with
    | none => simp only [follow, found, reduceCtorEq] at h
    | some e =>
      cases e with
      | file content => simp only [follow, found, reduceCtorEq] at h
      | directory =>
        simp only [follow, found] at h ⊢
        split at h
        · next idle => simpa only [idle, if_true] using ih h
        · next idle =>
          rw [if_neg idle]
          split at h
          · next up => simpa only [up, if_true] using ih h
          · next up =>
            rw [if_neg up]
            split at h
            · cases h
            · next short => rw [if_neg short]; exact ih h

theorem follow_singleton {p q : Place} {c : List Char} (idle : Path.isIdle c = false)
    (notUp : (c == ['.', '.']) = false) (h : s.follow p [c] = .ok q) :
    q = String.ofList c :: p := by
  unfold follow at h
  split at h
  · cases h
  · cases h
  · simp only [idle, notUp, Bool.false_eq_true, if_false] at h
    split at h
    · cases h
    · exact (Except.ok.inj h).symm

/-- A file that is put in a directory stands at the place below that of the directory. -/
theorem place_of_locate_join {directory file : String} {place : Place} (h : Path.IsFileName file)
    (located : s.locate (Path.join directory file) = .ok ⟨place, true⟩) :
    ∃ folder, s.placeOf directory = .ok folder ∧ place = file :: folder := by
  have base : Path.base (Path.join directory file).toList = file.toList := by
    rw [Path.base_join, Path.base_of_notMem h.plain]
  obtain ⟨followed, idle, notUp⟩ := follow_of_locate located
  obtain ⟨front, hfront⟩ :=
    List.getLast?_eq_some_iff.mp (Path.getLast?_components (Path.join directory file).toList)
  rw [base] at hfront idle notUp
  have names : front.filter (!Path.isIdle ·) = Path.names directory := by
    have whole := @Path.names_join directory _ h
    rw [Path.names, hfront, List.filter_append, List.filter_singleton, idle] at whole
    exact List.append_cancel_right whole
  rw [hfront, follow_filter, names, Path.head?_join h.head?_ne] at followed
  obtain ⟨folder, led, last⟩ := follow_append followed
  refine ⟨folder, led, ?_⟩
  rw [follow_singleton idle (beq_eq_false_iff_ne.mpr notUp) last, String.ofList_toList]

/-- Directories stay, and nothing changes but at places that some paths lead to. -/
structure TouchesOnly (paths : List String) (s t : Store) : Prop where
  directories : s.SameDirectories t
  place : ∀ place, t.entry? place ≠ s.entry? place →
    ∃ path ∈ paths, s.locate path = .ok ⟨place, true⟩

theorem TouchesOnly.refl (paths : List String) (s : Store) : s.TouchesOnly paths s :=
  ⟨.refl s, fun _ changed => absurd rfl changed⟩

variable {paths : List String} {path : String} {p : Place}

theorem touchesOnly_of_entry (located : s.locate path = .ok ⟨p, true⟩) (mem : path ∈ paths)
    (dirs : s.SameDirectories t) (rest : ∀ q ≠ p, t.entry? q = s.entry? q) :
    s.TouchesOnly paths t := by
  refine ⟨dirs, fun place changed => ⟨path, mem, ?_⟩⟩
  obtain rfl : place = p := by
    by_contra away
    exact changed (rest place away)
  exact located

theorem touchesOnly_put (located : s.locate path = .ok ⟨p, true⟩) (mem : path ∈ paths)
    (free : s.entry? p ≠ some .directory) (content : Content) :
    s.TouchesOnly paths (s.put p (.file content)) := by
  have proper := place_ne_nil located
  refine touchesOnly_of_entry located mem (sameDirectories_put proper content free) fun q away => ?_
  rw [entry?_put proper, if_neg away]

theorem touchesOnly_erase (located : s.locate path = .ok ⟨p, true⟩) (mem : path ∈ paths)
    (free : s.entry? p ≠ some .directory) : s.TouchesOnly paths (s.erase p) := by
  have proper := place_ne_nil located
  refine touchesOnly_of_entry located mem (sameDirectories_erase proper free) fun q away => ?_
  rw [entry?_erase proper, if_neg away]

theorem TouchesOnly.trans (h : s.TouchesOnly paths t) (k : t.TouchesOnly paths u) :
    s.TouchesOnly paths u := by
  refine ⟨h.directories.trans k.directories, fun place changed => ?_⟩
  by_cases same : t.entry? place = s.entry? place
  · obtain ⟨path, mem, located⟩ := k.place place (by rwa [same])
    exact ⟨path, mem, h.directories.symm.locate located⟩
  · exact h.place place same

theorem touchesOnly_outcome {r : Except FileError Store}
    (h : ∀ t, r = .ok t → s.TouchesOnly paths t) : s.TouchesOnly paths (s.outcome r).2 := by
  cases r with
  | ok t => exact h t rfl
  | error e => exact .refl paths s

end Store

/-! ### Queries -/

def FileQuery.targets : FileQuery → List String
  | create path | write path _ | remove path => [path]
  | rename path goal => [path, goal]
  | isFile _ | read _ | now => []

theorem Store.touchesOnly_reply (s : Store) (q : FileQuery) :
    s.TouchesOnly q.targets (s.reply q).2 := by
  cases q with
  | isFile path | read path | now => exact .refl _ s
  | create path =>
    refine touchesOnly_outcome fun t made => ?_
    obtain ⟨p, located, free, rfl⟩ := create_eq_ok_iff.mp made
    exact touchesOnly_put located (List.mem_singleton_self _) (by simp [free]) _
  | write path text =>
    refine touchesOnly_outcome fun t written => ?_
    obtain ⟨p, located, free, rfl⟩ := write_eq_ok_iff.mp written
    exact touchesOnly_put located (List.mem_singleton_self _) free _
  | remove path =>
    refine touchesOnly_outcome fun t removed => ?_
    obtain ⟨p, content, located, there, rfl⟩ := remove_eq_ok_iff.mp removed
    exact touchesOnly_erase located (List.mem_singleton_self _) (by simp [there])
  | rename path goal =>
    refine touchesOnly_outcome fun t moved => ?_
    obtain ⟨p, content, g, located, there, goalLocated, free, rfl⟩ := rename_eq_ok_iff.mp moved
    have erased : s.TouchesOnly [path, goal] (s.erase p) :=
      touchesOnly_erase located List.mem_cons_self (by simp [there])
    have dirs := erased.directories
    exact erased.trans (touchesOnly_put (dirs.locate goalLocated)
      (List.mem_cons_of_mem _ (List.mem_singleton_self _))
      (fun directory => free ((dirs.directory g).mpr directory)) content)

/-- The queries that a task can ask, whatever the replies. -/
inductive Asks {α : Type} : FileTask α → FileQuery → Prop
  | here {q : FileQuery} {next : q.Reply → FileTask α} : Asks (.ask q next) q
  | later {q asked : FileQuery} {next : q.Reply → FileTask α} {r : q.Reply} :
      Asks (next r) asked → Asks (.ask q next) asked

theorem Obeys.exists_permits {α : Type} {path : String} {licence : Licence}
    {post : Standing → α → Prop} {task : FileTask α} {st : Standing} {q : FileQuery}
    (obeys : Obeys path licence post task st) (asks : Asks task q) :
    ∃ st : Standing, st.Permits path licence q := by
  induction asks generalizing st with
  | here => exact ⟨st, obeys.1⟩
  | later _ ih => exact ih (obeys.2 _)

namespace CatalogHandle

/-- A task on a catalog changes no file but the document, its lock and its draft. -/
theorem exists_role_of_permits {path target : String} {licence : Licence} {st : Standing}
    {q : FileQuery} (permitted : st.Permits path licence q) (mem : target ∈ q.targets) :
    ∃ role : Role, target = role.path path := by
  cases st with
  | outside had =>
    cases q with
    | isFile p | read p | now => cases mem
    | create p =>
      obtain rfl := List.mem_singleton.mp mem
      exact ⟨.lock, permitted⟩
    | write _ _ | rename _ _ | remove _ => exact permitted.elim
  | inside seen =>
    cases q with
    | isFile p | read p | now => cases mem
    | create p => exact permitted.elim
    | write p text =>
      obtain rfl := List.mem_singleton.mp mem
      exact ⟨.draft, permitted.1⟩
    | rename p goal =>
      obtain ⟨draft, document, -⟩ := permitted
      rcases List.mem_cons.mp mem with rfl | mem
      · exact ⟨.draft, draft⟩
      · exact ⟨.document, (List.mem_singleton.mp mem).trans document⟩
    | remove p =>
      obtain rfl := List.mem_singleton.mp mem
      rcases permitted with lock | ⟨document, -⟩
      · exact ⟨.lock, lock⟩
      · exact ⟨.document, document⟩

def IsPlaceOf (s : Store) (directory name : String) (place : Place) : Prop :=
  ∃ folder role, s.placeOf directory = .ok folder ∧ place = Role.file name role :: folder

def AsksInside (directory name : String) {α : Type} (task : FileTask α) : Prop :=
  ∀ q, Asks task q → ∀ s place, Store.entry? (s.reply q).2 place ≠ s.entry? place →
    IsPlaceOf s directory name place

/-- A task that changes nothing but the files of a catalog in a directory: no query does that it can
ask, and no run. -/
structure StaysInside (directory name : String) {α : Type} (task : FileTask α) : Prop where
  query : AsksInside directory name task
  run : ∀ s place, Store.entry? (s.run task).2 place ≠ s.entry? place →
    IsPlaceOf s directory name place

variable {directory name : String} {s : Store} {place : Place}

theorem isPlaceOf_of_locate (plain : IsPlain name) {role : Role}
    (located : s.locate (role.path (pathOf directory name)) = .ok ⟨place, true⟩) :
    IsPlaceOf s directory name place := by
  have file := role.isFileName plain
  suffices ∃ folder, s.placeOf directory = .ok folder ∧ place = role.file name :: folder by
    obtain ⟨folder, led, same⟩ := this
    exact ⟨folder, role, led, same⟩
  cases role with
  | document =>
    rw [Role.path, pathOf_eq] at located
    exact Store.place_of_locate_join file located
  | draft =>
    rw [Role.path, draftPath_pathOf plain] at located
    exact Store.place_of_locate_join file located
  | lock =>
    rw [Role.path, lockPath_pathOf plain] at located
    obtain ⟨folder, led, same⟩ := Store.place_of_locate_join file located
    exact ⟨folder, Store.placeOf_tidy directory ▸ led, same⟩

theorem AsksInside.run {α : Type} {task : FileTask α} (query : AsksInside directory name task)
    (changed : Store.entry? (s.run task).2 place ≠ s.entry? place) :
    IsPlaceOf s directory name place := by
  induction task generalizing s with
  | done a => exact absurd rfl changed
  | ask q next ih =>
    by_cases same : Store.entry? (s.reply q).2 place = s.entry? place
    · obtain ⟨folder, role, led, below⟩ := ih (s.reply q).1 (s := (s.reply q).2)
        (fun asked asks => query asked (.later asks)) (by rwa [same])
      exact ⟨folder, role, (s.touchesOnly_reply q).directories.symm.placeOf_eq led, below⟩
    · exact query q .here s place same

/-- What keeps the discipline of the lock on a document stays inside its directory. -/
theorem StaysInside.of_obeys (plain : IsPlain name) {α : Type} {licence : Licence}
    {post : Standing → α → Prop} {task : FileTask α}
    (obeys : Obeys (pathOf directory name) licence post task (.outside false)) :
    StaysInside directory name task := by
  have query : AsksInside directory name task := by
    intro q asks s place changed
    obtain ⟨st, permitted⟩ := obeys.exists_permits asks
    obtain ⟨path, mem, located⟩ := (s.touchesOnly_reply q).place place changed
    obtain ⟨role, rfl⟩ := exists_role_of_permits permitted mem
    exact isPlaceOf_of_locate plain located
  exact ⟨query, fun s place changed => query.run changed⟩

end CatalogHandle

namespace CatalogDirectory

open CatalogHandle

variable {d : CatalogDirectory} {database path : String}

theorem exists_catalogName (h : d.catalogPath database = .ok path) :
    ∃ name, catalogName database = .ok name ∧ path = pathOf d.path name := by
  unfold catalogPath at h
  dsimp only at h
  split at h
  · cases h
  · obtain ⟨name, named, h⟩ := bind_eq_ok_iff.mp h
    exact ⟨name, named, (Except.ok.inj h).symm⟩

/-- The document of a catalog is a direct child of the directory, with the name that the database
has in a catalog, exactly if there is no slash in that name; and then a call that makes the catalog
or replaces it changes nothing but the document, its lock and its draft, all three direct children
of the directory. -/
theorem catalogPath_in_directory (h : d.catalogPath database = .ok path) :
    ∃ name, catalogName database = .ok name ∧ path = pathOf d.path name ∧
      (Path.fileName? path = some (name ++ ".jet.json") ∧ Path.parent path = Path.tidy d.path ↔
        IsPlain name) ∧
      (IsPlain name →
        (∀ overwrite, StaysInside d.path name (d.openOrCreate database overwrite).run) ∧
        ∀ s : Schema, s.name = database →
          (∀ overwrite, StaysInside d.path name (d.createDatabase s overwrite).run) ∧
          ∀ o, StaysInside d.path name (d.create s o).run) := by
  obtain ⟨name, named, rfl⟩ := exists_catalogName h
  have own := hasOwnLock (catalogPath_eq_ok h)
  refine ⟨name, named, rfl, isChild_pathOf_iff, fun plain => ⟨fun overwrite => ?_, ?_⟩⟩
  · exact .of_obeys plain (obeys_openOrCreate h own overwrite)
  · rintro s rfl
    exact ⟨fun overwrite => .of_obeys plain (obeys_createDatabase h own overwrite),
      fun o => .of_obeys plain (obeys_create h own o)⟩

theorem catalogPath_in_directory_shop :
    let d : CatalogDirectory := ⟨"d"⟩
    d.catalogPath "Shop" = .ok "d/shop.jet.json" ∧
      Path.fileName? "d/shop.jet.json" = some "shop.jet.json" ∧
      Path.parent "d/shop.jet.json" = Path.tidy "d" ∧
      StaysInside "d" "shop" (d.createDatabase { name := "Shop" } true).run := by
  intro d
  have found : d.catalogPath "Shop" = .ok "d/shop.jet.json" := eq_ok_of_toOption (by decide +kernel)
  obtain ⟨name, named, -, isChild, inside⟩ := catalogPath_in_directory found
  have stored : catalogName "Shop" = .ok "shop" := eq_ok_of_toOption (by decide +kernel)
  obtain rfl := Except.ok.inj (stored.symm.trans named)
  have plain : IsPlain "shop" := by
    unfold IsPlain
    decide
  obtain ⟨file, parent⟩ := isChild.mpr plain
  exact ⟨found, file, parent, ((inside plain).2 { name := "Shop" } rfl).1 true⟩

/-- A name with a way up: the document is no child of the directory, and a file beside the directory
is replaced. A name from the root leaves the directory aside. -/
theorem catalogPath_escapes :
    let d : CatalogDirectory := ⟨"d"⟩
    let s := (({ clock := .epoch } : Store).plant "d/keep" (.text "")).plant "x.jet.json"
      (.text "other")
    let r := s.run (d.createDatabase { name := "../x" } true).run
    ((catalogName "../x").toOption = some "../x" ∧
      (d.catalogPath "../x").toOption = some "d/../x.jet.json" ∧
      Path.fileName? "d/../x.jet.json" = some "x.jet.json" ∧
      Path.parent "d/../x.jet.json" = "d/..") ∧
    (d.catalogPath "/x").toOption = some "/x.jet.json" ∧
    r.1.isOk = true ∧ (s.placeOf "d").toOption = some ["d"] ∧
    s.entry? ["x.jet.json"] = some (.file (.text "other")) ∧
    Store.entry? r.2 ["x.jet.json"] ≠ s.entry? ["x.jet.json"] := by
  decide +kernel

end CatalogDirectory

end Tabular
