import Tabular.Files.Store
import Mathlib.Data.List.TakeWhile

/-!
What a store keeps. Where a path leads depends on the directories alone, so a file that is written
or removed leaves every other file where it was; and two paths that end in different names never
lead to one file.
-/
namespace Tabular

namespace Path

def base (cs : List Char) : List Char := (cs.reverse.takeWhile (· != '/')).reverse

theorem base_of_notMem {cs : List Char} (h : '/' ∉ cs) : base cs = cs := by
  have all : ∀ c ∈ cs.reverse, (c != '/') = true := by
    intro c hc
    rw [bne_iff_ne]
    rintro rfl
    exact h (List.mem_reverse.mp hc)
  unfold base
  rw [List.takeWhile_eq_self_iff.mpr all, List.reverse_reverse]

theorem base_append (front cs : List Char) : base (front ++ '/' :: cs) = base cs := by
  unfold base
  rw [List.reverse_append, List.reverse_cons, List.append_assoc, List.takeWhile_append]
  split
  · next whole =>
    have all : cs.reverse.takeWhile (· != '/') = cs.reverse :=
      (List.takeWhile_prefix _).eq_of_length whole
    simp [all]
  · rfl

theorem components_eq_splitOn (cs : List Char) : components cs = cs.splitOn '/' := by
  induction cs with
  | nil => rfl
  | cons c cs ih =>
    rw [List.splitOn_cons_eq_if_modifyHead, ← ih, components]
    by_cases slash : c = '/'
    · simp [slash]
    · rw [if_neg slash, if_neg (by simpa using slash)]
      cases h : components cs with
      | nil => exact absurd (ih.symm.trans h) (List.splitOn_ne_nil _ _)
      | cons p ps => rfl

theorem getLast?_splitOn_append (front cs : List Char) :
    ((front ++ '/' :: cs).splitOn '/').getLast? = (cs.splitOn '/').getLast? := by
  rw [List.splitOn_append_cons_self, List.getLast?_append]
  cases h : (cs.splitOn '/').getLast? with
  | none => exact absurd (List.getLast?_eq_none_iff.mp h) (List.splitOn_ne_nil _ _)
  | some last => rfl

/-- The last component is what stands behind the last slash. -/
theorem getLast?_components (cs : List Char) : (components cs).getLast? = some (base cs) := by
  rw [components_eq_splitOn]
  induction cs with
  | nil => rfl
  | cons c cs ih =>
    by_cases slash : '/' ∈ cs
    · obtain ⟨front, rest, rfl⟩ := List.append_of_mem slash
      rw [base_append, getLast?_splitOn_append] at ih
      rw [← List.cons_append, base_append, getLast?_splitOn_append, ih]
    · by_cases first : c = '/'
      · rw [first]
        exact (getLast?_splitOn_append [] cs).trans
          (ih.trans (congrArg some (base_append [] cs).symm))
      · have plain : '/' ∉ c :: cs := by simp [slash, Ne.symm first]
        rw [List.splitOn_eq_singleton plain, base_of_notMem plain]
        rfl

/-- What stands behind the last slash ends as the path does. -/
theorem getLast?_base {cs : List Char} {c : Char} (h : cs.getLast? = some c) (hc : c ≠ '/') :
    (base cs).getLast? = some c := by
  obtain ⟨front, rfl⟩ := List.getLast?_eq_some_iff.mp h
  simp [base, hc]

end Path

namespace Store

/-! ### Entries -/

theorem find?_filter_ne (es : List (Place × Entry)) (p q : Place) :
    (es.filter (·.1 != p)).find? (·.1 == q) = if q = p then none else es.find? (·.1 == q) := by
  induction es with
  | nil => simp
  | cons e es ih =>
    by_cases hp : e.1 = p
    · rw [List.filter_cons_of_neg (by simpa using hp), ih, List.find?_cons]
      split
      · rfl
      · next other => rw [(beq_eq_false_iff_ne).mpr fun h : e.1 = q => other (h.symm.trans hp)]
    · rw [List.filter_cons_of_pos (by simpa using hp), List.find?_cons, List.find?_cons, ih]
      by_cases hq : e.1 = q
      · have other : q ≠ p := fun h => hp (hq.trans h)
        simp only [beq_iff_eq.mpr hq, if_neg other]
      · simp only [beq_eq_false_iff_ne.mpr hq]

theorem entry?_put {p : Place} (hp : p ≠ []) (s : Store) (e : Entry) (q : Place) :
    entry? (s.put p e) q = if q = p then some e else s.entry? q := by
  unfold entry? put
  cases q with
  | nil => simp [Ne.symm hp]
  | cons name rest =>
    simp only [List.isEmpty_cons, Bool.false_eq_true, if_false, List.find?_append,
      find?_filter_ne]
    by_cases same : name :: rest = p
    · simp [same]
    · simp [same, Ne.symm same]

theorem entry?_erase {p : Place} (hp : p ≠ []) (s : Store) (q : Place) :
    entry? (s.erase p) q = if q = p then none else s.entry? q := by
  unfold entry? erase
  cases q with
  | nil => simp [Ne.symm hp]
  | cons name rest =>
    simp only [List.isEmpty_cons, Bool.false_eq_true, if_false, find?_filter_ne]
    split <;> rfl

/-! ### Directories -/

/-- The same places are directories, and the working directory is the same. -/
structure SameDirectories (s t : Store) : Prop where
  home : s.home = t.home
  directory : ∀ p, s.entry? p = some .directory ↔ t.entry? p = some .directory

theorem SameDirectories.refl (s : Store) : s.SameDirectories s := ⟨rfl, fun _ => Iff.rfl⟩

variable {s t u : Store}

theorem SameDirectories.symm (h : s.SameDirectories t) : t.SameDirectories s :=
  ⟨h.home.symm, fun p => (h.directory p).symm⟩

theorem SameDirectories.trans (h : s.SameDirectories t) (k : t.SameDirectories u) :
    s.SameDirectories u :=
  ⟨h.home.trans k.home, fun p => (h.directory p).trans (k.directory p)⟩

theorem sameDirectories_put {p : Place} (hp : p ≠ []) (content : Content)
    (hs : s.entry? p ≠ some .directory) : s.SameDirectories (s.put p (.file content)) := by
  refine ⟨rfl, fun q => ?_⟩
  rw [entry?_put hp]
  split
  · next same => simp [same, hs]
  · rfl

theorem sameDirectories_erase {p : Place} (hp : p ≠ []) (hs : s.entry? p ≠ some .directory) :
    s.SameDirectories (s.erase p) := by
  refine ⟨rfl, fun q => ?_⟩
  rw [entry?_erase hp]
  split
  · next same => simp [same, hs]
  · rfl

theorem SameDirectories.follow (h : s.SameDirectories t) {p q : Place} {cs : List (List Char)}
    (hs : s.follow p cs = .ok q) : t.follow p cs = .ok q := by
  induction cs generalizing p with
  | nil => exact hs
  | cons c cs ih =>
    unfold Store.follow at hs ⊢
    split at hs
    · cases hs
    · cases hs
    · next directory =>
      rw [(h.directory p).mp directory]
      dsimp only
      split at hs
      · next idle => simpa only [idle, if_true] using ih hs
      · next idle =>
        rw [if_neg idle]
        split at hs
        · next up => simpa only [up, if_true] using ih hs
        · next up =>
          rw [if_neg up]
          split at hs
          · cases hs
          · next short => rw [if_neg short]; exact ih hs

theorem SameDirectories.locate (h : s.SameDirectories t) {path : String} {target : Target}
    (hs : s.locate path = .ok target) : t.locate path = .ok target := by
  unfold Store.locate at hs ⊢
  rw [← h.home]
  split at hs
  · cases hs
  · next valid =>
    rw [if_neg valid]
    split at hs
    · cases hs
    · next filled =>
      rw [if_neg filled]
      split at hs
      · cases hs
      · next short =>
        rw [if_neg short]
        dsimp only at hs ⊢
        cases hf : s.follow (if (path.toList.head? == some '/') = true then [] else s.home)
            (Path.components (path.toList.reverse.dropWhile (· == '/')).reverse) with
        | error e => rw [hf] at hs; cases hs
        | ok place => rw [h.follow hf]; rw [hf] at hs; exact hs

/-! ### Named places -/

theorem follow_named {p q : Place} {cs : List (List Char)} {c : List Char}
    (hidle : Path.isIdle c = false) (hup : (c == ['.', '.']) = false)
    (h : s.follow p (cs ++ [c]) = .ok q) : ∃ rest, q = String.ofList c :: rest := by
  induction cs generalizing p with
  | nil =>
    rw [List.nil_append] at h
    unfold follow at h
    split at h
    · cases h
    · cases h
    · simp only [hidle, hup, Bool.false_eq_true, if_false] at h
      split at h
      · cases h
      · exact ⟨p, (Except.ok.inj h).symm⟩
  | cons d ds ih =>
    rw [List.cons_append] at h
    unfold follow at h
    split at h
    · cases h
    · cases h
    · split at h
      · exact ih h
      · split at h
        · exact ih h
        · split at h
          · cases h
          · exact ih h

/-- A path to a named place is followed to its last component, which is the name. -/
theorem follow_of_locate {path : String} {p : Place} (h : s.locate path = .ok ⟨p, true⟩) :
    s.follow (if path.toList.head? == some '/' then [] else s.home)
        (Path.components path.toList) = .ok p ∧
      Path.isIdle (Path.base path.toList) = false ∧ Path.base path.toList ≠ ['.', '.'] := by
  unfold locate at h
  split at h
  · cases h
  split at h
  · cases h
  next filled =>
  split at h
  · cases h
  dsimp only at h
  cases followed : s.follow (if (path.toList.head? == some '/') = true then [] else s.home)
      (Path.components (path.toList.reverse.dropWhile (· == '/')).reverse) with
  | error e => rw [followed] at h; cases h
  | ok place =>
  rw [followed] at h
  obtain ⟨rfl, named⟩ := Target.mk.inj (Except.ok.inj h)
  rw [Bool.and_eq_true, bne_iff_ne] at named
  obtain ⟨proper, noSlash⟩ := named
  have nonempty : path.toList ≠ [] := by
    simpa [String.isEmpty_iff, ← String.toList_eq_nil_iff] using filled
  have whole : (path.toList.reverse.dropWhile (· == '/')).reverse = path.toList := by
    have head : path.toList.reverse.head? ≠ some '/' := by rwa [List.head?_reverse]
    cases hr : path.toList.reverse with
    | nil => exact absurd (List.reverse_eq_nil_iff.mp hr) nonempty
    | cons d ds =>
      have hd : d ≠ '/' := by simpa [hr] using head
      rw [List.dropWhile_cons_of_neg (by simpa using hd), ← hr, List.reverse_reverse]
  rw [whole] at followed proper
  rw [Path.getLast?_components, Option.any_some, Bool.and_eq_true, bne_iff_ne] at proper
  exact ⟨followed, by simpa using proper.1, proper.2⟩

/-- A path to a named place ends in the name. -/
theorem locate_named {path : String} {target : Target} (h : s.locate path = .ok target)
    (named : target.isNamed = true) :
    ∃ rest, target.place = String.ofList (Path.base path.toList) :: rest := by
  obtain ⟨place, _⟩ := target
  obtain rfl : _ = true := named
  obtain ⟨followed, proper, notUp⟩ := follow_of_locate h
  obtain ⟨front, hfront⟩ := List.getLast?_eq_some_iff.mp (Path.getLast?_components path.toList)
  rw [hfront] at followed
  exact follow_named proper (beq_eq_false_iff_ne.mpr notUp) followed

theorem place_ne_nil {path : String} {p : Place} (h : s.locate path = .ok ⟨p, true⟩) : p ≠ [] := by
  obtain ⟨rest, hp⟩ := locate_named h rfl
  simp only at hp
  simp [hp]

/-- Paths that end in different names lead to different places. -/
theorem place_ne {path other : String} {p q : Place} (hp : s.locate path = .ok ⟨p, true⟩)
    (hq : s.locate other = .ok ⟨q, true⟩)
    (names : Path.base path.toList ≠ Path.base other.toList) : p ≠ q := by
  obtain ⟨rest, rfl⟩ := locate_named hp rfl
  obtain ⟨rest', rfl⟩ := locate_named hq rfl
  rintro same
  exact names (String.ofList_injective (List.cons.inj same).1)

/-! ### Steps -/

theorem lookUp_eq_file_iff {path : String} {p : Place} {content : Content} :
    s.lookUp path = .ok (p, .file content) ↔
      s.locate path = .ok ⟨p, true⟩ ∧ s.entry? p = some (.file content) := by
  unfold lookUp
  cases hl : s.locate path with
  | error e => simp [bind, Except.bind]
  | ok target =>
    obtain ⟨place, named⟩ := target
    simp only [bind, Except.bind]
    split
    · next none =>
      constructor
      · intro h; cases h
      · rintro ⟨h, he⟩
        obtain ⟨rfl, -⟩ := Target.mk.inj (Except.ok.inj h)
        rw [none] at he
        cases he
    · next directory =>
      constructor
      · intro h; cases h
      · rintro ⟨h, he⟩
        obtain ⟨rfl, -⟩ := Target.mk.inj (Except.ok.inj h)
        rw [directory] at he
        cases he
    · next file =>
      cases named with
      | false =>
        constructor
        · intro h; cases h
        · rintro ⟨h, -⟩; cases h
      | true =>
        constructor
        · intro h
          obtain ⟨rfl, same⟩ := Prod.mk.inj (Except.ok.inj h)
          exact ⟨rfl, by rw [file, same]⟩
        · rintro ⟨h, he⟩
          obtain ⟨rfl, -⟩ := Target.mk.inj (Except.ok.inj h)
          rw [file] at he
          rw [Option.some.inj he]
          rfl

theorem locateFile_eq_ok_iff {path : String} {p : Place} :
    s.locateFile path = .ok p ↔ s.locate path = .ok ⟨p, true⟩ := by
  unfold locateFile
  cases s.locate path with
  | error e => simp [bind, Except.bind]
  | ok target =>
    obtain ⟨place, _ | _⟩ := target
    · simp [bind, Except.bind, throw, throwThe, MonadExceptOf.throw]
    · simp [bind, Except.bind, pure, Except.pure]

theorem isFile_iff {path : String} :
    s.isFile path = true ↔
      ∃ p content, s.locate path = .ok ⟨p, true⟩ ∧ s.entry? p = some (.file content) := by
  unfold isFile
  constructor
  · intro h
    split at h
    · next p content hl => exact ⟨p, content, lookUp_eq_file_iff.mp hl⟩
    · cases h
  · rintro ⟨p, content, h⟩
    rw [lookUp_eq_file_iff.mpr h]

theorem read_eq_ok_iff {path text : String} :
    s.read path = .ok text ↔
      ∃ p, s.locate path = .ok ⟨p, true⟩ ∧ s.entry? p = some (.file (.text text)) := by
  unfold read
  constructor
  · intro h
    cases hl : s.lookUp path with
    | error e => rw [hl] at h; cases h
    | ok found =>
      obtain ⟨p, _ | (t | _)⟩ := found
      · rw [hl] at h; cases h
      · rw [hl] at h
        obtain rfl : t = text := Except.ok.inj h
        exact ⟨p, lookUp_eq_file_iff.mp hl⟩
      · rw [hl] at h; cases h
  · rintro ⟨p, h⟩
    rw [lookUp_eq_file_iff.mpr h]
    rfl

theorem create_eq_ok_iff {path : String} :
    s.create path = .ok t ↔
      ∃ p, s.locate path = .ok ⟨p, true⟩ ∧ s.entry? p = none ∧ s.put p (.file (.text "")) = t := by
  unfold create
  constructor
  · intro h
    cases hl : s.locateFile path with
    | error e => rw [hl] at h; cases h
    | ok p =>
      rw [hl] at h
      simp only [bind, Except.bind] at h
      split at h
      · cases h
      · next free => exact ⟨p, locateFile_eq_ok_iff.mp hl, free, Except.ok.inj h⟩
  · rintro ⟨p, hl, free, rfl⟩
    simp only [locateFile_eq_ok_iff.mpr hl, bind, Except.bind, free]
    rfl

theorem write_eq_ok_iff {path : String} {content : Content} :
    s.write path content = .ok t ↔
      ∃ p, s.locate path = .ok ⟨p, true⟩ ∧ s.entry? p ≠ some .directory ∧
        s.put p (.file content) = t := by
  unfold write
  constructor
  · intro h
    cases hl : s.locateFile path with
    | error e => rw [hl] at h; cases h
    | ok p =>
      rw [hl] at h
      simp only [bind, Except.bind] at h
      split at h
      · cases h
      · next other => exact ⟨p, locateFile_eq_ok_iff.mp hl, other, Except.ok.inj h⟩
  · rintro ⟨p, hl, other, rfl⟩
    simp only [locateFile_eq_ok_iff.mpr hl, bind, Except.bind]
    rfl

theorem remove_eq_ok_iff {path : String} :
    s.remove path = .ok t ↔
      ∃ p content, s.locate path = .ok ⟨p, true⟩ ∧ s.entry? p = some (.file content) ∧
        s.erase p = t := by
  unfold remove
  constructor
  · intro h
    cases hl : s.lookUp path with
    | error e => rw [hl] at h; cases h
    | ok found =>
      obtain ⟨p, _ | content⟩ := found
      · rw [hl] at h; cases h
      · rw [hl] at h
        obtain ⟨hp, he⟩ := lookUp_eq_file_iff.mp hl
        exact ⟨p, content, hp, he, Except.ok.inj h⟩
  · rintro ⟨p, content, hp, he, rfl⟩
    rw [lookUp_eq_file_iff.mpr ⟨hp, he⟩]
    rfl

theorem rename_eq_ok_iff {path goal : String} :
    s.rename path goal = .ok t ↔
      ∃ p content q, s.locate path = .ok ⟨p, true⟩ ∧ s.entry? p = some (.file content) ∧
        s.locate goal = .ok ⟨q, true⟩ ∧ s.entry? q ≠ some .directory ∧
        (s.erase p).put q (.file content) = t := by
  unfold rename
  constructor
  · intro h
    cases hl : s.lookUp path with
    | error e => rw [hl] at h; cases h
    | ok found =>
      obtain ⟨p, _ | content⟩ := found
      · rw [hl] at h; cases h
      · rw [hl] at h
        obtain ⟨hp, he⟩ := lookUp_eq_file_iff.mp hl
        simp only [bind, Except.bind] at h
        cases hg : s.locate goal with
        | error e => rw [hg] at h; cases h
        | ok target =>
          obtain ⟨q, _ | _⟩ := target
          · rw [hg] at h; cases h
          · rw [hg] at h
            dsimp only [Bool.not_true, Bool.false_eq_true, if_false] at h
            split at h
            · cases h
            · split at h
              · cases h
              · next other => exact ⟨p, content, q, hp, he, rfl, other, Except.ok.inj h⟩
  · rintro ⟨p, content, q, hp, he, hg, other, rfl⟩
    simp only [lookUp_eq_file_iff.mpr ⟨hp, he⟩, bind, Except.bind, hg, Bool.not_true,
      Bool.false_eq_true, if_false]
    rfl

end Store

end Tabular
