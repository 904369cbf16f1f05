import Tabular.Compilation
import Mathlib.Data.List.Forall2
import Mathlib.Data.List.Perm.Basic

/-!
Lists of outcomes, each a result or a fault. Elements are judged first, and what has no defect is
run; the results and the faults together account for every element once.
-/
namespace Tabular

section

variable {α β δ ε : Type}

/-! ### Lists side by side -/

theorem exists_of_forall₂_right {R : α → β → Prop} {xs : List α} {ys : List β} {y : β}
    (h : List.Forall₂ R xs ys) (hy : y ∈ ys) : ∃ x ∈ xs, R x y := by
  induction h with
  | nil => cases hy
  | @cons x z xs ys hxz _ ih =>
    rcases List.mem_cons.mp hy with rfl | hy
    · exact ⟨x, by simp, hxz⟩
    · obtain ⟨w, hw, hwy⟩ := ih hy
      exact ⟨w, by simp [hw], hwy⟩

theorem exists_of_forall₂_left {R : α → β → Prop} {xs : List α} {ys : List β} {x : α}
    (h : List.Forall₂ R xs ys) (hx : x ∈ xs) : ∃ y ∈ ys, R x y :=
  exists_of_forall₂_right h.flip hx

theorem forall₂_getElem? {R : α → β → Prop} {xs : List α} {ys : List β} {x : α} {i : Nat}
    (h : List.Forall₂ R xs ys) (hx : xs[i]? = some x) : ∃ y, ys[i]? = some y ∧ R x y := by
  induction h generalizing i with
  | nil => cases hx
  | cons head _ ih =>
    cases i with
    | zero =>
      obtain rfl := Option.some.inj hx
      exact ⟨_, rfl, head⟩
    | succ i => exact ih hx

/-- One element of a list changed: the others stay side by side with themselves. -/
theorem forall₂_set_right {R : α → α → Prop} (refl : ∀ x, R x x) {xs : List α} {i : Nat} {x y : α}
    (hx : xs[i]? = some x) (hxy : R x y) : List.Forall₂ R xs (xs.set i y) := by
  induction xs generalizing i with
  | nil => cases hx
  | cons z zs ih =>
    cases i with
    | zero =>
      obtain rfl : z = x := Option.some.inj hx
      exact .cons hxy (List.forall₂_same.mpr fun w _ => refl w)
    | succ i => exact .cons (refl z) (ih hx)

/-! ### Computations that may fail -/

theorem bind_eq_ok_iff {x : Except ε α} {f : α → Except ε β} {b : β} :
    x >>= f = .ok b ↔ ∃ a, x = .ok a ∧ f a = .ok b := by
  cases x with
  | error e => simp [bind, Except.bind]
  | ok a => simp [bind, Except.bind]

theorem bind_eq_error_iff {x : Except ε α} {f : α → Except ε β} {e : ε} :
    x >>= f = .error e ↔ x = .error e ∨ ∃ a, x = .ok a ∧ f a = .error e := by
  cases x with
  | error e => simp [bind, Except.bind]
  | ok a => simp [bind, Except.bind]

/-- To act on every element and keep an account of them is to act, and to account for them
afterwards. -/
theorem foldlM_account {m : Type → Type} [Monad m] [LawfulMonad m] {α β : Type}
    (act : α → m PUnit) (account : β → α → β) (xs : List α) (b : β) :
    xs.foldlM (fun b x => do act x; return account b x) b =
      (do xs.forM act; return xs.foldl account b) := by
  induction xs generalizing b with
  | nil => simp
  | cons x xs ih =>
    rw [List.foldlM_cons, bind_assoc]
    simp only [pure_bind, ih]
    exact (bind_assoc (act x) (fun _ => xs.forM act) _).symm

theorem eq_ok_of_toOption {x : Except ε α} {a : α} (h : x.toOption = some a) : x = .ok a := by
  cases x with
  | error e => cases h
  | ok b => exact congrArg Except.ok (Option.some.inj h)

theorem mapM_eq_ok_iff {f : α → Except ε β} {xs : List α} {ys : List β} :
    xs.mapM f = .ok ys ↔ List.Forall₂ (fun x y => f x = .ok y) xs ys := by
  induction xs generalizing ys with
  | nil => cases ys <;> simp [pure, Except.pure]
  | cons x xs ih =>
    rw [List.mapM_cons, bind_eq_ok_iff]
    constructor
    · rintro ⟨y, hy, h⟩
      obtain ⟨ys', hys, h⟩ := bind_eq_ok_iff.mp h
      obtain rfl : y :: ys' = ys := Except.ok.inj h
      exact .cons hy (ih.mp hys)
    · rintro (_ | ⟨hy, hys⟩)
      exact ⟨_, hy, bind_eq_ok_iff.mpr ⟨_, ih.mpr hys, rfl⟩⟩

theorem exists_mapM_eq_ok {f : α → Except ε β} {xs : List α} (h : ∀ x ∈ xs, ∃ y, f x = .ok y) :
    ∃ ys, xs.mapM f = .ok ys := by
  induction xs with
  | nil => exact ⟨[], rfl⟩
  | cons x xs ih =>
    obtain ⟨y, hy⟩ := h x (by simp)
    obtain ⟨ys, hys⟩ := ih fun z hz => h z (by simp [hz])
    exact ⟨y :: ys, mapM_eq_ok_iff.mpr (.cons hy (mapM_eq_ok_iff.mp hys))⟩

theorem exists_of_mem_of_mapM_eq_ok {f : α → Except ε β} {xs : List α} {ys : List β} {x : α}
    (h : xs.mapM f = .ok ys) (hx : x ∈ xs) : ∃ y ∈ ys, f x = .ok y := by
  obtain ⟨y, hy, hxy⟩ := exists_of_forall₂_left (mapM_eq_ok_iff.mp h) hx
  exact ⟨y, hy, hxy⟩

theorem exists_of_mem_results {f : α → Except ε β} {xs : List α} {ys : List β} {y : β}
    (h : xs.mapM f = .ok ys) (hy : y ∈ ys) : ∃ x ∈ xs, f x = .ok y := by
  obtain ⟨x, hx, hxy⟩ := exists_of_forall₂_right (mapM_eq_ok_iff.mp h) hy
  exact ⟨x, hx, hxy⟩

theorem exists_of_mapM_eq_error {f : α → Except ε β} {xs : List α} {e : ε}
    (h : xs.mapM f = .error e) : ∃ x ∈ xs, f x = .error e := by
  induction xs with
  | nil => cases h
  | cons x xs ih =>
    rw [List.mapM_cons] at h
    rcases bind_eq_error_iff.mp h with hx | ⟨y, -, h⟩
    · exact ⟨x, by simp, hx⟩
    · rcases bind_eq_error_iff.mp h with hxs | ⟨ys, -, h⟩
      · obtain ⟨z, hz, hf⟩ := ih hxs
        exact ⟨z, by simp [hz], hf⟩
      · cases h

/-! ### Results and faults -/

@[simp] theorem succeeded_cons_ok (b : β) (rs : List (Except ε β)) :
    succeeded (.ok b :: rs) = b :: succeeded rs := rfl

@[simp] theorem succeeded_cons_error (e : ε) (rs : List (Except ε β)) :
    succeeded (.error e :: rs) = succeeded rs := rfl

@[simp] theorem failed_cons_ok (b : β) (rs : List (Except ε β)) :
    failed (.ok b :: rs) = failed rs := rfl

@[simp] theorem failed_cons_error (e : ε) (rs : List (Except ε β)) :
    failed (.error e :: rs) = e :: failed rs := rfl

@[simp] theorem mem_succeeded_iff {b : β} {rs : List (Except ε β)} :
    b ∈ succeeded rs ↔ .ok b ∈ rs := by
  induction rs with
  | nil => simp [succeeded]
  | cons r rs ih => cases r <;> simp [ih]

@[simp] theorem mem_failed_iff {e : ε} {rs : List (Except ε β)} :
    e ∈ failed rs ↔ .error e ∈ rs := by
  induction rs with
  | nil => simp [failed]
  | cons r rs ih => cases r <;> simp [ih]

theorem length_failed_add_succeeded (rs : List (Except ε β)) :
    (failed rs).length + (succeeded rs).length = rs.length := by
  induction rs with
  | nil => rfl
  | cons r rs ih =>
    cases r with
    | error e => simp only [failed_cons_error, succeeded_cons_error, List.length_cons]; omega
    | ok b => simp only [failed_cons_ok, succeeded_cons_ok, List.length_cons]; omega

theorem failed_eq_nil {f : α → Except ε β} {xs : List α} (h : ∀ x ∈ xs, (f x).isOk = true) :
    failed (xs.map f) = [] := by
  apply List.eq_nil_iff_forall_not_mem.mpr
  intro e he
  obtain ⟨x, hx, hfx⟩ := List.mem_map.mp (mem_failed_iff.mp he)
  have ok := h x hx
  rw [hfx] at ok
  cases ok

/-! ### Judging before running -/

/-- The outcome of each element: the fault of its defect, or of what is run on it. -/
def judged (fault : α → δ → ε) (run : α → Except ε β) :
    List α → List (Option δ) → List (Except ε β)
  | x :: xs, some d :: ds => .error (fault x d) :: judged fault run xs ds
  | x :: xs, none :: ds => run x :: judged fault run xs ds
  | _, _ => []

@[simp] theorem sound_cons_some (x : α) (d : δ) (xs : List α) (ds : List (Option δ)) :
    Schema.sound (x :: xs) (some d :: ds) = Schema.sound xs ds := rfl

@[simp] theorem sound_cons_none (x : α) (xs : List α) (ds : List (Option δ)) :
    Schema.sound (x :: xs) (none :: ds) = x :: Schema.sound xs ds := rfl

variable {fault : α → δ → ε} {run : α → Except ε β}

theorem succeeded_judged (xs : List α) (ds : List (Option δ)) :
    succeeded (judged fault run xs ds) = succeeded ((Schema.sound xs ds).map run) := by
  induction xs generalizing ds with
  | nil => cases ds <;> rfl
  | cons x xs ih =>
    cases ds with
    | nil => rfl
    | cons d ds =>
      cases d with
      | some d => simpa [judged] using ih ds
      | none => cases h : run x <;> simpa [judged, h] using ih ds

theorem failed_judged_perm (xs : List α) (ds : List (Option δ)) :
    (failed (judged fault run xs ds)).Perm
      ((xs.zip ds).filterMap (fun p => p.2.map (fault p.1)) ++
        failed ((Schema.sound xs ds).map run)) := by
  induction xs generalizing ds with
  | nil => cases ds <;> exact .nil
  | cons x xs ih =>
    cases ds with
    | nil => exact .nil
    | cons d ds =>
      cases d with
      | some d => simpa [judged] using (ih ds).cons (fault x d)
      | none =>
        cases h : run x with
        | ok b => simpa [judged, h] using ih ds
        | error e =>
          simp only [judged, h, failed_cons_error, List.zip_cons_cons, List.filterMap_cons,
            Option.map_none, sound_cons_none, List.map_cons]
          exact ((ih ds).cons e).trans List.perm_middle.symm

theorem forall₂_judged {R : α → Except ε β → Prop} {xs : List α} {ds : List (Option δ)}
    (hlen : ds.length = xs.length) (hfault : ∀ x d, R x (.error (fault x d)))
    (hrun : ∀ x ∈ Schema.sound xs ds, R x (run x)) :
    List.Forall₂ R xs (judged fault run xs ds) := by
  induction xs generalizing ds with
  | nil => cases ds <;> exact .nil
  | cons x xs ih =>
    cases ds with
    | nil => simp at hlen
    | cons d ds =>
      have htail : ds.length = xs.length := by simpa using hlen
      cases d with
      | some d => exact .cons (hfault x d) (ih htail hrun)
      | none => exact .cons (hrun x (by simp)) (ih htail fun y hy => hrun y (by simp [hy]))

variable (fault) in
/-- The elements whose outcome is a result are those without a defect that run well. -/
theorem filter_isOk_zip_judged (xs : List α) (ds : List (Option δ)) :
    ((xs.zip (judged fault run xs ds)).filter (·.2.isOk)).map (·.1) =
      (Schema.sound xs ds).filter fun x => (run x).isOk := by
  induction xs generalizing ds with
  | nil => cases ds <;> rfl
  | cons x xs ih =>
    cases ds with
    | nil => rfl
    | cons d ds =>
      cases d with
      | some d => simpa [judged, Except.isOk, Except.toBool] using ih ds
      | none => cases h : run x <;> simpa [judged, h, Except.isOk, Except.toBool] using ih ds

end

end Tabular
