import Tabular.Proofs.Structure

/-!
Catalogs that differ in the spelling of names. Names of tables, and the names that keys and calls
give to tables and columns, may differ in ASCII case; columns are called alike. What defines tables
and keys goes the same way in two such catalogs, whatever rows they hold.
-/
namespace Tabular

/-! ### Outcomes side by side -/

/-- Do two outcomes agree: results that are related, or errors with one code? -/
inductive Agree {ε κ α β : Type} (code : ε → κ) (R : α → β → Prop) :
    Except ε α → Except ε β → Prop where
  | ok {a : α} {b : β} (related : R a b) : Agree code R (.ok a) (.ok b)
  | error {e f : ε} (same : code f = code e) : Agree code R (.error e) (.error f)

namespace Agree

variable {ε κ α β γ δ : Type} {code : ε → κ} {R : α → β → Prop} {S : γ → δ → Prop}
  {x : Except ε α} {y : Except ε β}

theorem bind {f : α → Except ε γ} {g : β → Except ε δ} (h : Agree code R x y)
    (next : ∀ a b, R a b → Agree code S (f a) (g b)) : Agree code S (x >>= f) (y >>= g) := by
  cases h with
  | ok related => exact next _ _ related
  | error same => exact .error same

theorem map {f : α → γ} {g : β → δ} (h : Agree code R x y) (next : ∀ a b, R a b → S (f a) (g b)) :
    Agree code S (x.map f) (y.map g) := by
  cases h with
  | ok related => exact .ok (next _ _ related)
  | error same => exact .error same

/-- Where one side succeeds, so does the other. -/
theorem exists_ok {a : α} (h : Agree code R x y) (hx : x = .ok a) : ∃ b, y = .ok b ∧ R a b := by
  subst hx
  cases h with
  | ok related => exact ⟨_, rfl, related⟩

end Agree

/-! ### Lists side by side -/

section

variable {α β : Type} {R : α → β → Prop} {xs : List α} {ys : List β}

theorem forall₂_any {p : α → Bool} {q : β → Bool} (h : List.Forall₂ R xs ys)
    (same : ∀ x y, R x y → q y = p x) : ys.any q = xs.any p := by
  induction h with
  | nil => rfl
  | cons hxy _ ih => rw [List.any_cons, List.any_cons, same _ _ hxy, ih]

theorem forall₂_find? {p : α → Bool} {q : β → Bool} (h : List.Forall₂ R xs ys)
    (same : ∀ x y, R x y → q y = p x) : Option.Rel R (xs.find? p) (ys.find? q) := by
  induction h with
  | nil => exact .none
  | @cons x y xs ys hxy _ ih =>
    rw [List.find?_cons, List.find?_cons, same x y hxy]
    cases p x with
    | true => exact .some hxy
    | false => exact ih

theorem forall₂_zipIdx (h : List.Forall₂ R xs ys) (n : Nat) :
    List.Forall₂ (fun x y => R x.1 y.1 ∧ y.2 = x.2) (xs.zipIdx n) (ys.zipIdx n) := by
  induction h generalizing n with
  | nil => exact .nil
  | cons hxy _ ih =>
    rw [List.zipIdx_cons, List.zipIdx_cons]
    exact .cons ⟨hxy, rfl⟩ (ih (n + 1))

theorem forall₂_set {x : α} {y : β} (h : List.Forall₂ R xs ys) (hxy : R x y) (i : Nat) :
    List.Forall₂ R (xs.set i x) (ys.set i y) := by
  induction h generalizing i with
  | nil => exact .nil
  | cons head tail ih =>
    cases i with
    | zero => exact .cons hxy tail
    | succ i => exact .cons head (ih i)

theorem forall₂_eraseIdx (h : List.Forall₂ R xs ys) (i : Nat) :
    List.Forall₂ R (xs.eraseIdx i) (ys.eraseIdx i) := by
  rw [List.eraseIdx_eq_take_drop_succ, List.eraseIdx_eq_take_drop_succ]
  exact List.rel_append (List.forall₂_take i h) (List.forall₂_drop (i + 1) h)

variable {x : Option α} {y : Option β}

theorem rel_isSome (h : Option.Rel R x y) : y.isSome = x.isSome := by
  cases h <;> rfl

theorem rel_any {p : α → Bool} {q : β → Bool} (h : Option.Rel R x y)
    (same : ∀ x y, R x y → q y = p x) : y.any q = x.any p := by
  cases h with
  | none => rfl
  | some hxy => exact same _ _ hxy

theorem rel_getD {a : α} {b : β} (h : Option.Rel R x y) (default_ : R a b) :
    R (x.getD a) (y.getD b) := by
  cases h with
  | none => exact default_
  | some hxy => exact hxy

end

/-! ### Names -/

def SameNames (xs ys : List String) : Prop := List.Forall₂ (sameName · · = true) xs ys

theorem sameName_congr {a b c d : String} (h : sameName a b = true) (k : sameName c d = true) :
    sameName b d = sameName a c := by
  rw [sameName_iff] at h k
  unfold sameName
  rw [h, k]

/-- Names are paired off in the same way in any spelling. -/
theorem all_zip_sameNames {xs ys zs ws : List String} (h : SameNames xs ys) (k : SameNames zs ws) :
    ((ys.zip ws).all fun p => sameName p.1 p.2) = (xs.zip zs).all fun p => sameName p.1 p.2 := by
  induction h generalizing zs ws with
  | nil => rfl
  | cons head _ ih =>
    cases k with
    | nil => rfl
    | cons head' tail' =>
      rw [List.zip_cons_cons, List.zip_cons_cons, List.all_cons, List.all_cons,
        sameName_congr head head', ih tail']

/-! ### Keys -/

/-- Two keys that differ in the case of names only, and not at all in the names of their columns if
`exact` holds. -/
structure StoredKey.Respells (exact : Prop) (k l : StoredKey) : Prop where
  name : sameName k.name l.name = true
  kind : l.kind = k.kind
  columns : SameNames k.columns l.columns
  relatedTable : Option.Rel (sameName · · = true) k.relatedTable l.relatedTable
  relatedColumns : SameNames k.relatedColumns l.relatedColumns
  deleteRule : l.deleteRule = k.deleteRule
  updateRule : l.updateRule = k.updateRule
  spelled : exact → l.columns = k.columns ∧ l.relatedColumns = k.relatedColumns

namespace StoredKey.Respells

variable {exact : Prop} {k l : StoredKey}

theorem isPrimary (h : k.Respells exact l) : l.isPrimary = k.isPrimary := by
  rw [StoredKey.isPrimary, h.kind, StoredKey.isPrimary]

theorem isForeign (h : k.Respells exact l) : l.isForeign = k.isForeign := by
  rw [StoredKey.isForeign, h.kind, StoredKey.isForeign]

theorem target (h : k.Respells exact l) : sameName k.target l.target = true :=
  rel_getD h.relatedTable (sameName_refl "")

theorem refersTo {n m : String} (h : k.Respells exact l) (same : sameName n m = true) :
    l.refersTo m = k.refersTo n := by
  unfold StoredKey.refersTo
  rw [h.isForeign, rel_any h.relatedTable fun _ _ related => sameName_congr related same]

theorem refl (exact : Prop) (k : StoredKey) : k.Respells exact k where
  name := sameName_refl _
  kind := rfl
  columns := List.forall₂_same.mpr fun a _ => sameName_refl a
  relatedTable := by
    cases k.relatedTable with
    | none => exact .none
    | some a => exact .some (sameName_refl a)
  relatedColumns := List.forall₂_same.mpr fun a _ => sameName_refl a
  deleteRule := rfl
  updateRule := rfl
  spelled := fun _ => ⟨rfl, rfl⟩

end StoredKey.Respells

/-! ### Tables -/

/-- Two tables that differ in the case of names only; with equal columns, and with equal rows if
`exact` holds. -/
structure StoredTable.Respells (exact : Prop) (t u : StoredTable) : Prop where
  name : sameName t.name u.name = true
  columns : u.columns = t.columns
  keys : List.Forall₂ (StoredKey.Respells exact) t.keys u.keys
  rows : exact → u.rows = t.rows

namespace StoredTable.Respells

variable {exact : Prop} {t u : StoredTable} {k l : StoredKey} {n m : String}

theorem column? (h : t.Respells exact u) (same : sameName n m = true) :
    u.column? m = t.column? n := by
  unfold StoredTable.column?
  rw [h.columns]
  congr 1
  funext column
  exact sameName_congr (sameName_refl column.name) same

theorem primaryKey? (h : t.Respells exact u) :
    Option.Rel (StoredKey.Respells exact) t.primaryKey? u.primaryKey? :=
  forall₂_find? h.keys fun _ _ same => same.isPrimary

theorem foreignKeys (h : t.Respells exact u) :
    List.Forall₂ (StoredKey.Respells exact) t.foreignKeys u.foreignKeys :=
  List.rel_filter (fun _ _ same => iff_of_eq (congrArg (· = true) same.isForeign.symm)) h.keys

theorem withoutKeysTo (h : t.Respells exact u) (same : sameName n m = true) :
    (t.withoutKeysTo n).Respells exact (u.withoutKeysTo m) where
  name := h.name
  columns := h.columns
  keys := List.rel_filter
    (fun _ _ key => iff_of_eq (congrArg (fun b : Bool => (!b) = true) (key.refersTo same).symm))
    h.keys
  rows := h.rows

/-- The first of some columns that a table has not is at the same place in any spelling. -/
theorem find?_missing {xs ys : List String} (h : t.Respells exact u) (same : SameNames xs ys) :
    Option.Rel (sameName · · = true) (xs.find? fun name => (t.column? name).isNone)
      (ys.find? fun name => (u.column? name).isNone) :=
  forall₂_find? same fun _ _ spelled => by rw [h.column? spelled]

theorem withKey (h : t.Respells exact u) (key : k.Respells exact l) :
    (t.withKey k).Respells exact (u.withKey l) := by
  have keys : List.Forall₂ (StoredKey.Respells exact) (t.keys ++ [k]) (u.keys ++ [l]) :=
    List.rel_append h.keys (.cons key .nil)
  unfold StoredTable.withKey
  rw [key.kind]
  cases k.kind with
  | primary =>
    refine ⟨h.name, ?_, keys, h.rows⟩
    unfold Catalog.requireColumns
    rw [h.columns]
    refine List.map_congr_left fun column _ => ?_
    have named : l.columns.any (sameName · column.name) = k.columns.any (sameName · column.name) :=
      forall₂_any key.columns fun _ _ same => sameName_congr same (sameName_refl column.name)
    rw [named]
  | foreign => exact ⟨h.name, h.columns, keys, h.rows⟩

/-- Tables that differ in their rows, too. -/
theorem of_sameFrame {t' u' : StoredTable} (h : t.Respells False u) (ht : t.SameFrame t')
    (hu : u.SameFrame u') : t'.Respells False u' := by
  rw [ht, hu]
  exact ⟨h.name, h.columns, h.keys, False.elim⟩

end StoredTable.Respells

/-! ### Catalogs -/

namespace Catalog

def Respells (exact : Prop) (c d : Catalog) : Prop :=
  List.Forall₂ (StoredTable.Respells exact) c.tables d.tables

namespace Respells

variable {exact : Prop} {c d : Catalog} {n m : String}

theorem locate (h : c.Respells exact d) (same : sameName n m = true) :
    Agree Refusal.code (fun p q => q.1 = p.1 ∧ p.2.Respells exact q.2) (c.locate n)
      (d.locate m) := by
  have found := forall₂_find? (p := (sameName ·.1.name n)) (q := (sameName ·.1.name m))
    (forall₂_zipIdx h 0) fun x y related => sameName_congr related.1.name same
  unfold Catalog.locate
  generalize c.tables.zipIdx.find? _ = x at found ⊢
  generalize d.tables.zipIdx.find? _ = y at found ⊢
  cases found with
  | none => exact .error rfl
  | some related => exact .ok ⟨related.2, related.1⟩

theorem replace {t u : StoredTable} (h : c.Respells exact d) (table : t.Respells exact u)
    (i : Nat) : (c.replace i t).Respells exact (d.replace i u) :=
  forall₂_set h table i

theorem firstRepeated?_isSome {α : Type} {R : α → α → Prop} (same : α → α → Bool)
    (congr : ∀ x y z w, R x y → R z w → same y w = same x z) {seen seen' xs ys : List α}
    (before : List.Forall₂ R seen seen') (h : List.Forall₂ R xs ys) :
    (firstRepeated? same seen' ys).isSome = (firstRepeated? same seen xs).isSome := by
  induction h generalizing seen seen' with
  | nil => rfl
  | cons head _ ih =>
    unfold firstRepeated?
    rw [forall₂_any before fun _ _ related => congr _ _ _ _ related head]
    split
    · rfl
    · exact ih (List.rel_append before (.cons head .nil))

/-- A table is made in both catalogs or in neither. -/
theorem appendTable {xs ys : List StoredColumn} (h : c.Respells exact d)
    (same : sameName n m = true)
    (columns : List.Forall₂ (fun x y => sameName x.name y.name = true) xs ys)
    (alike : (c.appendTable n xs).isOk = true → ys = xs) :
    Agree Refusal.code (Respells exact) (c.appendTable n xs) (d.appendTable m ys) := by
  have taken : (d.table? m).isSome = (c.table? n).isSome :=
    rel_isSome (forall₂_find? h fun t u table => sameName_congr table.name same)
  have repeated := firstRepeated?_isSome (fun a b => sameName a.name b.name)
    (fun _ _ _ _ => sameName_congr) .nil columns
  -- Columns need to be equal only if they come to be, after both checks of names.
  unfold Catalog.appendTable at alike ⊢
  rw [taken]
  split
  · exact .error rfl
  · next free =>
    rw [if_neg free] at alike
    cases hx : firstRepeated? (fun a b : StoredColumn => sameName a.name b.name) [] xs with
    | some x =>
      rw [hx] at repeated
      obtain ⟨y, hy⟩ := Option.isSome_iff_exists.mp repeated
      rw [hy]
      exact .error rfl
    | none =>
      rw [hx] at alike
      rw [alike rfl, hx]
      exact .ok (List.rel_append h (.cons ⟨same, rfl, .nil, fun _ => rfl⟩ .nil))

theorem dropTable (h : c.Respells exact d) (same : sameName n m = true) :
    Agree Refusal.code (Respells exact) (c.dropTable n) (d.dropTable m) := by
  unfold Catalog.dropTable
  refine (h.locate same).bind fun p q related => .ok ?_
  obtain ⟨i, t⟩ := p
  obtain ⟨j, u⟩ := q
  obtain rfl : j = i := related.1
  exact List.rel_map (fun _ _ table => table.withoutKeysTo same) (forall₂_eraseIdx h j)

variable {k l : StoredKey}

theorem pairsWith {p q : StoredKey} (key : k.Respells exact l) (primary : p.Respells exact q) :
    Catalog.pairsWith l q = Catalog.pairsWith k p := by
  unfold Catalog.pairsWith
  rw [key.columns.length_eq, key.relatedColumns.length_eq, primary.columns.length_eq,
    all_zip_sameNames primary.columns key.relatedColumns]

theorem checkForeignKey (h : c.Respells exact d) (key : k.Respells exact l) :
    Agree Refusal.code Eq (c.checkForeignKey k) (d.checkForeignKey l) := by
  unfold Catalog.checkForeignKey
  refine (h.locate key.target).bind fun p q related => ?_
  obtain ⟨i, t⟩ := p
  obtain ⟨j, u⟩ := q
  have table : t.Respells exact u := related.2
  have missing := table.find?_missing key.relatedColumns
  have paired : u.primaryKey?.any (Catalog.pairsWith l) = t.primaryKey?.any (Catalog.pairsWith k) :=
    rel_any table.primaryKey? fun _ _ primary => pairsWith key primary
  dsimp only
  rw [paired]
  generalize k.relatedColumns.find? _ = x at missing ⊢
  generalize l.relatedColumns.find? _ = y at missing ⊢
  cases missing with
  | some => exact .error rfl
  | none =>
    dsimp only
    split
    · exact .error rfl
    · exact .ok rfl

/-- A key is taken in both catalogs or in neither, whatever rows they hold. -/
theorem appendKey (h : c.Respells exact d) (same : sameName n m = true) (key : k.Respells exact l) :
    Agree Refusal.code (Respells exact) (c.appendKey n k) (d.appendKey m l) := by
  unfold Catalog.appendKey
  refine (h.locate same).bind fun p q related => ?_
  obtain ⟨i, t⟩ := p
  obtain ⟨j, u⟩ := q
  obtain rfl : j = i := related.1
  have table : t.Respells exact u := related.2
  have fresh : u.keys.any (sameName ·.name l.name) = t.keys.any (sameName ·.name k.name) :=
    forall₂_any table.keys fun _ _ other => sameName_congr other.name key.name
  have missing := table.find?_missing key.columns
  have whole := h.replace (table.withKey key) j
  have first : u.primaryKey?.isSome = t.primaryKey?.isSome := rel_isSome table.primaryKey?
  dsimp only
  rw [fresh, first, key.kind]
  generalize k.columns.find? _ = x at missing ⊢
  generalize l.columns.find? _ = y at missing ⊢
  unfold StoredTable.withKey at whole
  rw [key.kind] at whole
  split
  · exact .error rfl
  cases missing with
  | some => exact .error rfl
  | none =>
    cases kind : k.kind with
    | primary =>
      rw [kind] at whole
      dsimp only
      split
      · exact .error rfl
      · exact .ok whole
    | foreign =>
      rw [kind] at whole
      exact (h.checkForeignKey key).bind fun _ _ _ => .ok whole

variable {c' d' : Catalog}

theorem refl (exact : Prop) (c : Catalog) : c.Respells exact c :=
  List.forall₂_same.mpr fun t _ =>
    ⟨sameName_refl t.name, rfl, List.forall₂_same.mpr fun k _ => .refl exact k, fun _ => rfl⟩

/-- Whatever becomes of rows, tables and keys stay alike. -/
theorem of_sameFrame (h : c.Respells False d)
    (hc : List.Forall₂ StoredTable.SameFrame c.tables c'.tables)
    (hd : List.Forall₂ StoredTable.SameFrame d.tables d'.tables) : c'.Respells False d' := by
  unfold Catalog.Respells at h ⊢
  generalize c.tables = ts at h hc
  generalize d.tables = us at h hd
  generalize c'.tables = ts' at hc ⊢
  generalize d'.tables = us' at hd ⊢
  induction h generalizing ts' us' with
  | nil =>
    cases hc
    cases hd
    exact .nil
  | cons table _ ih =>
    rcases hc with _ | ⟨left, hc⟩
    rcases hd with _ | ⟨right, hd⟩
    exact .cons (table.of_sameFrame left right) (ih _ hc _ hd)

end Respells

end Catalog

end Tabular
