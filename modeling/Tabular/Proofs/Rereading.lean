import Tabular.Proofs.Readback
import Tabular.Catalog.Basic
import Mathlib.Data.List.Forall2

/-!
Values that are written and read again. Members come back in order if they stood in order, and what
agreed still agrees. Only numbers can come to agree that did not agree before.
-/
namespace Tabular

namespace Json

/-! ### Members in order -/

def Ordered (ms : List (String × Json)) : Prop := (ms.map (·.1)).Pairwise (· < ·)

theorem mem_insertMember {name : String} {v : Json} {ms : List (String × Json)}
    {m : String × Json} (h : m ∈ insertMember name v ms) : m = (name, v) ∨ m ∈ ms := by
  induction ms with
  | nil => exact .inl (List.mem_singleton.mp h)
  | cons n ms ih =>
    obtain ⟨k, w⟩ := n
    unfold insertMember at h
    split at h
    · exact List.mem_cons.mp h
    split at h
    · rcases List.mem_cons.mp h with h | h
      · exact .inl h
      · exact .inr (List.mem_cons_of_mem _ h)
    · rcases List.mem_cons.mp h with h | h
      · exact .inr (h ▸ List.mem_cons_self)
      · rcases ih h with h | h
        · exact .inl h
        · exact .inr (List.mem_cons_of_mem _ h)

theorem Ordered.insertMember {name : String} {v : Json} {ms : List (String × Json)}
    (h : Ordered ms) : Ordered (insertMember name v ms) := by
  induction ms with
  | nil => exact List.pairwise_singleton _ _
  | cons n ms ih =>
    obtain ⟨k, w⟩ := n
    obtain ⟨first, rest⟩ := List.pairwise_cons.mp h
    have later : ∀ m ∈ ms, k < m.1 := fun m hm => first m.1 (List.mem_map_of_mem hm)
    unfold Json.insertMember
    split
    · next before =>
      refine List.pairwise_cons.mpr ⟨fun l hl => ?_, h⟩
      obtain ⟨m, hm, rfl⟩ := List.mem_map.mp hl
      rcases List.mem_cons.mp hm with rfl | hm
      · exact before
      · exact String.lt_trans before (later m hm)
    · next notBefore =>
      split
      · next same =>
        obtain rfl := beq_iff_eq.mp same
        exact h
      · next apart =>
        have after : k < name := by
          apply Decidable.byContradiction
          intro notAfter
          exact apart (beq_iff_eq.mpr
            (String.le_antisymm (String.not_lt.mp notAfter) (String.not_lt.mp notBefore)))
        refine List.pairwise_cons.mpr ⟨fun l hl => ?_, ih rest⟩
        obtain ⟨m, hm, rfl⟩ := List.mem_map.mp hl
        rcases mem_insertMember hm with rfl | hm
        · exact after
        · exact later m hm

theorem insertMember_last {name : String} {v : Json} {ms : List (String × Json)}
    (h : ∀ m ∈ ms, m.1 < name) : insertMember name v ms = ms ++ [(name, v)] := by
  induction ms with
  | nil => rfl
  | cons m ms ih =>
    obtain ⟨k, w⟩ := m
    have before : k < name := h (k, w) (by simp)
    have apart : (name == k) = false := by
      rw [beq_eq_false_iff_ne]
      rintro rfl
      exact String.lt_irrefl name before
    rw [insertMember, if_neg (String.lt_asymm before), apart, if_neg (by decide),
      ih fun m hm => h m (List.mem_cons_of_mem _ hm)]
    rfl

theorem sortMembers_of_ordered {ms : List (String × Json)} (h : Ordered ms) :
    sortMembers ms = ms := by
  have grow (front rest : List (String × Json)) (h : Ordered (front ++ rest)) :
      rest.foldl (fun acc m => insertMember m.1 m.2 acc) front = front ++ rest := by
    induction rest generalizing front with
    | nil => rw [List.foldl_nil, List.append_nil]
    | cons m rest ih =>
      have last : ∀ n ∈ front, n.1 < m.1 := by
        intro n hn
        unfold Ordered at h
        rw [List.map_append, List.pairwise_append] at h
        exact h.2.2 n.1 (List.mem_map_of_mem hn) m.1 (by simp)
      have next : front ++ [(m.1, m.2)] ++ rest = front ++ m :: rest := by simp
      rw [List.foldl_cons, insertMember_last last, ih _ (by rw [next]; exact h), next]
  exact grow [] ms h

/-! ### Values within bounds -/

mutual

/-- A value whose members stand in order, as they do in a map, and whose numbers are of a kind. -/
def Within (P : Number → Prop) : Json → Prop
  | number n => P n
  | array items => WithinItems P items
  | object members => Ordered members ∧ WithinMembers P members
  | _ => True

def WithinItems (P : Number → Prop) : List Json → Prop
  | [] => True
  | v :: vs => v.Within P ∧ WithinItems P vs

def WithinMembers (P : Number → Prop) : List (String × Json) → Prop
  | [] => True
  | (_, v) :: ms => v.Within P ∧ WithinMembers P ms

end

theorem withinMembers_iff {P : Number → Prop} {ms : List (String × Json)} :
    WithinMembers P ms ↔ ∀ m ∈ ms, m.2.Within P := by
  induction ms with
  | nil => simp [WithinMembers]
  | cons m ms ih => rw [WithinMembers, ih, List.forall_mem_cons]

mutual

theorem Within.mono {P Q : Number → Prop} (h : ∀ n, P n → Q n) :
    ∀ {v : Json}, v.Within P → v.Within Q
  | null, _ | bool _, _ | string _, _ => trivial
  | number n, hn => h n hn
  | array _, hvs => withinItems_mono h hvs
  | object _, hms => ⟨hms.1, withinMembers_mono h hms.2⟩

theorem withinItems_mono {P Q : Number → Prop} (h : ∀ n, P n → Q n) :
    ∀ {vs : List Json}, WithinItems P vs → WithinItems Q vs
  | [], _ => trivial
  | _ :: _, hvs => ⟨hvs.1.mono h, withinItems_mono h hvs.2⟩

theorem withinMembers_mono {P Q : Number → Prop} (h : ∀ n, P n → Q n) :
    ∀ {ms : List (String × Json)}, WithinMembers P ms → WithinMembers Q ms
  | [], _ => trivial
  | (_, _) :: _, hms => ⟨hms.1.mono h, withinMembers_mono h hms.2⟩

end

/-! ### Written and read -/

mutual

def reread? : Json → Option Json
  | null => some null
  | bool b => some (bool b)
  | number n => n.reread?.map number
  | string s => some (string s)
  | array items => (rereadItems? items).map array
  | object members => (rereadMembers? members).map object

def rereadItems? : List Json → Option (List Json)
  | [] => some []
  | v :: vs => do return (← v.reread?) :: (← rereadItems? vs)

def rereadMembers? : List (String × Json) → Option (List (String × Json))
  | [] => some []
  | (k, v) :: ms => do return (k, ← v.reread?) :: (← rereadMembers? ms)

end

theorem rereadItems?_cons_eq_some {v : Json} {vs ws : List Json} :
    rereadItems? (v :: vs) = some ws ↔
      ∃ w ws', v.reread? = some w ∧ rereadItems? vs = some ws' ∧ w :: ws' = ws := by
  rw [rereadItems?]
  cases v.reread? <;> cases rereadItems? vs <;> simp

theorem rereadMembers?_cons_eq_some {k : String} {v : Json} {ms ns : List (String × Json)} :
    rereadMembers? ((k, v) :: ms) = some ns ↔
      ∃ w ns', v.reread? = some w ∧ rereadMembers? ms = some ns' ∧ (k, w) :: ns' = ns := by
  rw [rereadMembers?]
  cases v.reread? <;> cases rereadMembers? ms <;> simp

theorem rereadMembers?_eq_some_iff {ms ns : List (String × Json)} :
    rereadMembers? ms = some ns ↔
      List.Forall₂ (fun m n => m.1 = n.1 ∧ m.2.reread? = some n.2) ms ns := by
  induction ms generalizing ns with
  | nil => simp [rereadMembers?, eq_comm]
  | cons m ms ih =>
    obtain ⟨k, v⟩ := m
    rw [rereadMembers?_cons_eq_some]
    constructor
    · rintro ⟨w, ns', hv, hms, rfl⟩
      exact .cons ⟨rfl, hv⟩ (ih.mp hms)
    · rintro (_ | @⟨_, n, _, ns', ⟨rfl, hv⟩, hms⟩)
      exact ⟨n.2, ns', hv, ih.mpr hms, rfl⟩

theorem map_fst_of_rereadMembers? {ms ns : List (String × Json)}
    (h : rereadMembers? ms = some ns) : ns.map (·.1) = ms.map (·.1) := by
  have pairs := rereadMembers?_eq_some_iff.mp h
  clear h
  induction pairs with
  | nil => rfl
  | cons same _ ih => rw [List.map_cons, List.map_cons, ih, same.1]

/-! ### Agreement -/

theorem map_rereadItems?_cons (v : Json) (vs : List Json) :
    (rereadItems? (v :: vs)).map unsignedZerosList =
      (v.reread?.map unsignedZeros).bind fun w =>
        ((rereadItems? vs).map unsignedZerosList).map (w :: ·) := by
  rw [rereadItems?]
  cases v.reread? <;> cases rereadItems? vs <;> rfl

theorem map_rereadMembers?_cons (k : String) (v : Json) (ms : List (String × Json)) :
    (rereadMembers? ((k, v) :: ms)).map unsignedZerosMembers =
      (v.reread?.map unsignedZeros).bind fun w =>
        ((rereadMembers? ms).map unsignedZerosMembers).map ((k, w) :: ·) := by
  rw [rereadMembers?]
  cases v.reread? <;> cases rereadMembers? ms <;> rfl

mutual

theorem map_unsignedZeros_reread? (v : Json) :
    v.unsignedZeros.reread?.map unsignedZeros = v.reread?.map unsignedZeros := by
  cases v with
  | null => rfl
  | bool b => rfl
  | number n =>
    have same := n.map_unsignedZero_reread?
    simp only [unsignedZeros, reread?, Option.map_map]
    change n.unsignedZero.reread?.map (number ∘ Number.unsignedZero) =
      n.reread?.map (number ∘ Number.unsignedZero)
    rw [← Option.map_map, ← Option.map_map, same]
  | string s => rfl
  | array vs =>
    have same := map_unsignedZerosList_rereadItems? vs
    simp only [unsignedZeros, reread?, Option.map_map]
    change (rereadItems? (unsignedZerosList vs)).map (array ∘ unsignedZerosList) =
      (rereadItems? vs).map (array ∘ unsignedZerosList)
    rw [← Option.map_map, ← Option.map_map, same]
  | object ms =>
    have same := map_unsignedZerosMembers_rereadMembers? ms
    simp only [unsignedZeros, reread?, Option.map_map]
    change (rereadMembers? (unsignedZerosMembers ms)).map (object ∘ unsignedZerosMembers) =
      (rereadMembers? ms).map (object ∘ unsignedZerosMembers)
    rw [← Option.map_map, ← Option.map_map, same]

theorem map_unsignedZerosList_rereadItems? (vs : List Json) :
    (rereadItems? (unsignedZerosList vs)).map unsignedZerosList =
      (rereadItems? vs).map unsignedZerosList := by
  cases vs with
  | nil => rfl
  | cons v vs =>
    have head := map_unsignedZeros_reread? v
    have tail := map_unsignedZerosList_rereadItems? vs
    rw [unsignedZerosList, map_rereadItems?_cons, map_rereadItems?_cons, head, tail]

theorem map_unsignedZerosMembers_rereadMembers? (ms : List (String × Json)) :
    (rereadMembers? (unsignedZerosMembers ms)).map unsignedZerosMembers =
      (rereadMembers? ms).map unsignedZerosMembers := by
  cases ms with
  | nil => rfl
  | cons m ms =>
    obtain ⟨k, v⟩ := m
    have head := map_unsignedZeros_reread? v
    have tail := map_unsignedZerosMembers_rereadMembers? ms
    rw [unsignedZerosMembers, map_rereadMembers?_cons, map_rereadMembers?_cons, head, tail]

end

/-- Values that agree still agree when they come back. -/
theorem unsignedZeros_eq_of_reread? {a b a' b' : Json} (h : a.unsignedZeros = b.unsignedZeros)
    (ha : a.reread? = some a') (hb : b.reread? = some b') :
    a'.unsignedZeros = b'.unsignedZeros := by
  have left := a.map_unsignedZeros_reread?
  have right := b.map_unsignedZeros_reread?
  rw [h, right, ha, hb] at left
  exact (Option.some.inj left).symm

end Json

/-- Do numbers of a kind that agree when they come back agree in the first place? -/
def Number.KeptApart (P : Number → Prop) : Prop :=
  ∀ n m n' m' : Number, P n → P m → n.reread? = some n' → m.reread? = some m' →
    n'.unsignedZero = m'.unsignedZero → n.unsignedZero = m.unsignedZero

namespace Json

variable {P : Number → Prop}

theorem ctorIdx_unsignedZeros (v : Json) : v.unsignedZeros.ctorIdx = v.ctorIdx := by
  cases v <;> rfl

theorem ctorIdx_reread? {v w : Json} (h : v.reread? = some w) : w.ctorIdx = v.ctorIdx := by
  cases v with
  | null => exact Option.some.inj h ▸ rfl
  | bool b => exact Option.some.inj h ▸ rfl
  | string s => exact Option.some.inj h ▸ rfl
  | number n =>
    obtain ⟨m, -, rfl⟩ := Option.map_eq_some_iff.mp h
    rfl
  | array vs =>
    obtain ⟨ws, -, rfl⟩ := Option.map_eq_some_iff.mp h
    rfl
  | object ms =>
    obtain ⟨ns, -, rfl⟩ := Option.map_eq_some_iff.mp h
    rfl

mutual

/-- Among values with such numbers, none come to agree that did not. -/
theorem unsignedZeros_eq_of_keptApart (apart : Number.KeptApart P) {a b a' b' : Json}
    (wa : a.Within P) (wb : b.Within P) (ha : a.reread? = some a') (hb : b.reread? = some b')
    (h : a'.unsignedZeros = b'.unsignedZeros) : a.unsignedZeros = b.unsignedZeros := by
  have form : a.ctorIdx = b.ctorIdx := by
    rw [← ctorIdx_reread? ha, ← ctorIdx_reread? hb, ← ctorIdx_unsignedZeros a', h,
      ctorIdx_unsignedZeros]
  cases a with
  | null =>
    cases b with
    | null => rfl
    | _ => cases form
  | bool x =>
    cases b with
    | bool y =>
      rw [← Option.some.inj ha, ← Option.some.inj hb] at h
      exact h
    | _ => cases form
  | string x =>
    cases b with
    | string y =>
      rw [← Option.some.inj ha, ← Option.some.inj hb] at h
      exact h
    | _ => cases form
  | number n =>
    cases b with
    | number m =>
      obtain ⟨n', hn, rfl⟩ := Option.map_eq_some_iff.mp ha
      obtain ⟨m', hm, rfl⟩ := Option.map_eq_some_iff.mp hb
      exact congrArg number (apart n m n' m' wa wb hn hm (number.inj h))
    | _ => cases form
  | array vs =>
    cases b with
    | array ws =>
      obtain ⟨vs', hvs, rfl⟩ := Option.map_eq_some_iff.mp ha
      obtain ⟨ws', hws, rfl⟩ := Option.map_eq_some_iff.mp hb
      exact congrArg array (unsignedZerosList_eq_of_keptApart apart wa wb hvs hws (array.inj h))
    | _ => cases form
  | object ms =>
    cases b with
    | object ns =>
      obtain ⟨ms', hms, rfl⟩ := Option.map_eq_some_iff.mp ha
      obtain ⟨ns', hns, rfl⟩ := Option.map_eq_some_iff.mp hb
      exact congrArg object
        (unsignedZerosMembers_eq_of_keptApart apart wa.2 wb.2 hms hns (object.inj h))
    | _ => cases form
termination_by structural a

theorem unsignedZerosList_eq_of_keptApart (apart : Number.KeptApart P) {as bs as' bs' : List Json}
    (wa : WithinItems P as) (wb : WithinItems P bs) (ha : rereadItems? as = some as')
    (hb : rereadItems? bs = some bs') (h : unsignedZerosList as' = unsignedZerosList bs') :
    unsignedZerosList as = unsignedZerosList bs := by
  cases as with
  | nil =>
    obtain rfl := Option.some.inj ha
    cases bs with
    | nil => rfl
    | cons b bs =>
      obtain ⟨w, ws, -, -, rfl⟩ := rereadItems?_cons_eq_some.mp hb
      cases h
  | cons a as =>
    obtain ⟨v, vs, hv, hvs, rfl⟩ := rereadItems?_cons_eq_some.mp ha
    cases bs with
    | nil =>
      obtain rfl := Option.some.inj hb
      cases h
    | cons b bs =>
      obtain ⟨w, ws, hw, hws, rfl⟩ := rereadItems?_cons_eq_some.mp hb
      obtain ⟨head, tail⟩ := List.cons.inj h
      rw [unsignedZerosList, unsignedZerosList,
        unsignedZeros_eq_of_keptApart apart wa.1 wb.1 hv hw head,
        unsignedZerosList_eq_of_keptApart apart wa.2 wb.2 hvs hws tail]
termination_by structural as

theorem unsignedZerosMembers_eq_of_keptApart (apart : Number.KeptApart P)
    {as bs as' bs' : List (String × Json)} (wa : WithinMembers P as) (wb : WithinMembers P bs)
    (ha : rereadMembers? as = some as') (hb : rereadMembers? bs = some bs')
    (h : unsignedZerosMembers as' = unsignedZerosMembers bs') :
    unsignedZerosMembers as = unsignedZerosMembers bs := by
  cases as with
  | nil =>
    obtain rfl := Option.some.inj ha
    cases bs with
    | nil => rfl
    | cons b bs =>
      obtain ⟨l, b⟩ := b
      obtain ⟨w, ws, -, -, rfl⟩ := rereadMembers?_cons_eq_some.mp hb
      cases h
  | cons a as =>
    obtain ⟨k, a⟩ := a
    obtain ⟨v, vs, hv, hvs, rfl⟩ := rereadMembers?_cons_eq_some.mp ha
    cases bs with
    | nil =>
      obtain rfl := Option.some.inj hb
      cases h
    | cons b bs =>
      obtain ⟨l, b⟩ := b
      obtain ⟨w, ws, hw, hws, rfl⟩ := rereadMembers?_cons_eq_some.mp hb
      obtain ⟨head, tail⟩ := List.cons.inj h
      obtain ⟨rfl, same⟩ := Prod.mk.inj head
      rw [unsignedZerosMembers, unsignedZerosMembers,
        unsignedZeros_eq_of_keptApart apart wa.1 wb.1 hv hw same,
        unsignedZerosMembers_eq_of_keptApart apart wa.2 wb.2 hvs hws tail]
termination_by structural as

end

/-! ### Trees -/

mutual

/-- What the tree of a text means is the value read again. -/
theorem reread?_of_value? {depth : Nat} {v w : Json} (wv : v.Within P)
    (h : v.printed.value? depth = some w) : v.reread? = some w := by
  cases v with
  | null => exact h
  | bool b => exact h
  | number n => exact h
  | string s => exact h
  | array vs =>
    cases depth with
    | zero => cases h
    | succ depth =>
      obtain ⟨ws, hws, rfl⟩ := Option.map_eq_some_iff.mp h
      rw [reread?, rereadItems?_of_values? wv hws]
      rfl
  | object ms =>
    cases depth with
    | zero => cases h
    | succ depth =>
      obtain ⟨ns, hns, rfl⟩ := Option.map_eq_some_iff.mp h
      have read := rereadMembers?_of_memberValues? wv.2 hns
      have ordered : Ordered ns := by
        unfold Ordered
        rw [map_fst_of_rereadMembers? read]
        exact wv.1
      rw [reread?, read, sortMembers_of_ordered ordered]
      rfl
termination_by structural v

theorem rereadItems?_of_values? {depth : Nat} {vs ws : List Json} (wvs : WithinItems P vs)
    (h : JsonTree.values? depth (printedItems vs) = some ws) : rereadItems? vs = some ws := by
  cases vs with
  | nil =>
    rw [printedItems, JsonTree.values?] at h
    exact h
  | cons v vs =>
    rw [printedItems, JsonTree.values?] at h
    obtain ⟨w, hw, h⟩ := Option.bind_eq_some_iff.mp h
    obtain ⟨ws', hws, h⟩ := Option.bind_eq_some_iff.mp h
    exact rereadItems?_cons_eq_some.mpr
      ⟨w, ws', reread?_of_value? wvs.1 hw, rereadItems?_of_values? wvs.2 hws, Option.some.inj h⟩
termination_by structural vs

theorem rereadMembers?_of_memberValues? {depth : Nat} {ms ns : List (String × Json)}
    (wms : WithinMembers P ms)
    (h : JsonTree.memberValues? depth (printedMembers ms) = some ns) :
    rereadMembers? ms = some ns := by
  cases ms with
  | nil =>
    rw [printedMembers, JsonTree.memberValues?] at h
    exact h
  | cons m ms =>
    obtain ⟨k, v⟩ := m
    rw [printedMembers, JsonTree.memberValues?] at h
    obtain ⟨l, hl, h⟩ := Option.bind_eq_some_iff.mp h
    obtain rfl := Option.some.inj hl
    obtain ⟨w, hw, h⟩ := Option.bind_eq_some_iff.mp h
    obtain ⟨ns', hns, h⟩ := Option.bind_eq_some_iff.mp h
    exact rereadMembers?_cons_eq_some.mpr
      ⟨w, ns', reread?_of_value? wms.1 hw, rereadMembers?_of_memberValues? wms.2 hns,
        Option.some.inj h⟩
termination_by structural ms

end

end Json

def Number.Closed (P : Number → Prop) : Prop :=
  ∀ n m : Number, P n → n.reread? = some m → P m

namespace Json

variable {P : Number → Prop}

mutual

theorem Within.reread? (closed : Number.Closed P) {v w : Json} (wv : v.Within P)
    (h : v.reread? = some w) : w.Within P := by
  cases v with
  | null => exact Option.some.inj h ▸ trivial
  | bool b => exact Option.some.inj h ▸ trivial
  | string s => exact Option.some.inj h ▸ trivial
  | number n =>
    obtain ⟨m, hm, rfl⟩ := Option.map_eq_some_iff.mp h
    exact closed n m wv hm
  | array vs =>
    obtain ⟨ws, hws, rfl⟩ := Option.map_eq_some_iff.mp h
    exact withinItems_rereadItems? closed wv hws
  | object ms =>
    obtain ⟨ns, hns, rfl⟩ := Option.map_eq_some_iff.mp h
    refine ⟨?_, withinMembers_rereadMembers? closed wv.2 hns⟩
    unfold Ordered
    rw [map_fst_of_rereadMembers? hns]
    exact wv.1
termination_by structural v

theorem withinItems_rereadItems? (closed : Number.Closed P) {vs ws : List Json}
    (wvs : WithinItems P vs) (h : rereadItems? vs = some ws) : WithinItems P ws := by
  cases vs with
  | nil => exact Option.some.inj h ▸ trivial
  | cons v vs =>
    obtain ⟨w, ws', hw, hws, rfl⟩ := rereadItems?_cons_eq_some.mp h
    exact ⟨wvs.1.reread? closed hw, withinItems_rereadItems? closed wvs.2 hws⟩
termination_by structural vs

theorem withinMembers_rereadMembers? (closed : Number.Closed P) {ms ns : List (String × Json)}
    (wms : WithinMembers P ms) (h : rereadMembers? ms = some ns) : WithinMembers P ns := by
  cases ms with
  | nil => exact Option.some.inj h ▸ trivial
  | cons m ms =>
    obtain ⟨k, v⟩ := m
    obtain ⟨w, ns', hw, hns, rfl⟩ := rereadMembers?_cons_eq_some.mp h
    exact ⟨wms.1.reread? closed hw, withinMembers_rereadMembers? closed wms.2 hns⟩
termination_by structural ms

end

end Json

end Tabular
