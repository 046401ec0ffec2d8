import FormPress.Value
/-!
# Rows through a history of columns

The columns of a table change while its rows stay, and a row is reconciled with each version in turn.
A value either comes through all of them, as what the last version alone makes of it, or is lost on the
way; which of the two is settled by the kinds that the versions declare (`Data.reconcileAll_history`).
-/
namespace FormPress

/-- The row reconciled with each version of the columns in turn. -/
def Data.reconcileAll (data : Data) (versions : List Columns) : Data :=
  versions.foldl Data.reconcile data

/-- What values of kind `k` outlive: they stay of their kind, or at some point they widen to text and
stay text. -/
def Kind.Outlives (k : Kind) (kinds : List Kind) : Prop :=
  (∀ l ∈ kinds, l = k) ∨
    ((k = .number ∨ k = .boolean) ∧ ∃ m n, kinds = List.replicate m k ++ List.replicate n .text)

/-! ## Casts in turn -/

namespace Value

/-- The value cast to each kind in turn, as long as it can be. -/
def castAll (v : Value) : List Kind → Option Value
  | [] => some v
  | k :: ks => (v.cast k).bind fun w => w.castAll ks

theorem exists_widen?_iff {v : Value} :
    (∃ s, v.widen? = some s) ↔ v.kind = .number ∨ v.kind = .boolean := by
  cases v <;> simp [widen?, kind]

/-- A cast leaves a value as it is, or widens it to text. -/
theorem cast_eq_some_iff {v w : Value} {k : Kind} :
    v.cast k = some w ↔ (k = v.kind ∧ w = v) ∨ (k = .text ∧ ∃ s, v.widen? = some s ∧ w = .text s) := by
  unfold cast
  by_cases hk : v.kind = k
  · rw [if_pos hk]
    constructor
    · intro h
      cases h
      exact .inl ⟨hk.symm, rfl⟩
    · rintro (⟨-, rfl⟩ | ⟨rfl, s, hs, rfl⟩)
      · rfl
      · rcases exists_widen?_iff.1 ⟨s, hs⟩ with h | h <;> rw [h] at hk <;> cases hk
  · rw [if_neg hk]
    by_cases ht : k = .text
    · rw [if_pos ht, Option.map_eq_some_iff]
      constructor
      · rintro ⟨s, hs, rfl⟩
        exact .inr ⟨ht, s, hs, rfl⟩
      · rintro (⟨h, -⟩ | ⟨-, s, hs, rfl⟩)
        · exact absurd h.symm hk
        · exact ⟨s, hs, rfl⟩
    · simp [ht, show ¬ k = v.kind from fun h => hk h.symm]

/-- The casts there are: every kind to itself, numbers and booleans to text. -/
theorem exists_cast_iff {v : Value} {k : Kind} :
    (∃ w, v.cast k = some w) ↔ k = v.kind ∨ (k = .text ∧ (v.kind = .number ∨ v.kind = .boolean)) := by
  rw [← exists_widen?_iff]
  simp only [cast_eq_some_iff]
  constructor
  · rintro ⟨w, ⟨hk, -⟩ | ⟨ht, s, hs, -⟩⟩
    · exact .inl hk
    · exact .inr ⟨ht, s, hs⟩
  · rintro (hk | ⟨ht, s, hs⟩)
    · exact ⟨v, .inl ⟨hk, rfl⟩⟩
    · exact ⟨.text s, .inr ⟨ht, s, hs, rfl⟩⟩

/-- What a value is cast to does not depend on what it was cast to on the way. -/
theorem cast_of_cast {v w x : Value} {k l : Kind} (hw : v.cast k = some w) (hx : w.cast l = some x) :
    v.cast l = some x := by
  rcases cast_eq_some_iff.1 hw with ⟨-, rfl⟩ | ⟨-, s, hs, rfl⟩
  · exact hx
  · -- A text is cast to text only, and it stays as it is.
    rcases cast_eq_some_iff.1 hx with ⟨rfl, rfl⟩ | ⟨-, s', hs', -⟩
    · exact cast_eq_some_iff.2 (.inr ⟨rfl, s, hs, rfl⟩)
    · cases hs'

end Value

/-! ## What a kind outlives -/

namespace Kind

theorem text_outlives_iff {kinds : List Kind} : Kind.text.Outlives kinds ↔ ∀ l ∈ kinds, l = .text := by
  simp [Outlives]

theorem outlives_nil (k : Kind) : k.Outlives [] := .inl (by simp)

theorem outlives_cons_iff {k l : Kind} {kinds : List Kind} :
    k.Outlives (l :: kinds) ↔ (l = k ∧ k.Outlives kinds) ∨
      (l = .text ∧ (k = .number ∨ k = .boolean) ∧ Kind.text.Outlives kinds) := by
  rw [text_outlives_iff]
  constructor
  · rintro (h | ⟨hk, m, n, h⟩)
    · exact .inl ⟨h l (by simp), .inl fun l' hl' => h l' (by simp [hl'])⟩
    · cases m with
      | succ m =>
        obtain ⟨rfl, rfl⟩ := List.cons.inj h
        exact .inl ⟨rfl, .inr ⟨hk, m, n, rfl⟩⟩
      | zero =>
        cases n with
        | zero => cases h
        | succ n =>
          obtain ⟨rfl, rfl⟩ := List.cons.inj h
          exact .inr ⟨rfl, hk, fun l' hl' => List.eq_of_mem_replicate hl'⟩
  · rintro (⟨rfl, h | ⟨hk, m, n, rfl⟩⟩ | ⟨rfl, hk, h⟩)
    · exact .inl (by simpa using h)
    · exact .inr ⟨hk, m + 1, n, rfl⟩
    · refine .inr ⟨hk, 0, kinds.length + 1, ?_⟩
      rw [List.eq_replicate_of_mem h]
      simp [List.replicate_succ]

end Kind

/-- A value comes through casts to exactly the kinds that its own kind outlives. -/
theorem Value.exists_castAll_iff {v : Value} {kinds : List Kind} :
    (∃ w, v.castAll kinds = some w) ↔ v.kind.Outlives kinds := by
  induction kinds generalizing v with
  | nil => exact ⟨fun _ => Kind.outlives_nil _, fun _ => ⟨v, rfl⟩⟩
  | cons k ks ih =>
    rw [Kind.outlives_cons_iff]
    constructor
    · rintro ⟨x, hx⟩
      obtain ⟨w, hw, hrest⟩ := Option.bind_eq_some_iff.1 hx
      rcases cast_eq_some_iff.1 hw with ⟨rfl, rfl⟩ | ⟨rfl, s, hs, rfl⟩
      · exact .inl ⟨rfl, ih.1 ⟨x, hrest⟩⟩
      · exact .inr ⟨rfl, exists_widen?_iff.1 ⟨s, hs⟩, (ih (v := .text s)).1 ⟨x, hrest⟩⟩
    · rintro (⟨rfl, h⟩ | ⟨rfl, hk, h⟩)
      · obtain ⟨x, hx⟩ := ih.2 h
        exact ⟨x, Option.bind_eq_some_iff.2 ⟨v, v.cast_kind, hx⟩⟩
      · obtain ⟨s, hs⟩ := exists_widen?_iff.2 hk
        obtain ⟨x, hx⟩ := (ih (v := .text s)).2 h
        exact ⟨x, Option.bind_eq_some_iff.2 ⟨_, cast_eq_some_iff.2 (.inr ⟨rfl, s, hs, rfl⟩), hx⟩⟩

/-! ## Rows -/

namespace Data

theorem get?_reconcile_eq_some_iff {data : Data} {columns : Columns} {id : String} {w : Value} :
    (data.reconcile columns).get? id = some w ↔
      ∃ v k, data.get? id = some v ∧ columns.get? id = some k ∧ v.cast k = some w := by
  simp only [get?_reconcile, Option.bind_eq_some_iff]
  constructor
  · rintro ⟨v, hv, k, hk, hw⟩
    exact ⟨v, k, hv, hk, hw⟩
  · rintro ⟨v, k, hv, hk, hw⟩
    exact ⟨v, hv, k, hk, hw⟩

theorem reconcileAll_concat (data : Data) (earlier : List Columns) (last : Columns) :
    data.reconcileAll (earlier ++ [last]) = (data.reconcileAll earlier).reconcile last := by
  simp [reconcileAll, List.foldl_append]

/-- The values of a reconciled row are the casts of the row's values to the declared kinds in turn. -/
theorem get?_reconcileAll_eq_some_iff {data : Data} {versions : List Columns} {id : String} {w : Value} :
    (data.reconcileAll versions).get? id = some w ↔
      ∃ v kinds, data.get? id = some v ∧ versions.map (·.get? id) = kinds.map some ∧
        v.castAll kinds = some w := by
  induction versions generalizing data with
  | nil =>
    constructor
    · intro h
      exact ⟨w, [], h, rfl, rfl⟩
    · rintro ⟨v, kinds, hv, hkinds, hw⟩
      obtain rfl : kinds = [] := List.map_eq_nil_iff.1 hkinds.symm
      cases hw
      exact hv
  | cons columns versions ih =>
    rw [reconcileAll, List.foldl_cons, ← reconcileAll, ih]
    constructor
    · rintro ⟨u, ks, hu, hks, hw⟩
      obtain ⟨v, k, hv, hk, hcast⟩ := get?_reconcile_eq_some_iff.1 hu
      exact ⟨v, k :: ks, hv, by simp [hk, hks], Option.bind_eq_some_iff.2 ⟨u, hcast, hw⟩⟩
    · rintro ⟨v, kinds, hv, hkinds, hw⟩
      cases kinds with
      | nil => cases hkinds
      | cons k ks =>
        obtain ⟨hk, hks⟩ := List.cons.inj hkinds
        obtain ⟨u, hcast, hw⟩ := Option.bind_eq_some_iff.1 hw
        exact ⟨u, ks, get?_reconcile_eq_some_iff.2 ⟨v, k, hv, hk, hcast⟩, hks, hw⟩

/-- What a value of a reconciled row can be cast to, the value of the row itself can be cast to. -/
theorem exists_cast_of_reconcileAll {versions : List Columns} {id : String} {w x : Value} {k : Kind}
    (hx : w.cast k = some x) {data : Data} (hw : (data.reconcileAll versions).get? id = some w) :
    ∃ v, data.get? id = some v ∧ v.cast k = some x := by
  induction versions generalizing data with
  | nil => exact ⟨w, hw, hx⟩
  | cons columns versions ih =>
    obtain ⟨u, hu, hux⟩ := ih hw
    obtain ⟨v, l, hv, -, hcast⟩ := get?_reconcile_eq_some_iff.1 hu
    exact ⟨v, hv, Value.cast_of_cast hcast hux⟩

theorem kind_of_get?_reconcile {data : Data} {columns : Columns} {id : String} {w : Value}
    (h : (data.reconcile columns).get? id = some w) : columns.get? id = some w.kind := by
  obtain ⟨v, k, -, hk, hcast⟩ := get?_reconcile_eq_some_iff.1 h
  rw [hk, Value.kind_of_cast hcast]

/-- Reconciling twice with the same columns is reconciling once. -/
theorem reconcile_reconcile (data : Data) (columns : Columns) :
    (data.reconcile columns).reconcile columns = data.reconcile columns := by
  refine FieldMap.ext_get? fun id => ?_
  rw [get?_reconcile]
  cases hw : (data.reconcile columns).get? id with
  | none => rfl
  | some w => simp [kind_of_get?_reconcile hw, w.cast_kind]

/-- **A history of columns invents and changes nothing.** What is left of a row after any history of
columns is what the last version alone leaves of it, or less; it has the kinds that the last version
declares, and reconciling it with that version again changes nothing. A field is left exactly if every
version declares it, and its kind outlives the declared kinds. -/
theorem reconcileAll_history (data : Data) (earlier : List Columns) (last : Columns) :
    (∀ id w, (data.reconcileAll (earlier ++ [last])).get? id = some w →
      (data.reconcile last).get? id = some w ∧ last.get? id = some w.kind) ∧
    (data.reconcileAll (earlier ++ [last])).reconcile last = data.reconcileAll (earlier ++ [last]) ∧
    (∀ id v, data.get? id = some v →
      ((∃ w, (data.reconcileAll (earlier ++ [last])).get? id = some w) ↔
        ∃ kinds, (earlier ++ [last]).map (·.get? id) = kinds.map some ∧ v.kind.Outlives kinds)) := by
  refine ⟨fun id w hw => ?_, ?_, fun id v hv => ?_⟩
  · rw [reconcileAll_concat] at hw
    refine ⟨?_, kind_of_get?_reconcile hw⟩
    obtain ⟨u, k, hu, hk, hcast⟩ := get?_reconcile_eq_some_iff.1 hw
    obtain ⟨v, hv, hvw⟩ := exists_cast_of_reconcileAll hcast hu
    exact get?_reconcile_eq_some_iff.2 ⟨v, k, hv, hk, hvw⟩
  · rw [reconcileAll_concat, reconcile_reconcile]
  · simp only [get?_reconcileAll_eq_some_iff, ← Value.exists_castAll_iff, hv, Option.some.injEq]
    constructor
    · rintro ⟨w, v', kinds, rfl, hkinds, hw⟩
      exact ⟨kinds, hkinds, w, hw⟩
    · rintro ⟨kinds, hkinds, w, hw⟩
      exact ⟨w, v, kinds, rfl, hkinds, hw⟩

end Data

/-- Two versions of the columns: a number becomes a text, and a boolean becomes one and is one again. -/
def textAge : List Columns :=
  [(FieldMap.empty.insert "age" .number).insert "member" .text,
    (FieldMap.empty.insert "age" .text).insert "member" .boolean]

def adult : Data := (FieldMap.empty.insert "age" (.number 36)).insert "member" (.boolean true)

theorem reconcileAll_adult :
    (∃ w, (adult.reconcileAll textAge).get? "age" = some w) ∧
      ¬ ∃ w, (adult.reconcileAll textAge).get? "member" = some w := by
  have h := (adult.reconcileAll_history [textAge[0]] textAge[1]).2.2
  refine ⟨(h "age" (.number 36) rfl).2 ⟨[.number, .text], rfl, .inr ⟨.inl rfl, 1, 1, rfl⟩⟩, ?_⟩
  rintro hmember
  obtain ⟨kinds, hkinds, houtlives⟩ := (h "member" (.boolean true) rfl).1 hmember
  have heq : kinds = [.text, .boolean] := by
    have hmap : kinds.map some = [Kind.text, .boolean].map some := hkinds.symm
    exact (List.map_inj_right fun _ _ => Option.some.inj).1 hmap
  rw [heq] at houtlives
  simp [Kind.outlives_cons_iff, Kind.text_outlives_iff, Value.kind] at houtlives

end FormPress
