import FormPress.Proofs.Dependence
import FormPress.Proofs.History
/-!
# Reconciled rows

A row is reconciled by going through its values and looking up their columns, a submission by going
through the declared fields and looking up their values. The two agree: what is left of a row are the
values that the submission has (`Data.reconcile_eq_present_submit`). Either way a field is settled by its
own value and its own column, so an edit under one id is seen under that id alone
(`Data.submit_reconcile`).

Reconciliation drops the values that no longer fit their columns. To a comparison with a literal of the
declared kind such a value was as good as absent before (`Operator.between_of_kind_ne`), so dropping it
changes nothing: conditions written for the columns come out on the reconciled row as they do on the row
itself (`Condition.evaluate_reconcile`). A number or a boolean that widens to text is the one exception,
since the text can then be compared.
-/
namespace FormPress

/-! ## Rows and submissions -/

namespace FieldMap

variable {α : Type}

/-- The ids of a map, in order. -/
def ids (m : FieldMap α) : List String := m.entries.map Prod.fst

theorem mem_ids_iff {m : FieldMap α} {id : String} : id ∈ m.ids ↔ ∃ a, m.get? id = some a := by
  simp only [ids, List.mem_map, get?_eq_some_iff]
  constructor
  · rintro ⟨⟨k, a⟩, ha, rfl⟩
    exact ⟨a, ha⟩
  · rintro ⟨a, ha⟩
    exact ⟨(id, a), ha, rfl⟩

/-- The maps differ under one id at most, where a value may have been added, changed or removed. -/
def DifferAt (id : String) (m m' : FieldMap α) : Prop := ∀ k, k ≠ id → m.get? k = m'.get? k

theorem DifferAt.refl (id : String) (m : FieldMap α) : DifferAt id m m := fun _ _ => rfl

theorem differAt_insert (m : FieldMap α) (id : String) (a : α) : DifferAt id m (m.insert id a) := by
  intro k hk
  rw [get?_insert, if_neg hk]

end FieldMap

/-- The fields of a submission that have a value. -/
def Submission.present (s : Submission) : Data := s.filterMap fun _ v? => v?

theorem Submission.get?_present (s : Submission) (id : String) :
    s.present.get? id = (s.get? id).bind fun v? => v? :=
  FieldMap.get?_filterMap _ _ _

namespace Data

theorem get?_submit_eq_some_iff {data : Data} {columns : Columns} {id : String} {v? : Option Value} :
    (data.submit columns).get? id = some v? ↔
      ∃ v k, data.get? id = some v ∧ columns.get? id = some k ∧ v.cast k = v? := by
  simp only [get?_submit, Option.bind_eq_some_iff, Option.map_eq_some_iff]
  constructor
  · rintro ⟨k, hk, v, hv, hcast⟩
    exact ⟨v, k, hv, hk, hcast⟩
  · rintro ⟨v, k, hv, hk, hcast⟩
    exact ⟨k, hk, v, hv, hcast⟩

/-- What is left of a row are the values of the submission. -/
theorem reconcile_eq_present_submit (data : Data) (columns : Columns) :
    data.reconcile columns = (data.submit columns).present := by
  refine FieldMap.ext_get? fun id => ?_
  rw [Submission.get?_present, get?_reconcile, get?_submit]
  -- The one looks up the value first, the other the column.
  cases data.get? id with
  | none => cases columns.get? id <;> rfl
  | some v => cases columns.get? id <;> rfl

theorem submit_differAt {data data' : Data} {columns columns' : Columns} {id : String}
    (hdata : data.DifferAt id data') (hcolumns : columns.DifferAt id columns') :
    (data.submit columns).DifferAt id (data'.submit columns') := by
  intro k hk
  rw [get?_submit, get?_submit, hdata k hk, hcolumns k hk]

theorem reconcile_differAt {data data' : Data} {columns columns' : Columns} {id : String}
    (hdata : data.DifferAt id data') (hcolumns : columns.DifferAt id columns') :
    (data.reconcile columns).DifferAt id (data'.reconcile columns') := by
  intro k hk
  rw [get?_reconcile, get?_reconcile, hdata k hk, hcolumns k hk]

/-- **Rows and submissions are reconciled alike.** A submission keeps the fields that are both in the
data and among the columns, each with the cast of its value, if it has one; the row keeps those that
have one. Either depends, under an id, on the data and the columns under that id only. -/
theorem submit_reconcile (data : Data) (columns : Columns) :
    (∀ id, id ∈ (data.submit columns).ids ↔ id ∈ data.ids ∧ id ∈ columns.ids) ∧
    (∀ id v k, data.get? id = some v → columns.get? id = some k →
      (data.submit columns).get? id = some (v.cast k)) ∧
    data.reconcile columns = (data.submit columns).present ∧
    (∀ (id : String) (data' : Data) (columns' : Columns),
      data.DifferAt id data' → columns.DifferAt id columns' →
      (data.submit columns).DifferAt id (data'.submit columns') ∧
        (data.reconcile columns).DifferAt id (data'.reconcile columns')) := by
  refine ⟨fun id => ?_, fun id v k hv hk => ?_, reconcile_eq_present_submit data columns, ?_⟩
  · simp only [FieldMap.mem_ids_iff, get?_submit_eq_some_iff]
    constructor
    · rintro ⟨_, v, k, hv, hk, -⟩
      exact ⟨⟨v, hv⟩, ⟨k, hk⟩⟩
    · rintro ⟨⟨v, hv⟩, ⟨k, hk⟩⟩
      exact ⟨v.cast k, v, k, hv, hk, rfl⟩
  · exact get?_submit_eq_some_iff.2 ⟨v, k, hv, hk, rfl⟩
  · intro id data' columns' hdata hcolumns
    exact ⟨submit_differAt hdata hcolumns, reconcile_differAt hdata hcolumns⟩

end Data

/-- A form with a number, a text and a boolean; the number is declared as such, the text as a number,
and the boolean not at all. -/
def signUp : Data :=
  ((FieldMap.empty.insert "age" (.number 36)).insert "seats" (.text "two")).insert "member" (.boolean true)

def signUpFields : Columns := (FieldMap.empty.insert "age" .number).insert "seats" .number

/-- The text is known to have no value, and a new column for the boolean changes nothing else. -/
theorem submit_signUp :
    ("seats" ∈ (signUp.submit signUpFields).ids ∧
      (signUp.submit signUpFields).get? "seats" = some none) ∧
    signUp.get? "seats" = some (.text "two") ∧ signUpFields.get? "seats" = some .number ∧
    signUp.DifferAt "member" signUp ∧
    signUpFields.DifferAt "member" (signUpFields.insert "member" .text) ∧
    (signUp.reconcile signUpFields).get? "age" =
      (signUp.reconcile (signUpFields.insert "member" .text)).get? "age" := by
  have hdata := FieldMap.DifferAt.refl "member" signUp
  have hcolumns := FieldMap.differAt_insert signUpFields "member" Kind.text
  obtain ⟨hids, hcast, -, hdiffer⟩ := signUp.submit_reconcile signUpFields
  refine ⟨⟨(hids "seats").2 ⟨?_, ?_⟩, hcast "seats" (.text "two") .number rfl rfl⟩, rfl, rfl, hdata,
    hcolumns, ?_⟩
  · exact FieldMap.mem_ids_iff.2 ⟨_, rfl⟩
  · exact FieldMap.mem_ids_iff.2 ⟨_, rfl⟩
  · exact (hdiffer "member" signUp _ hdata hcolumns).2 "age" (by decide)

/-! ## Conditions on reconciled rows -/

/-- A value of another kind than the literal is compared as if it were absent. -/
theorem Operator.between_of_kind_ne {op : Operator} {left right : Value} (h : left.kind ≠ right.kind) :
    op.between (some left) right = op.between none right := by
  rw [between, between, if_neg h]

/-- The comparison is written for the columns: its field is declared of the kind of its literal, and the
row holds nothing there that would have to be widened. -/
def Comparison.Fits (data : Data) (columns : Columns) (c : Comparison) : Prop :=
  columns.get? c.field = some c.literal.kind ∧
    (c.literal.kind = .text →
      ∀ v, data.get? c.field = some v → v.kind ≠ .number ∧ v.kind ≠ .boolean)

/-- A value whose cast would not widen it is kept as it is if it has the kind, and else dropped. -/
theorem Value.cast_of_not_widened {v : Value} {k : Kind}
    (h : k = .text → v.kind ≠ .number ∧ v.kind ≠ .boolean) :
    v.cast k = if v.kind = k then some v else none := by
  by_cases hk : v.kind = k
  · rw [if_pos hk, ← hk, v.cast_kind]
  · rw [if_neg hk, Option.eq_none_iff_forall_ne_some]
    intro w hw
    rcases exists_cast_iff.1 ⟨w, hw⟩ with rfl | ⟨rfl, hwide⟩
    · exact hk rfl
    · obtain ⟨hnumber, hboolean⟩ := h rfl
      exact hwide.elim hnumber hboolean

theorem Comparison.evaluate_of_fits {c : Comparison} {data : Data} {columns : Columns}
    (h : c.Fits data columns) : c.evaluate (data.reconcile columns) = c.evaluate data := by
  obtain ⟨hdeclared, hwide⟩ := h
  have hget : (data.reconcile columns).get? c.field =
      (data.get? c.field).bind fun v => v.cast c.literal.kind := by
    rw [Data.get?_reconcile, hdeclared]
    rfl
  rw [evaluate, evaluate, hget]
  cases hv : data.get? c.field with
  | none => rfl
  | some v =>
    rw [Option.bind_some, Value.cast_of_not_widened fun ht => hwide ht v hv]
    by_cases hk : v.kind = c.literal.kind
    · rw [if_pos hk]
    · rw [if_neg hk, Operator.between_of_kind_ne hk]

/-- **Reconciling a row changes no condition.** A condition whose fields are declared of the kinds of
their literals comes out on the reconciled row as on the row: with the same verdict or the same error.
A number or a boolean in a text column is left out of this. -/
theorem Condition.evaluate_reconcile (c : Condition) (data : Data) (columns : Columns)
    (h : ∀ m ∈ c.members, m.Fits data columns) :
    c.evaluate (data.reconcile columns) = c.evaluate data :=
  evaluate_congr fun m hm => Comparison.evaluate_of_fits (h m hm)

/-- A row with a text where a number is now declared, and a boolean where a text is. -/
def drifted : Data :=
  ((FieldMap.empty.insert "seats" (.text "two")).insert "due" (.date "2024-05-01")).insert
    "member" (.boolean true)

def driftedColumns : Columns :=
  ((FieldMap.empty.insert "seats" .number).insert "due" .date).insert "member" .text

/-- The first member does not hold of the text, and the second is an error. -/
def isSmallOrLate : Condition := .any [⟨"seats", .lt, .number 3⟩, ⟨"due", .gt, .date "2024-01-31"⟩]

theorem evaluate_drifted :
    (∀ m ∈ isSmallOrLate.members, m.Fits drifted driftedColumns) ∧
      isSmallOrLate.evaluate (drifted.reconcile driftedColumns) = isSmallOrLate.evaluate drifted := by
  have hfits : ∀ m ∈ isSmallOrLate.members, m.Fits drifted driftedColumns := by
    intro m hm
    simp only [isSmallOrLate, Condition.members, List.mem_cons, List.not_mem_nil, or_false] at hm
    rcases hm with rfl | rfl
    · exact ⟨rfl, fun ht => by cases ht⟩
    · exact ⟨rfl, fun ht => by cases ht⟩
  exact ⟨hfits, isSmallOrLate.evaluate_reconcile drifted driftedColumns hfits⟩

/-- Once widened to text the boolean can be compared, but not ordered. -/
example : (Condition.single ⟨"member", .lt, .text "Z"⟩).evaluate drifted = .ok false ∧
    (Condition.single ⟨"member", .lt, .text "Z"⟩).evaluate (drifted.reconcile driftedColumns) =
      .error (.error (.unsupported .lt .text)) := ⟨rfl, rfl⟩

end FormPress
