import FormPress.Calendar
import FormPress.FieldMap
/-!
# Typed values

A cell or form field holds a value of one of eight kinds; the kind of a value is fixed by its
constructor. Dates and date-times are kept as the text they were written in and are read only when
they are compared or displayed.

A value is cast to a kind by leaving it as it is, or by widening a number or a boolean to text;
nothing else can be cast. Reconciliation casts every value of a row or a form to its declared kind.

What a reader sees of a value is made by a formatter. The standard one shows labels for booleans and
choices, the local minute of a date-time, and the members of a list joined by a separator. The text
is plain; markup is the document's affair.

| here | there |
| --- | --- |
| `Kind.name`, `Kind.ofName?` | `Kind::as_str`, `Kind::from_str` |
| `Value` | `TypedValue` |
| `Value.cast` | `cast` |
| `booleanWord` | `TRUE_WORD`, `FALSE_WORD` |
| `Data.reconcile` | `reconcile_row` |
| `Data.submit` | `reconcile_submission` |
| `Formatter` | `ValueFormatter` |
| `Labels`, `Labels.display` | `DefaultFormatter` and its `format` |
| `Labels.choice` | `choice_label` |
-/
namespace FormPress

/-! ## Values -/

/-- What a column or a form field can declare. -/
inductive Kind
  | text | number | boolean | date | datetime | choice | choiceList | file
  deriving DecidableEq

namespace Kind

/-- The eight kinds, in the order in which they are listed to users. -/
def all : List Kind := [text, number, boolean, date, datetime, choice, choiceList, file]

def name : Kind → String
  | text => "text"
  | number => "number"
  | boolean => "boolean"
  | date => "date"
  | datetime => "datetime"
  | choice => "choice"
  | choiceList => "choiceList"
  | file => "file"

/-- The kind of a name; case matters. -/
def ofName? (s : String) : Option Kind := all.find? fun k => k.name == s

theorem ofName?_name (k : Kind) : ofName? k.name = some k := by
  cases k <;> decide

end Kind

/-- An uploaded file that a value refers to. -/
structure FileRef where
  url : String
  filename : String
  size : UInt64
  mimeType : String
  checksum : String
  deriving DecidableEq

/-- A value of one of the eight kinds. -/
inductive Value
  | text (s : String)
  | number (n : Int64)
  | boolean (b : Bool)
  | date (written : String)
  | datetime (written : String)
  | choice (id : String)
  | choiceList (ids : List String)
  | file (files : List FileRef)
  deriving DecidableEq

def Value.kind : Value → Kind
  | .text _ => .text
  | .number _ => .number
  | .boolean _ => .boolean
  | .date _ => .date
  | .datetime _ => .datetime
  | .choice _ => .choice
  | .choiceList _ => .choiceList
  | .file _ => .file

/-- The values of one row or form, by field id. -/
abbrev Data := FieldMap Value

/-- The rows that each list placeholder repeats over, by its id. -/
abbrev SubData := FieldMap (List Data)

/-- The declared kind of each column or form field. -/
abbrev Columns := FieldMap Kind

/-- What is left of a submitted form: a field that was submitted but does not fit its declared kind
stays with `none`, so that a stored value can be cleared. -/
abbrev Submission := FieldMap (Option Value)

/-! ## Casts and reconciliation -/

/-- The word a boolean becomes as text. -/
def booleanWord (b : Bool) : String := if b then "Yes" else "No"

/-- The decimal numeral of a number. -/
def numberWord (n : Int64) : String := String.ofList (Text.signedNumeral n.toInt)

namespace Value

/-- The text that a number or a boolean widens to. -/
def widen? : Value → Option String
  | number n => some (numberWord n)
  | boolean b => some (booleanWord b)
  | _ => none

/-- The value as one of the target kind, if it can be one. -/
def cast (v : Value) (target : Kind) : Option Value :=
  if v.kind = target then some v
  else if target = .text then v.widen?.map .text
  else none

theorem cast_kind (v : Value) : v.cast v.kind = some v := by simp [cast]

theorem kind_of_cast {v w : Value} {k : Kind} (h : v.cast k = some w) : w.kind = k := by
  unfold cast at h
  split at h
  · rename_i hk; cases h; exact hk
  · split at h
    · rename_i ht
      obtain ⟨s, _, rfl⟩ := Option.map_eq_some_iff.1 h
      exact ht.symm
    · cases h

end Value

/-- The row under the columns as they are now: a value whose column is gone or whose kind no longer
fits is left out. -/
def Data.reconcile (data : Data) (columns : Columns) : Data :=
  data.filterMap fun id v => (columns.get? id).bind v.cast

/-- The submission under the declared fields: an undeclared field is left out, one that does not fit
is kept without a value. -/
def Data.submit (data : Data) (columns : Columns) : Submission :=
  columns.filterMap fun id kind => (data.get? id).map (·.cast kind)

theorem Data.get?_reconcile (data : Data) (columns : Columns) (id : String) :
    (data.reconcile columns).get? id =
      (data.get? id).bind fun v => (columns.get? id).bind v.cast :=
  FieldMap.get?_filterMap _ _ _

theorem Data.get?_submit (data : Data) (columns : Columns) (id : String) :
    (data.submit columns).get? id =
      (columns.get? id).bind fun kind => (data.get? id).map (·.cast kind) :=
  FieldMap.get?_filterMap _ _ _

/-! ## Display text -/

/-- What makes plain text of a value. -/
abbrev Formatter := Value → Except Abort String

/-- The words that display text is made of. -/
structure Labels where
  trueLabel : String := booleanWord true
  falseLabel : String := booleanWord false
  separator : String := ", "
  /-- The label of a choice; a choice without one is shown by its id. -/
  choices : FieldMap String := .empty
  deriving DecidableEq

namespace Labels

def choice (labels : Labels) (id : String) : String := (labels.choices.get? id).getD id

/-- A date-time that cannot be read is shown as it was written. -/
def datetime (written : String) : Except Abort String := do
  match ← DateTime.parse written with
  | some t => return String.ofList t.display
  | none => return written

/-- The display text of a value. -/
def display (labels : Labels) : Formatter
  | .text s => .ok s
  | .number n => .ok (numberWord n)
  | .boolean b => .ok (if b then labels.trueLabel else labels.falseLabel)
  | .date written => .ok written
  | .datetime written => datetime written
  | .choice id => .ok (labels.choice id)
  | .choiceList ids => .ok (labels.separator.intercalate (ids.map labels.choice))
  | .file files => .ok (labels.separator.intercalate (files.map FileRef.filename))

end Labels

end FormPress
