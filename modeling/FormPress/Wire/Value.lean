import FormPress.Condition
import FormPress.Wire.Record
/-!
# Values and conditions in JSON

A value is written as its kind and its payload, `type` and `value`; in an array the kind is a tag. A
payload that stands before its kind is set aside until the kind is known. The maps of values, of rows
and of kinds are tables by field id. A comparison is a record of the field, the operator and the
literal. A condition is tagged: a single comparison carries the tag among its own fields, the others
have a list of members. In written objects the fields stand in the order of their names.

The readers and writers are those that the program derives from its types: `Kind`, `FileRef`,
`TypedValue`, `Data`, `SubData`, `Columns`, `Submission`, `Operator`, `Binary` and `Expression`.
-/
namespace FormPress

/-! ## Values -/

def Kind.ofJsonAt? (place : Wire.Place) : Wire.Reader Kind := Wire.named place Kind.ofName?

def Kind.ofJson? : Wire.Reader Kind := Kind.ofJsonAt? .outside

def Kind.toJson (k : Kind) : Json := .str k.name

/-! ### File references -/

def FileRef.readSize : Wire.Reader UInt64 := fun j =>
  (Wire.integer 0 18446744073709551615 j).map fun n => UInt64.ofNat n.toNat

def FileRef.ofJson? : Wire.Reader FileRef := fun j => do
  match ← Wire.record ["url", "filename", "size", "mimeType", "checksum"] j with
  | [url, filename, size, mimeType, checksum] =>
    return {
      url := ← Wire.required Wire.text url
      filename := ← Wire.required Wire.text filename
      size := ← Wire.required readSize size
      mimeType := ← Wire.required Wire.text mimeType
      checksum := ← Wire.required Wire.text checksum }
  | _ => none

def FileRef.toJson (f : FileRef) : Json :=
  .obj [("checksum", .str f.checksum), ("filename", .str f.filename),
    ("mimeType", .str f.mimeType), ("size", .int f.size.toNat), ("url", .str f.url)]

/-! ### Kind and payload -/

def Value.readNumber : Wire.Reader Int64 := fun j =>
  (Wire.integer (-9223372036854775808) 9223372036854775807 j).map Int64.ofInt

/-- The payload of a value of a kind. -/
def Value.readPayload : Kind → Wire.Reader Value
  | .text => fun j => (Wire.text j).map .text
  | .number => fun j => (readNumber j).map .number
  | .boolean => fun j => (Wire.boolean j).map .boolean
  | .date => fun j => (Wire.text j).map .date
  | .datetime => fun j => (Wire.text j).map .datetime
  | .choice => fun j => (Wire.text j).map .choice
  | .choiceList => fun j => (Wire.list Wire.text j).map .choiceList
  | .file => fun j => (Wire.list FileRef.ofJson? j).map .file

/-- Whether the payload stands before the kind. -/
def Value.isPayloadFirst (fields : List (String × Json)) : Bool :=
  ((fields.map (·.1)).find? fun name => name == "type" || name == "value") == some "value"

def Value.ofJsonAt? (place : Wire.Place) : Wire.Reader Value
  | .arr [kind, payload] => do
    let name ← Wire.tag place (Kind.all.map Kind.name) kind
    readPayload (← Kind.ofName? name) payload
  | .obj fields => do
    match ← Wire.pick? ["type", "value"] fields with
    | [some kind, some payload] =>
      let kind ← Kind.ofJsonAt? place kind
      if isPayloadFirst fields && !payload.isReadable then none else readPayload kind payload
    | _ => none
  | _ => none

def Value.ofJson? : Wire.Reader Value := Value.ofJsonAt? .outside

def Value.payloadJson : Value → Json
  | .text s | .date s | .datetime s | .choice s => .str s
  | .number n => .int n.toInt
  | .boolean b => .bool b
  | .choiceList ids => Wire.ofListWith .str ids
  | .file files => Wire.ofListWith FileRef.toJson files

def Value.toJson (v : Value) : Json :=
  .obj [("type", v.kind.toJson), ("value", v.payloadJson)]

/-! ### Tables -/

def Data.ofJson? : Wire.Reader Data := Wire.table Value.ofJson?

def Data.toJson (d : Data) : Json := Wire.ofTable Value.toJson d

def SubData.ofJson? : Wire.Reader SubData := Wire.table (Wire.list Data.ofJson?)

def SubData.toJson (s : SubData) : Json := Wire.ofTable (Wire.ofListWith Data.toJson) s

def Columns.ofJson? : Wire.Reader Columns := Wire.table Kind.ofJson?

def Columns.toJson (c : Columns) : Json := Wire.ofTable Kind.toJson c

def Submission.toJson (s : Submission) : Json := Wire.ofTable (Wire.ofOption Value.toJson) s

/-! ## Conditions -/

def Operator.ofJsonAt? (place : Wire.Place) : Wire.Reader Operator :=
  Wire.named place Operator.ofName?

def Operator.ofJson? : Wire.Reader Operator := Operator.ofJsonAt? .outside

def Operator.toJson (op : Operator) : Json := .str op.name

def Comparison.ofJsonAt? (place : Wire.Place) : Wire.Reader Comparison := fun j => do
  match ← Wire.record ["left", "operator", "right"] j with
  | [left, operator, right] =>
    return {
      field := ← Wire.required Wire.text left
      operator := ← Wire.required (Operator.ofJsonAt? place) operator
      literal := ← Wire.required (Value.ofJsonAt? place) right }
  | _ => none

def Comparison.ofJson? : Wire.Reader Comparison := Comparison.ofJsonAt? .outside

/-- The fields of a comparison. -/
def Comparison.jsonFields (c : Comparison) : List (String × Json) :=
  [("left", .str c.field), ("operator", c.operator.toJson), ("right", c.literal.toJson)]

def Comparison.toJson (c : Comparison) : Json := .obj c.jsonFields

/-- The members of a conjunction or disjunction. -/
def Condition.readMembers : Wire.Reader (List Comparison) := fun j => do
  match ← Wire.record ["expressions"] j with
  | [members] => Wire.required (Wire.list (Comparison.ofJsonAt? .inside)) members
  | _ => none

def Condition.alternatives : List (Wire.Alternative Condition) :=
  [⟨"binary", fun j => (Comparison.ofJsonAt? .inside j).map .single⟩,
    ⟨"and", fun j => (readMembers j).map .all⟩,
    ⟨"or", fun j => (readMembers j).map .any⟩]

def Condition.ofJsonAt? (place : Wire.Place) : Wire.Reader Condition := Wire.oneOf place alternatives

def Condition.ofJson? : Wire.Reader Condition := Condition.ofJsonAt? .outside

def Condition.membersJson (tag : String) (members : List Comparison) : Json :=
  .obj [("expressions", Wire.ofListWith Comparison.toJson members), ("type", .str tag)]

def Condition.toJson : Condition → Json
  | .single c => .obj (c.jsonFields ++ [("type", .str "binary")])
  | .all members => membersJson "and" members
  | .any members => membersJson "or" members

end FormPress
