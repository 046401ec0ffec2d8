import FormPress.FieldMap
import FormPress.Json.Basic
/-!
# Records in JSON

How structured values are found in JSON. A record is an object that names each of its fields at most
once, or an array that gives them in order; fields that have a default may be missing at the array's
end. A value with alternatives carries a tag: in an object under the name `type`, in an array at its
head. A table is an object, of whose repeated names the last counts, though every one must be valid.

What a record does not name is skipped, even where it cannot be read. A value whose tag is not yet
known is set aside instead: all of it must be readable, and names in it have more spellings.

Readers answer `none` for JSON of another shape.

| here | there |
| --- | --- |
| `Wire.record`, `Wire.required` | the readers derived for records |
| `Wire.withDefault`, `Wire.listField`, `Wire.optionField` | fields marked `default` |
| `Wire.oneOf` | the readers derived for types marked `tag = "type"` |
| `Wire.Place` | whether a value is read as it stands or out of what has been set aside for its tag |
| `Wire.table` | the readers of maps by field id |
-/
namespace FormPress.Wire

/-- Reads a value of a type from JSON. -/
abbrev Reader (α : Type) := Json → Option α

/-- Where a value stands. -/
inductive Place
  /-- Outside all tagged values. -/
  | outside
  /-- Inside a tagged value, which was set aside as a whole. -/
  | inside
  deriving DecidableEq

/-! ## Scalars -/

def text : Reader String
  | .str s => some s
  | _ => none

def boolean : Reader Bool
  | .bool b => some b
  | _ => none

/-- Whole numbers of a range, both ends included. -/
def integer (lo hi : Int) : Reader Int
  | .int n => if lo ≤ n ∧ n ≤ hi then some n else none
  | _ => none

/-- What `read` reads, or nothing for `null`. -/
def optional {α : Type} (read : Reader α) : Reader (Option α)
  | .null => some none
  | j => (read j).map some

/-- One of several names, as a string or as the only field of an object, whose value is then `null`
or, inside a tagged value, an object without fields. -/
def named {α : Type} (place : Place) (ofName? : String → Option α) : Reader α
  | .str s => ofName? s
  | .obj [(s, .null)] => ofName? s
  | .obj [(s, .obj [])] => if place = .inside then ofName? s else none
  | _ => none

/-! ## Lists and tables -/

/-- Reads every item. -/
def items {α : Type} (read : Reader α) : List Json → Option (List α)
  | [] => some []
  | j :: js => do
    let a ← read j
    let as ← items read js
    return a :: as

def list {α : Type} (read : Reader α) : Reader (List α)
  | .arr js => items read js
  | _ => none

/-- Reads the value of every entry. -/
def entries {α : Type} (read : Reader α) : List (String × Json) → Option (List (String × α))
  | [] => some []
  | (id, j) :: rest => do
    let a ← read j
    let more ← entries read rest
    return (id, a) :: more

def table {α : Type} (read : Reader α) : Reader (FieldMap α)
  | .obj fields => (entries read fields).map FieldMap.ofList
  | _ => none

/-! ## Records -/

/-- The value of the one field of a name: `some none` if there is no such field, `none` if there are
several. -/
def single? (name : String) (fields : List (String × Json)) : Option (Option Json) :=
  match fields.filter (fun f => f.1 == name) with
  | [] => some none
  | [f] => some (some f.2)
  | _ => none

/-- The values of named fields, each at most once. -/
def pick? (names : List String) (fields : List (String × Json)) : Option (List (Option Json)) :=
  match names with
  | [] => some []
  | name :: names => do
    let j ← single? name fields
    let js ← pick? names fields
    return j :: js

/-- The values of a record's fields, in the order of their names. Fields of other names do not
count. -/
def record (names : List String) : Reader (List (Option Json))
  | .obj fields => pick? names fields
  | .arr js =>
    if js.length ≤ names.length then
      some (js.map some ++ List.replicate (names.length - js.length) none)
    else none
  | _ => none

/-- A field that must be there. -/
def required {α : Type} (read : Reader α) (j : Option Json) : Option α := j.bind read

/-- A field that has a default when it is missing. -/
def withDefault {α : Type} (default : α) (read : Reader α) : Option Json → Option α
  | none => some default
  | some j => read j

/-- A list that is empty when it is missing. -/
def listField {α : Type} (read : Reader α) : Option Json → Option (List α) :=
  withDefault [] (list read)

/-- A value that is absent when its field is missing or `null`. -/
def optionField {α : Type} (read : Reader α) : Option Json → Option (Option α) :=
  withDefault none (optional read)

/-! ## Tags -/

/-- One of the tags `tags`, as a string or, inside a tagged value, as its number in their order.
Other strings are left for the reader of alternatives to refuse. -/
def tag (place : Place) (tags : List String) : Reader String
  | .str s => some s
  | .int n => if place = .inside ∧ 0 ≤ n then tags[n.toNat]? else none
  | _ => none

/-- Parts a value with alternatives into its tag and the record that the tag stands with. -/
def tagged (place : Place) (tags : List String) : Reader (String × Json) := fun j =>
  if !j.isReadable then none
  else
    match j with
    | .obj fields => do
      let name ← tag place tags (← (← single? "type" fields))
      return (name, .obj (fields.filter fun f => f.1 != "type"))
    | .arr (head :: rest) => do return (← tag place tags head, .arr rest)
    | _ => none

/-- A tag, and how the record behind it is read. -/
structure Alternative (α : Type) where
  tag : String
  read : Reader α

/-- Reads a value with alternatives: the one that has its tag reads its record. -/
def oneOf {α : Type} (place : Place) (alternatives : List (Alternative α)) : Reader α := fun j => do
  let (name, body) ← tagged place (alternatives.map Alternative.tag) j
  (← alternatives.find? fun a => a.tag == name).read body

/-- A record without fields: any object, or no items. -/
def unit : Reader Unit
  | .obj _ => some ()
  | .arr [] => some ()
  | _ => none

/-! ## Writing -/

/-- An absent value is written as `null`. -/
def ofOption {α : Type} (write : α → Json) : Option α → Json
  | none => .null
  | some a => write a

def ofListWith {α : Type} (write : α → Json) (as : List α) : Json := .arr (as.map write)

def ofTable {α : Type} (write : α → Json) (m : FieldMap α) : Json :=
  .obj (m.entries.map fun e => (e.1, write e.2))

end FormPress.Wire
