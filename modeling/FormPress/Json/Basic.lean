import FormPress.Json.Quoted
import FormPress.Number
/-!
# JSON values and their text

A JSON value as it was written: the fields of an object keep their order and may repeat, for it is
up to the reader of a record to refuse a repeated field. Whole numbers are kept apart from all other
numbers; a number with a fraction or an exponent, and minus zero, is kept as its literal.

JSON text can be well formed and yet stand for no value: a string with half of a surrogate pair, a
number out of range, an object with such a name, a container that is nested too deep. What such text
is put down as, `unreadable`, may be skipped but neither read nor set aside.

There are two written forms of a value: compact, without any blanks, and indented by two blanks a
level. Empty containers are closed at once in both. What cannot be read has no written form, and
`null` stands in for it.

| here | there |
| --- | --- |
| `Json` | a value as a reader meets it, or one that `serialize` has made |
| `Json.unreadable` | what `ignore_value` skips and `deserialize_any` refuses |
| `Json.print` | `to_string` |
| `Json.pretty` | `to_string_pretty`, in `print_json` |
-/
namespace FormPress

/-! ## Values -/

inductive Json
  | null
  | bool (b : Bool)
  | int (n : Int)
  | real (literal : String)
  | str (s : String)
  | arr (items : List Json)
  | obj (fields : List (String × Json))
  | unreadable

instance : Inhabited Json := ⟨.null⟩

namespace Json

mutual

/-- Whether the value and all its parts can be read. -/
def isReadable : Json → Bool
  | unreadable => false
  | arr items => areReadable items
  | obj fields => haveReadable fields
  | _ => true

def areReadable : List Json → Bool
  | [] => true
  | item :: items => isReadable item && areReadable items

def haveReadable : List (String × Json) → Bool
  | [] => true
  | (_, value) :: fields => isReadable value && haveReadable fields

end

/-! ## Written forms -/

def boolWord (b : Bool) : List Char := if b then "true".toList else "false".toList

mutual

/-- The compact form. -/
def compact : Json → List Char
  | null | unreadable => "null".toList
  | bool b => boolWord b
  | int n => Text.signedNumeral n
  | real literal => literal.toList
  | str s => Quoted.encode s
  | arr [] => "[]".toList
  | arr (item :: items) => '[' :: (compact item ++ compactItems items)
  | obj [] => "\x7b\x7d".toList
  | obj (field :: fields) => '\x7b' :: (compactField field ++ compactFields fields)

/-- The items behind the first, and the end of the array. -/
def compactItems : List Json → List Char
  | [] => [']']
  | item :: items => ',' :: (compact item ++ compactItems items)

def compactField : String × Json → List Char
  | (name, value) => Quoted.encode name ++ ':' :: compact value

/-- The fields behind the first, and the end of the object. -/
def compactFields : List (String × Json) → List Char
  | [] => ['\x7d']
  | field :: fields => ',' :: (compactField field ++ compactFields fields)

end

/-- A new line indented by a number of levels. -/
def newLine (level : Nat) : List Char := '\n' :: List.replicate (2 * level) ' '

mutual

/-- The indented form, for a value that stands at a level. -/
def indented (level : Nat) : Json → List Char
  | null | unreadable => "null".toList
  | bool b => boolWord b
  | int n => Text.signedNumeral n
  | real literal => literal.toList
  | str s => Quoted.encode s
  | arr [] => "[]".toList
  | arr (item :: items) =>
    '[' :: (newLine (level + 1) ++ indented (level + 1) item ++ indentedItems level items)
  | obj [] => "\x7b\x7d".toList
  | obj (field :: fields) =>
    '\x7b' :: (newLine (level + 1) ++ indentedField (level + 1) field
      ++ indentedFields level fields)

def indentedItems (level : Nat) : List Json → List Char
  | [] => newLine level ++ [']']
  | item :: items =>
    ',' :: (newLine (level + 1) ++ indented (level + 1) item ++ indentedItems level items)

def indentedField (level : Nat) : String × Json → List Char
  | (name, value) => Quoted.encode name ++ ':' :: ' ' :: indented level value

def indentedFields (level : Nat) : List (String × Json) → List Char
  | [] => newLine level ++ ['\x7d']
  | field :: fields =>
    ',' :: (newLine (level + 1) ++ indentedField (level + 1) field
      ++ indentedFields level fields)

end

/-- The compact text of a value. -/
def print (j : Json) : String := String.ofList j.compact

/-- The indented text of a value. -/
def pretty (j : Json) : String := String.ofList (j.indented 0)

end Json

end FormPress
