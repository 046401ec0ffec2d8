import FormPress.Toml.Basic
import FormPress.Toml.Quoted
import FormPress.Toml.Scalar
/-!
# Reading TOML

A text is a sequence of lines, each a header, a key with its value, or nothing; comments and blanks
aside. The lines are read first and then put together to one table. Arrays of tables, which no
settings hold, are refused. Every reader gives what it has read and the text that follows.

| here | there |
| --- | --- |
| `Toml.parse?` | `from_str`, in `Config::load` |
| `Toml.maxDepth` | the recursion limit of that reader |
-/
namespace FormPress.Toml

def isSpace (c : Char) : Bool := c == ' ' || c == '\t'

def dropSpaces (cs : List Char) : List Char := cs.dropWhile isSpace

/-- What follows the line break that stands here, maybe behind a comment. -/
def endLine? (cs : List Char) : Option (List Char) :=
  let cs :=
    match dropSpaces cs with
    | '#' :: rest => rest.dropWhile isPlain
    | cs => cs
  match cs with
  | [] => some []
  | '\n' :: rest => some rest
  | '\r' :: '\n' :: rest => some rest
  | _ => none

/-- Leaves out blanks, line breaks and comments; `inComment` says whether one has begun. -/
def dropLines (inComment : Bool) : List Char → List Char
  | [] => []
  | '\n' :: rest => dropLines false rest
  | '\r' :: '\n' :: rest => dropLines false rest
  | c :: rest =>
    if inComment then (if isPlain c then dropLines true rest else c :: rest)
    else if isSpace c then dropLines false rest
    else if c = '#' then dropLines true rest
    else c :: rest

/-! ## Keys -/

def isBareKeyChar (c : Char) : Bool := c.isAlphanum || c == '-' || c == '_'

/-- One name: a word of letters, digits, hyphens and underscores, or a text on one line. -/
def simpleKey? (cs : List Char) : Option (String × List Char) :=
  match cs.takeWhile isBareKeyChar with
  | [] => (quoted? cs).map fun (name, rest) => (String.ofList name, rest)
  | name => some (String.ofList name, cs.dropWhile isBareKeyChar)

/-- Names with points between them. -/
def names? (cs : List Char) : Option (List String × List Char) := do
  let (name, rest) ← simpleKey? (dropSpaces cs)
  match dropSpaces rest with
  | '.' :: more =>
    if _ : more.length < cs.length then
      let (names, rest) ← names? more
      return (name :: names, rest)
    else none
  | rest => return ([name], rest)
termination_by cs.length

/-- How deep values may nest, and how many names a key may have. -/
def maxDepth : Nat := 79

/-- A key. -/
def key? (cs : List Char) : Option (List String × List Char) :=
  (names? cs).filter fun (path, _) => path.length ≤ maxDepth

/-! ## Values -/

/-- A key, the equals sign, and the value that `read` reads. -/
def pair? (read : List Char → Option (Toml × List Char)) (cs : List Char) :
    Option ((List String × Toml) × List Char) := do
  let (path, rest) ← key? cs
  match rest with
  | '=' :: rest => do
    let (value, rest) ← read (dropSpaces rest)
    return ((path, value), rest)
  | _ => none

/-- The items of an array, up to and with its bracket; a comma may stand behind the last. -/
def items? (read : List Char → Option (Toml × List Char)) (cs : List Char) :
    Option (List Toml × List Char) :=
  match dropLines false cs with
  | ']' :: rest => some ([], rest)
  | here => do
    let (value, rest) ← read here
    match dropLines false rest with
    | ']' :: rest => return ([value], rest)
    | ',' :: more =>
      if _ : more.length < cs.length then
        let (values, rest) ← items? read more
        return (value :: values, rest)
      else none
    | _ => none
termination_by cs.length

/-- The pairs of an inline table, at least one, up to and with its brace. -/
def pairs? (read : List Char → Option (Toml × List Char)) (cs : List Char) :
    Option (List (List String × Toml) × List Char) := do
  let (pair, rest) ← pair? read cs
  match dropSpaces rest with
  | '\x7d' :: rest => return ([pair], rest)
  | ',' :: more =>
    if _ : more.length < cs.length then
      let (pairs, rest) ← pairs? read more
      return (pair :: pairs, rest)
    else none
  | _ => none
termination_by cs.length

/-- The inline table of its pairs. -/
def inlineTable? (pairs : List (List String × Toml)) : Option Toml := do
  return table .inline (← pairs.foldlM (fun fields pair => assign pair.2 pair.1 fields) [])

/-- A value without parts. -/
def leaf? (cs : List Char) : Option (Toml × List Char) :=
  match cs with
  | [] => none
  | c :: _ =>
    if c = '"' ∨ c = quote then (string? cs).map fun (s, rest) => (text (String.ofList s), rest)
    else scalar? cs

/-- A value that nests at most to a depth. -/
def value? : Nat → List Char → Option (Toml × List Char)
  | depth + 1, '[' :: rest => do
    let (values, rest) ← items? (value? depth) rest
    return (array values, rest)
  | depth + 1, '\x7b' :: rest =>
    match dropSpaces rest with
    | '\x7d' :: rest => some (table .inline [], rest)
    | _ => do
      let (pairs, rest) ← pairs? (value? depth) rest
      return (← inlineTable? pairs, rest)
  | _, cs => leaf? cs

/-! ## Lines -/

inductive Line
  | header (path : List String)
  | pair (path : List String) (value : Toml)

/-- A line that is not blank. -/
def line? (cs : List Char) : Option (Line × List Char) :=
  match cs with
  | '[' :: rest => do
    let (path, rest) ← key? rest
    match rest with
    | ']' :: rest => return (.header path, rest)
    | _ => none
  | _ => do
    let ((path, value), rest) ← pair? (value? maxDepth) cs
    return (.pair path value, rest)

/-- The lines of a text. -/
def lines? (cs : List Char) : Option (List Line) :=
  match dropLines false cs with
  | [] => some []
  | here => do
    let (line, rest) ← line? here
    let rest ← endLine? rest
    if _ : rest.length < cs.length then
      return line :: (← lines? rest)
    else none
termination_by cs.length

/-- The root table that lines make up behind a header. -/
def ofLines? (header : List String) (root : Fields) : List Line → Option Fields
  | [] => some root
  | .header path :: rest => do ofLines? path (← alterAt define path root) rest
  | .pair path value :: rest => do
    ofLines? header (← assignUnder header path value root) rest

/-- The table that a text holds. A byte order mark may stand before it. -/
def parse? (text : String) : Option Toml := do
  let cs :=
    match text.toList with
    | '\uFEFF' :: cs => cs
    | cs => cs
  return table .header (← ofLines? [] [] (← lines? cs))

end FormPress.Toml
