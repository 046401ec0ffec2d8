import FormPress.Json.Basic
/-!
# Reading JSON

The text of a JSON value is read as brackets, separators, strings and words; blanks between them mean
nothing. A word is a longest run of letters, digits, signs and points, and must be a number or one
of the three literals.

The value is put together from its tokens by one pass that keeps the containers still open. It
checks the text at any depth, but containers can be read only down to 127 levels.

| here | there |
| --- | --- |
| `Json.parse?` | `from_str`, in `read_json` |
| `Json.number?` | `parse_integer`, `parse_decimal`, `parse_exponent` |
| `Json.maxDepth` | the recursion limit of the deserializer |
-/
namespace FormPress.Json

/-! ## Tokens -/

inductive Token
  | openArray | closeArray | openObject | closeObject | colon | comma
  /-- A string literal, by its text, if it has one. -/
  | text (s : Option String)
  /-- A number or one of `null`, `true` and `false`. -/
  | word (value : Json)

/-! ### Words -/

def isWordChar (c : Char) : Bool := c.isAlphanum || c == '-' || c == '+' || c == '.'

/-- Digits, at least one. -/
def isDigits (cs : List Char) : Bool := !cs.isEmpty && cs.all Char.isDigit

/-- The whole part of a number: digits without a leading zero. -/
def isWhole : List Char → Bool
  | ['0'] => true
  | '0' :: _ => false
  | cs => isDigits cs

/-- The digits behind the point, if there is one, and what follows them. -/
def fraction? : List Char → Option (List Char × List Char)
  | '.' :: cs =>
    let digits := cs.takeWhile Char.isDigit
    if digits.isEmpty then none else some (digits, cs.dropWhile Char.isDigit)
  | cs => some ([], cs)

/-- The power of ten in digits with or without a sign. -/
def power? : List Char → Option Int
  | '-' :: cs => if isDigits cs then some (-(Text.readNumeral cs : Int)) else none
  | '+' :: cs => if isDigits cs then some (Text.readNumeral cs) else none
  | cs => if isDigits cs then some (Text.readNumeral cs) else none

/-- The power of ten at the end of a number, if there is one. -/
def exponent? : List Char → Option Int
  | [] => some 0
  | c :: cs => if c = 'e' ∨ c = 'E' then power? cs else none

/-- A number without its sign, `negative` if there was one. Minus zero is not whole. -/
def number? (negative : Bool) (cs : List Char) : Option Json := do
  let whole := cs.takeWhile Char.isDigit
  let rest := cs.dropWhile Char.isDigit
  let (fraction, ending) ← fraction? rest
  let exponent ← exponent? ending
  if !isWhole whole then none
  else if (((Magnitude.ofWhole whole).appendFraction fraction).scale exponent).isOutOfRange then
    some unreadable
  else
    let n := Text.readNumeral whole
    if !rest.isEmpty || (negative && n == 0) then
      some (real (String.ofList (if negative then '-' :: cs else cs)))
    else some (int (if negative then -(n : Int) else n))

def word? : List Char → Option Json
  | ['n', 'u', 'l', 'l'] => some null
  | ['t', 'r', 'u', 'e'] => some (bool true)
  | ['f', 'a', 'l', 's', 'e'] => some (bool false)
  | '-' :: cs => number? true cs
  | cs => number? false cs

/-! ### The tokens of a text -/

def isSpace (c : Char) : Bool := c == ' ' || c == '\t' || c == '\n' || c == '\r'

def punctuation? : Char → Option Token
  | '[' => some .openArray
  | ']' => some .closeArray
  | '\x7b' => some .openObject
  | '\x7d' => some .closeObject
  | ':' => some .colon
  | ',' => some .comma
  | _ => none

theorem length_dropWhile_lt {p : Char → Bool} {c : Char} (cs : List Char) (h : p c = true) :
    ((c :: cs).dropWhile p).length < (c :: cs).length := by
  rw [List.dropWhile_cons_of_pos h]
  exact Nat.lt_succ_of_le (List.dropWhile_sublist p).length_le

/-- The tokens of a text. -/
def tokens? : List Char → Option (List Token)
  | [] => some []
  | c :: cs =>
    if isSpace c then tokens? cs
    else if c = '"' then
      match h : Quoted.scan cs with
      | none => none
      | some (pieces, rest) =>
        have : rest.length < cs.length := Quoted.scan_length h
        (tokens? rest).map (.text ((Quoted.text? pieces).map String.ofList) :: ·)
    else if h : isWordChar c then
      have := length_dropWhile_lt cs h
      match word? ((c :: cs).takeWhile isWordChar) with
      | none => none
      | some value => (tokens? ((c :: cs).dropWhile isWordChar)).map (.word value :: ·)
    else
      match punctuation? c with
      | none => none
      | some token => (tokens? cs).map (token :: ·)
termination_by cs => cs.length
decreasing_by all_goals simp_all <;> omega

/-! ## Values from tokens -/

/-- The fields that have been read of an object; a name can be unreadable. -/
abbrev Fields := List (Option String × Json)

/-- A container that is still open, with what has been read of it, last first. -/
inductive Frame
  | array (items : List Json)
  /-- An object whose last field has its name but not yet its value. -/
  | object (fields : Fields) (name : Option String)

/-- What must come next. -/
inductive Awaiting
  | value
  /-- An item, or the end of the array. -/
  | firstItem
  /-- A field's name, or the end of the object. -/
  | firstName
  | name (fields : Fields)
  | colon (fields : Fields) (name : Option String)
  /-- A value has been read: a separator, the end of its container, or the end of the text. -/
  | separator (value : Json)

/-- The open containers, innermost first, and what must come next. -/
structure Progress where
  frames : List Frame
  awaiting : Awaiting

/-- How deep values may nest. -/
def maxDepth : Nat := 127

/-- The object of fields, the last first, if all their names can be read. -/
def ofFields (fields : Fields) : Json :=
  if fields.all (fun f => f.1.isSome) then
    obj (fields.reverse.filterMap fun f => f.1.map (·, f.2))
  else unreadable

/-- A container has been closed; inside `maxDepth` others it is too deep. -/
def close (frames : List Frame) (container : Json) : Progress :=
  ⟨frames, .separator (if (frames.drop (maxDepth - 1)).isEmpty then container else unreadable)⟩

/-- A token that starts a value inside the given containers. -/
def startValue (frames : List Frame) : Token → Option Progress
  | .word value => some ⟨frames, .separator value⟩
  | .text (some s) => some ⟨frames, .separator (str s)⟩
  | .text none => some ⟨frames, .separator unreadable⟩
  | .openArray => some ⟨frames, .firstItem⟩
  | .openObject => some ⟨frames, .firstName⟩
  | _ => none

/-- A token behind a value. -/
def continueFrame (value : Json) : List Frame → Token → Option Progress
  | .array items :: frames, .comma => some ⟨.array (value :: items) :: frames, .value⟩
  | .array items :: frames, .closeArray => some (close frames (arr (value :: items).reverse))
  | .object fields name :: frames, .comma => some ⟨frames, .name ((name, value) :: fields)⟩
  | .object fields name :: frames, .closeObject =>
    some (close frames (ofFields ((name, value) :: fields)))
  | _, _ => none

/-- Takes one token. -/
def Progress.take (p : Progress) (token : Token) : Option Progress :=
  match p.awaiting, token with
  | .value, token => startValue p.frames token
  | .firstItem, .closeArray => some (close p.frames (arr []))
  | .firstItem, token => startValue (.array [] :: p.frames) token
  | .firstName, .closeObject => some (close p.frames (obj []))
  | .firstName, .text name => some ⟨p.frames, .colon [] name⟩
  | .name fields, .text name => some ⟨p.frames, .colon fields name⟩
  | .colon fields name, .colon => some ⟨.object fields name :: p.frames, .value⟩
  | .separator value, token => continueFrame value p.frames token
  | _, _ => none

/-- Takes tokens one after another. -/
def Progress.takeAll (p : Progress) : List Token → Option Progress
  | [] => some p
  | token :: tokens => (p.take token).bind (·.takeAll tokens)

/-- The value that has been read, if it is complete. -/
def Progress.result? : Progress → Option Json
  | ⟨[], .separator value⟩ => some value
  | _ => none

/-- The value that tokens make up. -/
def ofTokens? (tokens : List Token) : Option Json :=
  (Progress.takeAll ⟨[], .value⟩ tokens).bind Progress.result?

/-- The value that a text holds, with nothing but blanks around it. -/
def parse? (text : String) : Option Json := (tokens? text.toList).bind ofTokens?

end FormPress.Json
