import FormPress.Calendar
import FormPress.Toml.Basic
/-!
# TOML scalars

The values that are one word: booleans, numbers, dates and times.

Of numbers it matters only that they are well formed and in range: integers have 64 bits and a sign,
and no positive float is so large that only infinity would be left of it. Dates and times are kept in
a normal form: a capital `T` stands between date and time, a fraction has at most nine digits and does
not end in zeros, universal time is a capital `Z`, and an offset of nothing is positive.
-/
namespace FormPress.Toml

/-! ## Numbers -/

/-- Digits of a class with single underscores between them. -/
def isGrouped (isDigit : Char → Bool) : List Char → Bool
  | [] => false
  | [c] => isDigit c
  | c :: '_' :: rest => isDigit c && isGrouped isDigit rest
  | c :: rest => isDigit c && isGrouped isDigit rest

def isHexDigit (c : Char) : Bool :=
  c.isDigit || ('a' ≤ c && c ≤ 'f') || ('A' ≤ c && c ≤ 'F')

def isOctalDigit (c : Char) : Bool := '0' ≤ c && c ≤ '7'

def isBinaryDigit (c : Char) : Bool := c == '0' || c == '1'

def dropSign : List Char → List Char
  | '+' :: cs | '-' :: cs => cs
  | cs => cs

/-- The digits without the underscores between them. -/
def ungroup (cs : List Char) : List Char := cs.filter (· != '_')

/-- The number of grouped digits to base ten. -/
def readDecimal (cs : List Char) : Nat := Text.readNumeral (ungroup cs)

/-- The value of a digit to base sixteen. -/
def digitValue (c : Char) : Nat :=
  if c.isDigit then c.toNat - '0'.toNat
  else if 'a' ≤ c then c.toNat - 'a'.toNat + 10
  else c.toNat - 'A'.toNat + 10

/-- The number of grouped digits to another base. -/
def readBased (base : Nat) (cs : List Char) : Nat :=
  (ungroup cs).foldl (fun n c => base * n + digitValue c) 0

/-! ### Integers -/

/-- How far integers reach; a negative one reaches one further. -/
def maxInteger : Nat := 9223372036854775807

/-- A decimal number without sign and without leading zeros. -/
def isDecimal : List Char → Bool
  | ['0'] => true
  | '0' :: _ => false
  | cs => isGrouped Char.isDigit cs

def isInteger : List Char → Bool
  | '0' :: 'x' :: cs => isGrouped isHexDigit cs && readBased 16 cs ≤ maxInteger
  | '0' :: 'o' :: cs => isGrouped isOctalDigit cs && readBased 8 cs ≤ maxInteger
  | '0' :: 'b' :: cs => isGrouped isBinaryDigit cs && readBased 2 cs ≤ maxInteger
  | '-' :: cs => isDecimal cs && readDecimal cs ≤ maxInteger + 1
  | '+' :: cs | cs => isDecimal cs && readDecimal cs ≤ maxInteger

/-! ### Floats -/

/-- The digits before and behind the point of a number, of which there may be none behind. -/
def mantissa? (cs : List Char) : Option (List Char × List Char) :=
  match Text.cutFirst (· == '.') cs with
  | (whole, none) => if isDecimal whole then some (ungroup whole, []) else none
  | (whole, some fraction) =>
    if isDecimal whole && isGrouped Char.isDigit fraction then
      some (ungroup whole, ungroup fraction)
    else none

/-- The power of ten behind an exponent's mark; leading zeros do not matter. -/
def power? (cs : List Char) : Option Int :=
  if isGrouped Char.isDigit (dropSign cs) then
    let n := readDecimal (dropSign cs)
    some (if cs.head? == some '-' then -(n : Int) else n)
  else none

/-- Whether a float with these digits and this power of ten is in range. -/
def isInRange (whole fraction : List Char) (power : Int) : Bool :=
  !Double.exceeds (Text.readNumeral (whole ++ fraction)) (power - fraction.length)

/-- A float without its sign; a negative one has no range to keep. -/
def isUnsignedFloat (negative : Bool) (cs : List Char) : Bool :=
  match Text.cutFirst (fun c => c == 'e' || c == 'E') cs with
  | (digits, none) =>
    digits.contains '.' &&
      match mantissa? digits with
      | some (whole, fraction) => negative || isInRange whole fraction 0
      | none => false
  | (digits, some power) =>
    match mantissa? digits, power? power with
    | some (whole, fraction), some power => negative || isInRange whole fraction power
    | _, _ => false

def isFloat (cs : List Char) : Bool :=
  match dropSign cs with
  | ['i', 'n', 'f'] | ['n', 'a', 'n'] => true
  | digits => isUnsignedFloat (cs.head? == some '-') digits

/-! ## Dates and times -/

/-- A numeral of exactly two digits, at most `hi`. -/
def isTwoDigits (hi : Nat) (cs : List Char) : Bool :=
  Text.isNumeral 2 2 cs && Text.readNumeral cs ≤ hi

/-- A date of the calendar in full width, which is its normal form. -/
def isDate (cs : List Char) : Bool :=
  match Text.cutAll '-' cs with
  | [y, m, d] =>
    Text.isNumeral 4 4 y && Text.isNumeral 2 2 m && Text.isNumeral 2 2 d && (Date.parse? cs).isSome
  | _ => false

/-- A fraction with its point, if anything is left of it. -/
def normalFraction (digits : List Char) : List Char :=
  match ((digits.take 9).reverse.dropWhile (· == '0')).reverse with
  | [] => []
  | digits => '.' :: digits

/-- Seconds, of which a minute may have 61, with a fraction or without. -/
def seconds? (cs : List Char) : Option (List Char) :=
  match Text.cutFirst (· == '.') cs with
  | (whole, none) => if isTwoDigits 60 whole then some whole else none
  | (whole, some fraction) =>
    if isTwoDigits 60 whole && !fraction.isEmpty && fraction.all Char.isDigit then
      some (whole ++ normalFraction fraction)
    else none

/-- A time of day. -/
def time? (cs : List Char) : Option (List Char) :=
  match Text.cutAll ':' cs with
  | [h, m, s] =>
    if isTwoDigits 23 h && isTwoDigits 59 m then
      (seconds? s).map fun s => h ++ ':' :: m ++ ':' :: s
    else none
  | _ => none

/-- Hours and minutes from universal time, of a sign. -/
def offset? (sign : Char) (cs : List Char) : Option (List Char) :=
  match Text.cutAll ':' cs with
  | [h, m] =>
    if isTwoDigits 23 h && isTwoDigits 59 m then
      some ((if cs == "00:00".toList then '+' else sign) :: cs)
    else none
  | _ => none

/-- A time of day with its offset from universal time, or without. -/
def offsetTime? (cs : List Char) : Option (List Char) :=
  match cs.getLast? with
  | some 'Z' | some 'z' => (time? cs.dropLast).map (· ++ ['Z'])
  | _ =>
    match Text.cutLast (fun c => c == '+' || c == '-') cs with
    | none => time? cs
    | some (time, sign, offset) => do return (← time? time) ++ (← offset? sign offset)

/-- The normal form of a date, a time, or both. -/
def moment? (cs : List Char) : Option (List Char) :=
  match Text.cutFirst (fun c => c == 'T' || c == 't' || c == ' ') cs with
  | (date, none) => if isDate date then some date else time? cs
  | (date, some time) =>
    if isDate date then (offsetTime? time).map (date ++ 'T' :: ·) else none

/-! ## Words -/

/-- The scalar of a word. -/
def ofWord? (cs : List Char) : Option Toml :=
  if cs == "true".toList || cs == "false".toList || isInteger cs || isFloat cs then
    some (scalar (String.ofList cs))
  else (moment? cs).map fun normal => moment (String.ofList normal)

def isScalarChar (c : Char) : Bool :=
  c.isAlphanum || c == '+' || c == '-' || c == '.' || c == ':' || c == '_'

/-- Reads a scalar. A blank may part a date from its time. -/
def scalar? (cs : List Char) : Option (Toml × List Char) :=
  let word := cs.takeWhile isScalarChar
  let rest := cs.dropWhile isScalarChar
  let (word, rest) :=
    match rest with
    | ' ' :: c :: more =>
      if isDate word && c.isDigit then
        (word ++ ' ' :: (c :: more).takeWhile isScalarChar, (c :: more).dropWhile isScalarChar)
      else (word, rest)
    | _ => (word, rest)
  (ofWord? word).map (·, rest)

end FormPress.Toml
