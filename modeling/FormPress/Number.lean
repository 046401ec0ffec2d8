/-!
# Numbers

Numbers as decimal digits, written without leading zeros or padded to a width, and read back. Digits
are the ten of ASCII.

Where a number must be in the range of doubles, that is decided in whole numbers. Doubles have 53
significant bits and end just below 2 to the power of 1024. A number stands for the nearest of them,
of two the even one, and is out of range when it is nearer to that power than to any of them. A JSON
number is taken as a whole number of 64 bits with a power of ten. Its digits are appended as long as
they fit; of the digits left over, those before the point still raise the power, and those behind it
do not count.

| here | there |
| --- | --- |
| `Text.isNumeral` | `is_digits` |
| `Text.readNumeral` | `parse` of texts that `is_digits` has let through |
| `Text.signedNumeral` | `to_string` of a number, in `cast` and `format` |
| `Text.paddedNumeral` | the padded fields in the date-time branch of `format` |
| `Double.round`, `Double.exceeds` | the rounding of a whole number and of a decimal text to a double |
| `Json.Magnitude` | the significand and the exponent of `parse_integer`, `parse_decimal` and `parse_exponent` |
| `Json.Magnitude.isOutOfRange` | the check of `f64_from_parts` |
-/
namespace FormPress.Text

/-! ## Decimal numerals -/

/-- Between `lo` and `hi` digits and nothing else. -/
def isNumeral (lo hi : Nat) (cs : List Char) : Bool :=
  lo ≤ cs.length && cs.length ≤ hi && cs.all Char.isDigit

/-- The number that a numeral denotes. -/
def readNumeral (cs : List Char) : Nat := Nat.ofDigitChars 10 cs 0

/-- The numeral of a number, without leading zeros. -/
def numeral (n : Nat) : List Char := Nat.toDigits 10 n

/-- The numeral of an integer: a minus sign stands before a negative one. -/
def signedNumeral : Int → List Char
  | .ofNat n => numeral n
  | .negSucc n => '-' :: numeral (n + 1)

/-- The numeral with zeros before it up to a width. -/
def paddedNumeral (width n : Nat) : List Char :=
  let ds := numeral n
  List.replicate (width - ds.length) '0' ++ ds

theorem readNumeral_numeral (n : Nat) : readNumeral (numeral n) = n :=
  Nat.ofDigitChars_toDigits (by decide) (by decide)

theorem isDigit_of_mem_numeral {n : Nat} {c : Char} (h : c ∈ numeral n) : c.isDigit = true :=
  Nat.isDigit_of_mem_toDigits (by decide) (by decide) h

theorem notMem_numeral {c : Char} (h : c.isDigit = false) (n : Nat) : c ∉ numeral n := by
  intro hc
  rw [isDigit_of_mem_numeral hc] at h
  cases h

end FormPress.Text

namespace FormPress.Double

/-! ## The range of doubles -/

/-- The least number out of range: it lies half a unit of the last place above the largest double. -/
def bound : Nat := Nat.pow 2 1024 - Nat.pow 2 970

/-- The nearest whole number of 53 significant bits, of two the even one. -/
def round (n : Nat) : Nat :=
  let unit := Nat.pow 2 (n.log2 + 1 - 53)
  let units := n / unit
  let rest := n % unit
  unit * (if unit < 2 * rest ∨ (2 * rest = unit ∧ units % 2 = 1) then units + 1 else units)

/-- Whether the number `n` with its point moved `e` places to the right is out of range. Only numbers
of 309 digits before the point are in doubt. -/
def exceeds (n : Nat) (e : Int) : Bool :=
  if n = 0 then false
  else
    let places := (Text.numeral n).length + e
    if places < 309 then false
    else if 309 < places then true
    else
      match e with
      | .ofNat k => bound ≤ n * Nat.pow 10 k
      | .negSucc k => bound * Nat.pow 10 (k + 1) ≤ n

end FormPress.Double

namespace FormPress.Json

/-! ## Magnitudes of JSON numbers -/

structure Magnitude where
  significand : Nat
  exponent : Int

namespace Magnitude

/-- Appends digits to a number until one does not fit: the number, and how many digits are left
over. -/
def appendDigits (n : Nat) : List Char → Nat × Nat
  | [] => (n, 0)
  | d :: ds =>
    let m := 10 * n + Text.readNumeral [d]
    if m < 18446744073709551616 then appendDigits m ds else (n, ds.length + 1)

/-- The magnitude of the digits before the point. -/
def ofWhole (digits : List Char) : Magnitude :=
  let (n, left) := appendDigits 0 digits
  ⟨n, left⟩

/-- The magnitude with digits behind the point. -/
def appendFraction (m : Magnitude) (digits : List Char) : Magnitude :=
  let (n, left) := appendDigits m.significand digits
  ⟨n, m.exponent - (digits.length - left : Nat)⟩

/-- The magnitude with its point moved to the right. -/
def scale (m : Magnitude) (places : Int) : Magnitude := { m with exponent := m.exponent + places }

/-- Whether there is no such double. -/
def isOutOfRange (m : Magnitude) : Bool :=
  m.significand != 0 && 0 < m.exponent &&
    (308 < m.exponent ||
      Double.bound ≤
        Double.round m.significand * Double.round (Nat.pow 10 m.exponent.toNat))

end Magnitude

end FormPress.Json
