import FormPress.Number
import FormPress.Text
/-!
# Dates and date-times

Days of the Gregorian calendar, carried back to year 0 and ending with year 9999, and their written
form `Y-M-D`. Days are counted from the first of January of year 0 by a closed formula.

A date-time is a date, a clock reading and an offset from universal time. It is written
`Y-M-D[(T|t|blank)H:M[:S[.F]]][Z|z|±H[:M]|±HHMM]`, with blanks around it allowed; without a clock it
is midnight, without an offset universal time.

Four bytes after the offset's sign are hours and minutes of two bytes each. Where that cut would
fall inside a character, reading does not refuse the text but stops altogether: `Abort`.

| here | there |
| --- | --- |
| `Date`, `Clock`, `Offset`, `DateTime` | `Date`, `Time`, `UtcOffset` and `OffsetDateTime`, with their ranges |
| `DateTime.parse` | `parse_datetime` |
| `Date.parse?` | `parse_date` |
| `Clock.parse?` | `parse_time` |
| `DateTime.cutOffset`, `Offset.cutHours` | `split_offset` |
| `Date.ofNumbers?`, `Clock.ofNumbers?`, `Offset.ofNumbers?` | `from_calendar_date`, `from_hms_nano`, `from_hms` |
| `Abort` | the panic of `split_at` in `split_offset` |
| `DateTime.instant` | the order of `OffsetDateTime` |
| `DateTime.display` | the date-time branch of `format` |
-/
namespace FormPress

/-! ## Calendar dates -/

/-- Every fourth year is a leap year, of the full centuries every fourth. -/
def isLeapYear (year : Nat) : Bool := year % 4 == 0 && (year % 100 != 0 || year % 400 == 0)

def daysInMonth (year month : Nat) : Nat :=
  if month = 2 then (if isLeapYear year then 29 else 28)
  else if month = 4 ∨ month = 6 ∨ month = 9 ∨ month = 11 then 30
  else 31

/-- A day of the calendar. -/
structure Date where
  year : Nat
  month : Nat
  day : Nat
  year_le : year ≤ 9999
  month_pos : 1 ≤ month
  month_le : month ≤ 12
  day_pos : 1 ≤ day
  day_le : day ≤ daysInMonth year month
  deriving DecidableEq

namespace Date

/-- The date of a year, a month and a day, if the calendar has it. -/
def ofNumbers? (year month day : Nat) : Option Date :=
  if h : year ≤ 9999 ∧ 1 ≤ month ∧ month ≤ 12 ∧ 1 ≤ day ∧ day ≤ daysInMonth year month then
    some ⟨year, month, day, h.1, h.2.1, h.2.2.1, h.2.2.2.1, h.2.2.2.2⟩
  else none

/-- Reads `Y-M-D`: a year of one to six digits, a month and a day of one or two. -/
def parse? (cs : List Char) : Option Date :=
  match Text.cutAll '-' cs with
  | [y, m, d] =>
    if Text.isNumeral 1 6 y && Text.isNumeral 1 2 m && Text.isNumeral 1 2 d then
      ofNumbers? (Text.readNumeral y) (Text.readNumeral m) (Text.readNumeral d)
    else none
  | _ => none

/-- The days before a year: 365 for each year, and one for each leap year among them. -/
def daysBeforeYear (year : Nat) : Nat :=
  365 * year + (year + 3) / 4 - (year + 99) / 100 + (year + 399) / 400

/-- The days of a common year before a month. -/
def commonDaysBeforeMonth : Nat → Nat
  | 2 => 31 | 3 => 59 | 4 => 90 | 5 => 120 | 6 => 151 | 7 => 181
  | 8 => 212 | 9 => 243 | 10 => 273 | 11 => 304 | 12 => 334 | _ => 0

def daysBeforeMonth (year month : Nat) : Nat :=
  commonDaysBeforeMonth month + if 2 < month ∧ isLeapYear year then 1 else 0

/-- The days from the first of January of year 0 to this date. -/
def dayNumber (d : Date) : Nat :=
  daysBeforeYear d.year + daysBeforeMonth d.year d.month + (d.day - 1)

theorem ofNumbers?_eq_some_iff {y m d : Nat} {date : Date} :
    ofNumbers? y m d = some date ↔ date.year = y ∧ date.month = m ∧ date.day = d := by
  unfold ofNumbers?
  constructor
  · intro h
    split at h
    · cases h; exact ⟨rfl, rfl, rfl⟩
    · cases h
  · rintro ⟨rfl, rfl, rfl⟩
    rw [dif_pos ⟨date.year_le, date.month_pos, date.month_le, date.day_pos, date.day_le⟩]

end Date

/-! ## Date-times -/

/-- The one way in which reading a text can break off instead of refusing it: the four bytes after
an offset's sign cannot be cut in two, because the cut falls inside a character. -/
inductive Abort
  | offsetInsideCharacter
  deriving DecidableEq

/-- A clock reading of a day of 86400 seconds. -/
structure Clock where
  hour : Nat
  minute : Nat
  second : Nat
  nanosecond : Nat
  hour_lt : hour < 24
  minute_lt : minute < 60
  second_lt : second < 60
  nanosecond_lt : nanosecond < 1000000000
  deriving DecidableEq

namespace Clock

def midnight : Clock := ⟨0, 0, 0, 0, by decide, by decide, by decide, by decide⟩

/-- The reading of four numbers, if each is in its range. -/
def ofNumbers? (hour minute second nanosecond : Nat) : Option Clock :=
  if h : hour < 24 ∧ minute < 60 ∧ second < 60 ∧ nanosecond < 1000000000 then
    some ⟨hour, minute, second, nanosecond, h.1, h.2.1, h.2.2.1, h.2.2.2⟩
  else none

/-- Reads the digits behind the point as nanoseconds: zeros to the right fill them up to nine. -/
def readFraction? : Option (List Char) → Option Nat
  | none => some 0
  | some f =>
    if Text.isNumeral 1 9 f then
      some (Text.readNumeral (f ++ List.replicate (9 - f.length) '0'))
    else none

/-- Reads `S` or `S.F` as seconds and nanoseconds. -/
def readSecond? (cs : List Char) : Option (Nat × Nat) :=
  let (whole, fraction) := Text.cutFirst (· == '.') cs
  if Text.isNumeral 1 2 whole then
    (readFraction? fraction).map (Text.readNumeral whole, ·)
  else none

/-- Reads `H:M`, `H:M:S` or `H:M:S.F`. -/
def parse? (cs : List Char) : Option Clock :=
  match Text.cutAll ':' cs with
  | [h, m] =>
    if Text.isNumeral 1 2 h && Text.isNumeral 1 2 m then
      ofNumbers? (Text.readNumeral h) (Text.readNumeral m) 0 0
    else none
  | [h, m, s] =>
    if Text.isNumeral 1 2 h && Text.isNumeral 1 2 m then
      (readSecond? s).bind fun (second, nanosecond) =>
        ofNumbers? (Text.readNumeral h) (Text.readNumeral m) second nanosecond
    else none
  | _ => none

/-- The whole seconds since midnight. -/
def seconds (c : Clock) : Nat := 3600 * c.hour + 60 * c.minute + c.second

end Clock

/-- How far a clock is ahead of universal time, at most 25 hours and 59 minutes either way. -/
structure Offset where
  seconds : Int
  le_seconds : -(25 * 3600 + 59 * 60) ≤ seconds
  seconds_le : seconds ≤ 25 * 3600 + 59 * 60
  deriving DecidableEq

namespace Offset

def utc : Offset := ⟨0, by decide, by decide⟩

/-- The offset of hours and minutes; a minus sign holds for both. -/
def ofNumbers? (negative : Bool) (hours minutes : Nat) : Option Offset :=
  if h : hours ≤ 25 ∧ minutes ≤ 59 then
    let seconds := hours * 3600 + minutes * 60
    have : seconds ≤ 25 * 3600 + 59 * 60 := by omega
    some ⟨if negative then -(seconds : Int) else seconds, by split <;> omega, by split <;> omega⟩
  else none

/-- The texts of hours and minutes behind the sign: parted by a colon, or two bytes of four, or
hours alone. -/
def cutHours (cs : List Char) : Except Abort (List Char × List Char) :=
  match Text.cutFirst (· == ':') cs with
  | (hours, some minutes) => .ok (hours, minutes)
  | (_, none) =>
    if Text.byteLength cs = 4 then
      match Text.cutBytes 2 cs with
      | some parts => .ok parts
      | none => .error .offsetInsideCharacter
    else .ok (cs, ['0'])

/-- Reads what follows the sign. -/
def read (negative : Bool) (cs : List Char) : Except Abort (Option Offset) := do
  let (hours, minutes) ← cutHours cs
  if Text.isNumeral 1 2 hours && Text.isNumeral 1 2 minutes then
    return ofNumbers? negative (Text.readNumeral hours) (Text.readNumeral minutes)
  else
    return none

end Offset

/-- A local date and clock reading, and how far they are ahead of universal time. -/
structure DateTime where
  date : Date
  clock : Clock
  offset : Offset
  deriving DecidableEq

namespace DateTime

/-- Cuts the offset off the end: a final `Z`, else what stands from the last sign on. -/
def cutOffset (cs : List Char) : Except Abort (Option (List Char × Offset)) :=
  match cs.getLast? with
  | some 'Z' | some 'z' => .ok (some (cs.dropLast, .utc))
  | _ =>
    match Text.cutLast (fun c => c == '+' || c == '-') cs with
    | none => .ok (some (cs, .utc))
    | some (clock, sign, digits) => do
      return (← Offset.read (sign == '-') digits).map (clock, ·)

/-- Reads a clock and its offset behind a date. -/
def readTime (date : Date) (cs : List Char) : Except Abort (Option DateTime) := do
  match ← cutOffset cs with
  | none => return none
  | some (clock, offset) => return (Clock.parse? clock).map fun clock => ⟨date, clock, offset⟩

/-- Stands between a date and a clock. -/
def isTimeMark (c : Char) : Bool := c == 'T' || c == 't' || c == ' '

/-- Reads a date-time; `none` if the text is none. -/
def read (cs : List Char) : Except Abort (Option DateTime) :=
  match Text.cutFirst isTimeMark (Text.trim cs) with
  | (date, none) => .ok ((Date.parse? date).map fun date => ⟨date, .midnight, .utc⟩)
  | (date, some time) =>
    match Date.parse? date with
    | none => .ok none
    | some date => readTime date time

def parse (text : String) : Except Abort (Option DateTime) := read text.toList

/-- Whole seconds of universal time since the start of year 0. -/
def utcSeconds (t : DateTime) : Int :=
  86400 * t.date.dayNumber + t.clock.seconds - t.offset.seconds

/-- Nanoseconds of universal time since the start of year 0: the order of date-times. -/
def instant (t : DateTime) : Int := 1000000000 * t.utcSeconds + t.clock.nanosecond

/-- The first day of 1970. -/
def epochDay : Nat := 719528

/-- Whole seconds of universal time since the start of 1970. -/
def unixSeconds (t : DateTime) : Int := t.utcSeconds - 86400 * epochDay

/-- The local date and minute as `YYYY-MM-DD HH:MM`. -/
def display (t : DateTime) : List Char :=
  Text.paddedNumeral 4 t.date.year ++ '-' :: Text.paddedNumeral 2 t.date.month
    ++ '-' :: Text.paddedNumeral 2 t.date.day ++ ' ' :: Text.paddedNumeral 2 t.clock.hour
    ++ ':' :: Text.paddedNumeral 2 t.clock.minute

end DateTime

end FormPress
