import FormPress.Proofs.Reading
/-!
# Reading by bytes

The reading of date-times once more, nearer to the machine: a text is sliced at byte positions, which
must fall between two characters; a numeral is as long as its bytes; numbers and products are held in
types of fixed width. Each of this can go wrong, and is a `Fault` then.

Of all of these one fault is left: the cut of the four bytes behind a sign. Everywhere else the reading
by bytes does what the reading by characters does (`Bytewise.read_eq`).

| here | there |
| --- | --- |
| `read`, `readDate`, `readClock` | `parse_datetime`, `parse_date`, `parse_time` |
| `cutOffset`, `isDigits` | `split_offset`, `is_digits` |
| `sliceAt`, `number`, `signed` | slices and `split_at`, `parse` to a fixed width, the product with the sign |
| `Fault` | the panics of these |
-/
namespace FormPress

/-- What can go wrong in reading by bytes. -/
inductive Fault
  /-- A position inside a character, or behind the end of the text. -/
  | slice
  /-- The middle of the four bytes behind a sign, inside a character. -/
  | middle
  /-- A number that its type cannot hold. -/
  | overflow
  deriving DecidableEq

namespace Bytewise

/-! ## Slices and numbers -/

/-- The text before a byte position, and the text from there on. -/
def sliceAt (fault : Fault) (position : Nat) (cs : List Char) :
    Except Fault (List Char × List Char) :=
  match Text.cutBytes position cs with
  | some parts => .ok parts
  | none => .error fault

/-- The byte position of the first character of a class. -/
def findFirst (p : Char → Bool) : List Char → Option Nat
  | [] => none
  | c :: cs => if p c then some 0 else (findFirst p cs).map (c.utf8Size + ·)

/-- The byte position of the last character of a class. -/
def findLast (p : Char → Bool) : List Char → Option Nat
  | [] => none
  | c :: cs =>
    match findLast p cs with
    | some position => some (c.utf8Size + position)
    | none => if p c then some 0 else none

/-- From `lo` to `hi` bytes, and digits only. -/
def isDigits (lo hi : Nat) (cs : List Char) : Bool :=
  lo ≤ Text.byteLength cs && Text.byteLength cs ≤ hi && cs.all Char.isDigit

/-- The number of a numeral, in a type that goes up to `max`. -/
def number (max : Nat) (cs : List Char) : Except Fault Nat :=
  if Text.readNumeral cs ≤ max then .ok (Text.readNumeral cs) else .error .overflow

/-- The number with its sign, as a product of two signed bytes. -/
def signed (negative : Bool) (n : Nat) : Except Fault Int :=
  let product : Int := (if negative then -1 else 1) * n
  if -128 ≤ product ∧ product ≤ 127 then .ok product else .error .overflow

/-! ## Dates and clocks -/

def readDate (cs : List Char) : Except Fault (Option Date) :=
  match Text.cutAll '-' cs with
  | [y, m, d] =>
    if isDigits 1 6 y && isDigits 1 2 m && isDigits 1 2 d then do
      let month ← number 255 m
      let year ← number 2147483647 y
      let day ← number 255 d
      return Date.ofNumbers? year month day
    else .ok none
  | _ => .ok none

/-- Seconds and nanoseconds. -/
def readSecond (cs : List Char) : Except Fault (Option (Nat × Nat)) :=
  match Text.cutFirst (· == '.') cs with
  | (whole, none) =>
    if isDigits 1 2 whole then do return some (← number 255 whole, 0) else .ok none
  | (whole, some fraction) =>
    if isDigits 1 2 whole then
      if isDigits 1 9 fraction then do
        let nanosecond ← number 4294967295 (fraction ++ List.replicate (9 - fraction.length) '0')
        return some (← number 255 whole, nanosecond)
      else .ok none
    else .ok none

/-- A part behind the seconds is refused only after they have been read. -/
def readClock (cs : List Char) : Except Fault (Option Clock) :=
  match Text.cutAll ':' cs with
  | h :: m :: rest =>
    if isDigits 1 2 h && isDigits 1 2 m then do
      let second ← rest.head?.elim (.ok (some (0, 0))) readSecond
      match second, rest with
      | none, _ | _, _ :: _ :: _ => return none
      | some (second, nanosecond), _ =>
        return Clock.ofNumbers? (← number 255 h) (← number 255 m) second nanosecond
    else .ok none
  | _ => .ok none

/-! ## Offsets and date-times -/

def cutHours (cs : List Char) : Except Fault (List Char × List Char) :=
  match Text.cutFirst (· == ':') cs with
  | (hours, some minutes) => .ok (hours, minutes)
  | (_, none) => if Text.byteLength cs = 4 then sliceAt .middle 2 cs else .ok (cs, ['0'])

/-- The offset of hours and minutes that have their sign. -/
def offset? (hours minutes : Int) : Option Offset :=
  if h : (-25 ≤ hours ∧ hours ≤ 25) ∧ -59 ≤ minutes ∧ minutes ≤ 59 then
    some ⟨hours * 3600 + minutes * 60, by omega, by omega⟩
  else none

def readOffset (negative : Bool) (cs : List Char) : Except Fault (Option Offset) := do
  let (hours, minutes) ← cutHours cs
  if isDigits 1 2 hours && isDigits 1 2 minutes then
    let hours ← number 127 hours
    let minutes ← number 127 minutes
    return offset? (← signed negative hours) (← signed negative minutes)
  else
    return none

/-- The sign is sliced off together with what follows it, and from that once more. -/
def cutSigned (cs : List Char) : Except Fault (Option (List Char × Offset)) :=
  match findLast (fun c => c == '+' || c == '-') cs with
  | none => .ok (some (cs, .utc))
  | some position => do
    let (clock, offset) ← sliceAt .slice position cs
    let (_, digits) ← sliceAt .slice 1 offset
    return (← readOffset (offset.head? == some '-') digits).map (clock, ·)

def cutOffset (cs : List Char) : Except Fault (Option (List Char × Offset)) :=
  match cs.getLast? with
  | some 'Z' | some 'z' => .ok (some (cs.dropLast, .utc))
  | _ => cutSigned cs

/-- The date, and the text behind the mark of time if there is one. -/
def cutTime (cs : List Char) : Except Fault (List Char × Option (List Char)) :=
  match findFirst DateTime.isTimeMark cs with
  | none => .ok (cs, none)
  | some position => do
    let (date, _) ← sliceAt .slice position cs
    let (_, time) ← sliceAt .slice (position + 1) cs
    return (date, some time)

def readTime (date : Date) (cs : List Char) : Except Fault (Option DateTime) := do
  match ← cutOffset cs with
  | none => return none
  | some (clock, offset) => return (← readClock clock).map fun clock => ⟨date, clock, offset⟩

def read (cs : List Char) : Except Fault (Option DateTime) := do
  match ← cutTime (Text.trim cs) with
  | (date, none) => return (← readDate date).map fun date => ⟨date, .midnight, .utc⟩
  | (date, some time) =>
    match ← readDate date with
    | none => return none
    | some date => readTime date time

def parse (text : String) : Except Fault (Option DateTime) := read text.toList

/-! ## Positions fall between characters -/

theorem sliceAt_byteLength (fault : Fault) (before after : List Char) :
    sliceAt fault (Text.byteLength before) (before ++ after) = .ok (before, after) := by
  rw [sliceAt, Text.cutBytes_append]

theorem findFirst_eq (p : Char → Bool) (cs : List Char) :
    findFirst p cs = (Text.cutFirst p cs).2.map fun _ => Text.byteLength (Text.cutFirst p cs).1 := by
  induction cs with
  | nil => rfl
  | cons c cs ih =>
    unfold findFirst Text.cutFirst
    by_cases hc : p c = true
    · simp [hc, Text.byteLength]
    · simp only [hc, if_false, ih, Bool.false_eq_true]
      cases (Text.cutFirst p cs).2 <;> simp [Text.byteLength]

theorem findLast_eq (p : Char → Bool) (cs : List Char) :
    findLast p cs = (Text.cutLast p cs).map fun cut => Text.byteLength cut.1 := by
  induction cs with
  | nil => rfl
  | cons c cs ih =>
    unfold findLast Text.cutLast
    rw [ih]
    cases hcut : Text.cutLast p cs with
    | none => by_cases hc : p c = true <;> simp [hc, Text.byteLength]
    | some cut => simp [Text.byteLength]

theorem utf8Size_of_isTimeMark {c : Char} (h : DateTime.isTimeMark c = true) : c.utf8Size = 1 := by
  rcases DateTime.isTimeMark_iff.1 h with rfl | rfl | rfl <;> rfl

theorem cutTime_eq (cs : List Char) : cutTime cs = .ok (Text.cutFirst DateTime.isTimeMark cs) := by
  have heq := Text.cutFirst_eq DateTime.isTimeMark cs
  unfold cutTime
  rw [findFirst_eq]
  revert heq
  rcases Text.cutFirst DateTime.isTimeMark cs with ⟨date, _ | time⟩
  · rintro ⟨rfl, -⟩
    rfl
  · rintro ⟨mark, hmark, rfl, -⟩
    have hnext : Text.byteLength date + 1 = Text.byteLength (date ++ [mark]) := by
      rw [Text.byteLength_append, Text.byteLength, utf8Size_of_isTimeMark hmark, Text.byteLength]
    have hslice := sliceAt_byteLength .slice (date ++ [mark]) time
    rw [List.append_assoc, List.singleton_append] at hslice
    simp only [Option.map_some, sliceAt_byteLength, hnext, hslice, ok_bind]
    rfl

/-! ## Numbers fit -/

theorem isDigits_eq (lo hi : Nat) (cs : List Char) : isDigits lo hi cs = Text.isNumeral lo hi cs := by
  unfold isDigits Text.isNumeral
  by_cases h : cs.all Char.isDigit = true
  · rw [Spelling.byteLength_of_isDigit (List.all_eq_true.1 h)]
  · simp [Bool.eq_false_iff.2 h]

theorem readNumeral_lt {lo hi : Nat} {cs : List Char} (h : Text.isNumeral lo hi cs = true) :
    Text.readNumeral cs < 10 ^ hi := by
  have hdigits := Spelling.Digits.of_isNumeral h
  have hlt := Spelling.ofDigitChars_lt hdigits.isDigit 0
  have hle : 10 ^ cs.length ≤ 10 ^ hi := Nat.pow_le_pow_right (by decide) hdigits.length_le
  rw [hdigits.value] at hlt
  omega

/-- A type that holds all numerals of a length holds each of them. -/
theorem number_eq {lo hi max : Nat} {cs : List Char} (h : Text.isNumeral lo hi cs = true)
    (hmax : 10 ^ hi ≤ max + 1) : number max cs = .ok (Text.readNumeral cs) := by
  have hlt := readNumeral_lt h
  rw [number, if_pos (by omega)]

theorem isNumeral_padded {lo : Nat} {cs : List Char} (h : Text.isNumeral lo 9 cs = true) :
    Text.isNumeral 9 9 (cs ++ List.replicate (9 - cs.length) '0') = true := by
  have hdigits := Spelling.Digits.of_isNumeral h
  have hlen := hdigits.length_le
  simp only [Text.isNumeral, Bool.and_eq_true, decide_eq_true_eq, List.length_append,
    List.length_replicate, List.all_eq_true]
  refine ⟨⟨by omega, by omega⟩, fun c hc => ?_⟩
  rcases List.mem_append.1 hc with hc | hc
  · exact hdigits.isDigit c hc
  · rw [List.eq_of_mem_replicate hc]
    rfl

/-- The product of a sign and two digits is a signed byte. -/
theorem signed_eq (negative : Bool) {n : Nat} (h : n < 100) :
    signed negative n = .ok (if negative then -(n : Int) else n) := by
  unfold signed
  cases negative with
  | false => simp only [Bool.false_eq_true, if_false, one_mul]; rw [if_pos (by omega)]
  | true => simp only [if_true, neg_mul, one_mul]; rw [if_pos (by omega)]

theorem offset?_eq (negative : Bool) (hours minutes : Nat) :
    offset? (if negative then -(hours : Int) else hours) (if negative then -(minutes : Int) else minutes) =
      Offset.ofNumbers? negative hours minutes := by
  unfold offset? Offset.ofNumbers?
  by_cases h : hours ≤ 25 ∧ minutes ≤ 59
  · rw [dif_pos h, dif_pos (by cases negative <;> simp <;> omega)]
    cases negative with
    | false => simp
    | true => simp; omega
  · rw [dif_neg h, dif_neg (by cases negative <;> simp <;> omega)]

/-! ## Readings -/

theorem readDate_eq (cs : List Char) : readDate cs = .ok (Date.parse? cs) := by
  unfold readDate Date.parse?
  match Text.cutAll '-' cs with
  | [] => rfl
  | [_] => rfl
  | [_, _] => rfl
  | [y, m, d] =>
    simp only [isDigits_eq]
    by_cases h : (Text.isNumeral 1 6 y && Text.isNumeral 1 2 m && Text.isNumeral 1 2 d) = true
    · rw [if_pos h, if_pos h]
      simp only [Bool.and_eq_true] at h
      rw [number_eq h.1.2 (by decide), number_eq h.1.1 (by decide), number_eq h.2 (by decide)]
      rfl
    · rw [if_neg h, if_neg h]
  | _ :: _ :: _ :: _ :: _ => rfl

theorem readSecond_eq (cs : List Char) : readSecond cs = .ok (Clock.readSecond? cs) := by
  unfold readSecond Clock.readSecond?
  split
  · rename_i whole hcut
    simp only [hcut, isDigits_eq]
    by_cases h : Text.isNumeral 1 2 whole = true
    · rw [if_pos h, if_pos h, number_eq h (by decide)]
      rfl
    · rw [if_neg h, if_neg h]
  · rename_i whole fraction hcut
    simp only [hcut, isDigits_eq, Clock.readFraction?]
    by_cases h : Text.isNumeral 1 2 whole = true
    · rw [if_pos h, if_pos h]
      by_cases hf : Text.isNumeral 1 9 fraction = true
      · rw [if_pos hf, if_pos hf, number_eq h (by decide), number_eq (isNumeral_padded hf) (by decide)]
        rfl
      · rw [if_neg hf, if_neg hf]
        rfl
    · rw [if_neg h, if_neg h]

theorem readClock_eq (cs : List Char) : readClock cs = .ok (Clock.parse? cs) := by
  unfold readClock Clock.parse?
  match Text.cutAll ':' cs with
  | [] => rfl
  | [_] => rfl
  | h :: m :: rest =>
    simp only [isDigits_eq]
    by_cases hnumerals : (Text.isNumeral 1 2 h && Text.isNumeral 1 2 m) = true
    · have hboth := hnumerals
      simp only [Bool.and_eq_true] at hboth
      have hh := number_eq hboth.1 (show 10 ^ 2 ≤ 255 + 1 by decide)
      have hm := number_eq hboth.2 (show 10 ^ 2 ≤ 255 + 1 by decide)
      match rest with
      | [] => simp [hnumerals, hh, hm]
      | [s] =>
        simp only [hnumerals, if_true, List.head?_cons, Option.elim_some, readSecond_eq, ok_bind, hh, hm]
        cases Clock.readSecond? s <;> rfl
      | s :: _ :: _ =>
        simp only [hnumerals, if_true, List.head?_cons, Option.elim_some, readSecond_eq, ok_bind]
        cases Clock.readSecond? s <;> rfl
    · match rest with
      | [] => simp [hnumerals]
      | [_] => simp [hnumerals]
      | _ :: _ :: _ => simp [hnumerals]

/-- What breaks off reading by characters is a fault of reading by bytes. -/
def ofAbort {α : Type} (x : Except Abort α) : Except Fault α := x.mapError fun _ => .middle

@[simp] theorem ofAbort_ok {α : Type} (a : α) : ofAbort (.ok a) = .ok a := rfl

@[simp] theorem ofAbort_error {α : Type} (a : Abort) :
    ofAbort (.error a : Except Abort α) = .error .middle := rfl

theorem ofAbort_bind {α β : Type} (x : Except Abort α) (f : α → Except Abort β) :
    ofAbort (x >>= f) = ofAbort x >>= fun a => ofAbort (f a) :=
  mapError_bind _ x f

theorem cutHours_eq (cs : List Char) : cutHours cs = ofAbort (Offset.cutHours cs) := by
  unfold cutHours Offset.cutHours
  rcases Text.cutFirst (· == ':') cs with ⟨hours, _ | minutes⟩
  · by_cases h : Text.byteLength cs = 4
    · simp only [if_pos h, sliceAt]
      cases Text.cutBytes 2 cs <;> rfl
    · simp only [if_neg h]
      rfl
  · rfl

theorem readOffset_eq (negative : Bool) (cs : List Char) :
    readOffset negative cs = ofAbort (Offset.read negative cs) := by
  unfold readOffset Offset.read
  rw [cutHours_eq, ofAbort_bind]
  cases Offset.cutHours cs with
  | error a => rfl
  | ok parts =>
    obtain ⟨hours, minutes⟩ := parts
    simp only [ofAbort_ok, ok_bind, isDigits_eq]
    by_cases h : (Text.isNumeral 1 2 hours && Text.isNumeral 1 2 minutes) = true
    · rw [if_pos h, if_pos h]
      rw [Bool.and_eq_true] at h
      rw [number_eq h.1 (by decide), number_eq h.2 (by decide), ok_bind, ok_bind,
        signed_eq negative (readNumeral_lt h.1), signed_eq negative (readNumeral_lt h.2), ok_bind, ok_bind,
        offset?_eq]
      rfl
    · rw [if_neg h, if_neg h]
      rfl

theorem cutSigned_eq {cs : List Char} (h : ∀ c ∈ cs.getLast?, c ≠ 'Z' ∧ c ≠ 'z') :
    cutSigned cs = ofAbort (DateTime.cutOffset cs) := by
  have heq := Text.cutLast_eq (fun c => c == '+' || c == '-') cs
  rw [DateTime.cutOffset_eq_cutLast h, cutSigned, findLast_eq]
  revert heq
  rcases Text.cutLast (fun c => c == '+' || c == '-') cs with _ | ⟨clock, sign, digits⟩
  · intro _
    rfl
  · rintro ⟨hsign, rfl, -⟩
    have hsize : Text.byteLength [sign] = 1 := by
      have hsign : sign = '+' ∨ sign = '-' := by simpa using hsign
      rcases hsign with rfl | rfl <;> rfl
    have hslice : sliceAt .slice 1 (sign :: digits) = .ok ([sign], digits) := by
      rw [← hsize]
      exact sliceAt_byteLength .slice [sign] digits
    simp only [Option.map_some, sliceAt_byteLength, ok_bind, hslice, readOffset_eq, ofAbort_bind,
      List.head?_cons]
    rfl

theorem cutOffset_eq (cs : List Char) : cutOffset cs = ofAbort (DateTime.cutOffset cs) := by
  by_cases hlast : ∀ c ∈ cs.getLast?, c ≠ 'Z' ∧ c ≠ 'z'
  · rw [← cutSigned_eq hlast]
    unfold cutOffset
    split
    · rename_i hz
      exact absurd rfl (hlast _ hz).1
    · rename_i hz
      exact absurd rfl (hlast _ hz).2
    · rfl
  · obtain ⟨z, hz, hutc⟩ := DateTime.exists_utcMark hlast
    rw [DateTime.cutOffset_of_utcMark hz hutc, cutOffset, hz]
    rcases hutc with rfl | rfl <;> rfl

theorem readTime_eq (date : Date) (cs : List Char) :
    readTime date cs = ofAbort (DateTime.readTime date cs) := by
  unfold readTime DateTime.readTime
  rw [cutOffset_eq, ofAbort_bind]
  cases DateTime.cutOffset cs with
  | error a => rfl
  | ok cut =>
    cases cut with
    | none => rfl
    | some cut => simp only [ofAbort_ok, ok_bind, readClock_eq, pure_eq_ok]

/-- Reading by bytes comes to what reading by characters comes to. -/
theorem read_eq (cs : List Char) : read cs = ofAbort (DateTime.read cs) := by
  unfold read DateTime.read
  rw [cutTime_eq, ok_bind]
  rcases Text.cutFirst DateTime.isTimeMark (Text.trim cs) with ⟨date, _ | time⟩
  · simp only [readDate_eq, ok_bind, pure_eq_ok, ofAbort_ok]
  · simp only [readDate_eq, ok_bind, readTime_eq]
    cases Date.parse? date <;> rfl

end Bytewise

end FormPress
