import FormPress.Calendar
import Mathlib.Tactic.Positivity
import Mathlib.Tactic.NormNum
/-!
# The spelling of date-times

A grammar of the texts that spell a date-time, stated apart from how they are read: which pieces stand
in which order, and what numbers they give. The characters of a piece tell where it ends: no date has a
mark of time in it, and no clock a sign (`DayText.not_isTimeMark`, `ClockText.isClockChar`).
-/
namespace FormPress

/-- The numbers of a date-time; its offset counts in seconds. -/
structure DateTime.Fields where
  year : Nat
  month : Nat
  day : Nat
  hour : Nat
  minute : Nat
  second : Nat
  nanosecond : Nat
  offset : Int

def DateTime.fields (t : DateTime) : Fields :=
  ⟨t.date.year, t.date.month, t.date.day, t.clock.hour, t.clock.minute, t.clock.second,
    t.clock.nanosecond, t.offset.seconds⟩

/-! ## The grammar -/

namespace Spelling

/-- From `lo` to `hi` decimal digits, which denote `n`. -/
structure Digits (lo hi : Nat) (cs : List Char) (n : Nat) : Prop where
  le_length : lo ≤ cs.length
  length_le : cs.length ≤ hi
  isDigit : ∀ c ∈ cs, c.isDigit = true
  value : Nat.ofDigitChars 10 cs 0 = n

/-- `Y-M-D`, a day that the calendar has. -/
inductive DayText : List Char → Nat → Nat → Nat → Prop
  | intro {y m d : List Char} {year month day : Nat}
    (hy : Digits 1 6 y year) (hm : Digits 1 2 m month) (hd : Digits 1 2 d day)
    (hyear : year ≤ 9999) (hmonth : 1 ≤ month ∧ month ≤ 12)
    (hday : 1 ≤ day ∧ day ≤ daysInMonth year month) :
    DayText (y ++ '-' :: (m ++ '-' :: d)) year month day

/-- `S` or `S.F`, in seconds and nanoseconds: a fraction is filled up with zeros to nine digits. -/
inductive SecondText : List Char → Nat → Nat → Prop
  | whole {s : List Char} {second : Nat} (hs : Digits 1 2 s second) : SecondText s second 0
  | fraction {s f : List Char} {second n : Nat} (hs : Digits 1 2 s second) (hf : Digits 1 9 f n) :
    SecondText (s ++ '.' :: f) second (n * 10 ^ (9 - f.length))

/-- `H:M` or `H:M:S`, a reading of the clock. -/
inductive ClockText : List Char → Nat → Nat → Nat → Nat → Prop
  | minutes {h m : List Char} {hour minute : Nat} (hh : Digits 1 2 h hour) (hm : Digits 1 2 m minute)
    (hhour : hour ≤ 23) (hminute : minute ≤ 59) : ClockText (h ++ ':' :: m) hour minute 0 0
  | seconds {h m s : List Char} {hour minute second nanosecond : Nat} (hh : Digits 1 2 h hour)
    (hm : Digits 1 2 m minute) (hs : SecondText s second nanosecond)
    (hhour : hour ≤ 23) (hminute : minute ≤ 59) (hsecond : second ≤ 59) :
    ClockText (h ++ ':' :: (m ++ ':' :: s)) hour minute second nanosecond

/-- What follows the sign of an offset: `H`, `H:M` or `HHMM`. -/
inductive HoursText : List Char → Nat → Nat → Prop
  | hours {h : List Char} {hours : Nat} (hh : Digits 1 2 h hours) : HoursText h hours 0
  | colon {h m : List Char} {hours minutes : Nat} (hh : Digits 1 2 h hours)
    (hm : Digits 1 2 m minutes) : HoursText (h ++ ':' :: m) hours minutes
  | four {h m : List Char} {hours minutes : Nat} (hh : Digits 2 2 h hours)
    (hm : Digits 2 2 m minutes) : HoursText (h ++ m) hours minutes

/-- An offset in seconds; its sign holds for the hours and for the minutes. -/
inductive OffsetText : List Char → Int → Prop
  | utc {z : Char} (hz : z = 'Z' ∨ z = 'z') : OffsetText [z] 0
  | ahead {cs : List Char} {hours minutes : Nat} (hcs : HoursText cs hours minutes)
    (hhours : hours ≤ 25) (hminutes : minutes ≤ 59) :
    OffsetText ('+' :: cs) (hours * 3600 + minutes * 60)
  | behind {cs : List Char} {hours minutes : Nat} (hcs : HoursText cs hours minutes)
    (hhours : hours ≤ 25) (hminutes : minutes ≤ 59) :
    OffsetText ('-' :: cs) (-(hours * 3600 + minutes * 60))

/-- A date, or a date and a clock, or both and an offset. Without a clock it is midnight, without an
offset universal time. -/
inductive DateTimeText : List Char → DateTime.Fields → Prop
  | day {d : List Char} {year month day : Nat} (hd : DayText d year month day) :
    DateTimeText d ⟨year, month, day, 0, 0, 0, 0, 0⟩
  | clock {d c : List Char} {mark : Char} {year month day hour minute second nanosecond : Nat}
    (hd : DayText d year month day) (hmark : mark = 'T' ∨ mark = 't' ∨ mark = ' ')
    (hc : ClockText c hour minute second nanosecond) :
    DateTimeText (d ++ mark :: c) ⟨year, month, day, hour, minute, second, nanosecond, 0⟩
  | offset {d c o : List Char} {mark : Char} {year month day hour minute second nanosecond : Nat}
    {offset : Int} (hd : DayText d year month day) (hmark : mark = 'T' ∨ mark = 't' ∨ mark = ' ')
    (hc : ClockText c hour minute second nanosecond) (ho : OffsetText o offset) :
    DateTimeText (d ++ mark :: (c ++ o)) ⟨year, month, day, hour, minute, second, nanosecond, offset⟩

end Spelling

/-- The text spells a date-time with these numbers; there may be blanks around it. -/
def DateTime.Fields.Spelled (f : Fields) (s : String) : Prop :=
  ∃ before body after, s.toList = before ++ (body ++ after) ∧ (∀ c ∈ before, Text.isBlank c = true) ∧
    (∀ c ∈ after, Text.isBlank c = true) ∧ Spelling.DateTimeText body f

/-! ## Digits -/

namespace Spelling

theorem digits_iff {lo hi : Nat} {cs : List Char} {n : Nat} :
    Digits lo hi cs n ↔ Text.isNumeral lo hi cs = true ∧ Text.readNumeral cs = n := by
  simp only [Text.isNumeral, Bool.and_eq_true, decide_eq_true_eq, List.all_eq_true]
  constructor
  · rintro ⟨hlo, hhi, hdigit, hvalue⟩
    exact ⟨⟨⟨hlo, hhi⟩, hdigit⟩, hvalue⟩
  · rintro ⟨⟨⟨hlo, hhi⟩, hdigit⟩, hvalue⟩
    exact ⟨hlo, hhi, hdigit, hvalue⟩

theorem Digits.of_isNumeral {lo hi : Nat} {cs : List Char} (h : Text.isNumeral lo hi cs = true) :
    Digits lo hi cs (Text.readNumeral cs) :=
  digits_iff.2 ⟨h, rfl⟩

variable {lo hi n : Nat} {cs : List Char}

theorem Digits.isNumeral (h : Digits lo hi cs n) : Text.isNumeral lo hi cs = true := (digits_iff.1 h).1

theorem Digits.readNumeral (h : Digits lo hi cs n) : Text.readNumeral cs = n := (digits_iff.1 h).2

theorem Digits.widen {lo' hi' : Nat} (h : Digits lo hi cs n) (hlo : lo' ≤ lo) (hhi : hi ≤ hi') :
    Digits lo' hi' cs n :=
  ⟨hlo.trans h.le_length, h.length_le.trans hhi, h.isDigit, h.value⟩

theorem toNat_of_isDigit {c : Char} (h : c.isDigit = true) : 48 ≤ c.toNat ∧ c.toNat ≤ 57 := by
  simp only [Char.isDigit, Bool.and_eq_true, decide_eq_true_eq, ge_iff_le, UInt32.le_iff_toNat_le] at h
  exact h

theorem utf8Size_of_isDigit {c : Char} (h : c.isDigit = true) : c.utf8Size = 1 := by
  have := toNat_of_isDigit h
  rw [Char.utf8Size_eq_one_iff, UInt32.le_iff_toNat_le]
  exact this.2.trans (by decide)

theorem ne_of_isDigit {c x : Char} (h : c.isDigit = true) (hx : x.isDigit = false) : c ≠ x := by
  rintro rfl
  rw [h] at hx
  cases hx

theorem byteLength_of_isDigit (h : ∀ c ∈ cs, c.isDigit = true) : Text.byteLength cs = cs.length :=
  Text.byteLength_of_ascii fun c hc => utf8Size_of_isDigit (h c hc)

theorem cutFirst_of_isDigit {x : Char} (hx : x.isDigit = false) (h : ∀ c ∈ cs, c.isDigit = true) :
    Text.cutFirst (· == x) cs = (cs, none) :=
  Text.cutFirst_of_forall fun c hc => beq_false_of_ne (ne_of_isDigit (h c hc) hx)

theorem cutFirst_append_of_isDigit {x : Char} (hx : x.isDigit = false)
    (h : ∀ c ∈ cs, c.isDigit = true) (rest : List Char) :
    Text.cutFirst (· == x) (cs ++ x :: rest) = (cs, some rest) :=
  Text.cutFirst_append (fun c hc => beq_false_of_ne (ne_of_isDigit (h c hc) hx)) (beq_self_eq_true x)

/-- A character that is no digit stands in no numeral. -/
theorem Digits.notMem {c : Char} (h : Digits lo hi cs n) (hc : c.isDigit = false) : c ∉ cs :=
  fun hmem => ne_of_isDigit (h.isDigit c hmem) hc rfl

theorem ofDigitChars_lt {cs : List Char} (h : ∀ c ∈ cs, c.isDigit = true) (init : Nat) :
    Nat.ofDigitChars 10 cs init < (init + 1) * 10 ^ cs.length := by
  induction cs generalizing init with
  | nil => simp
  | cons c cs ih =>
    have hc := toNat_of_isDigit (h c (by simp))
    have hcs := ih (fun d hd => h d (by simp [hd])) (10 * init + (c.toNat - '0'.toNat))
    have hdigit : c.toNat - '0'.toNat < 10 := by
      have : '0'.toNat = 48 := rfl
      omega
    rw [Nat.ofDigitChars_cons, List.length_cons, Nat.pow_succ']
    calc Nat.ofDigitChars 10 cs (10 * init + (c.toNat - '0'.toNat))
        < (10 * init + (c.toNat - '0'.toNat) + 1) * 10 ^ cs.length := hcs
      _ ≤ ((init + 1) * 10) * 10 ^ cs.length := Nat.mul_le_mul_right _ (by omega)
      _ = (init + 1) * (10 * 10 ^ cs.length) := by rw [Nat.mul_assoc]

/-- A fraction of a second has less nanoseconds than a second. -/
theorem Digits.fraction_lt (h : Digits lo 9 cs n) : n * 10 ^ (9 - cs.length) < 1000000000 := by
  have hlt : n < 10 ^ cs.length := by simpa [h.value] using ofDigitChars_lt h.isDigit 0
  calc n * 10 ^ (9 - cs.length)
      < 10 ^ cs.length * 10 ^ (9 - cs.length) := Nat.mul_lt_mul_of_pos_right hlt (by positivity)
    _ = 10 ^ 9 := by rw [← Nat.pow_add, Nat.add_sub_cancel' h.length_le]
    _ = 1000000000 := by norm_num

theorem SecondText.nanosecond_lt {second nanosecond : Nat} (h : SecondText cs second nanosecond) :
    nanosecond < 1000000000 := by
  cases h with
  | whole hs => decide
  | fraction hs hf => exact hf.fraction_lt

theorem SecondText.notMem_colon {second nanosecond : Nat} (h : SecondText cs second nanosecond) :
    ':' ∉ cs := by
  cases h with
  | whole hs => exact hs.notMem rfl
  | fraction hs hf => simp [hs.notMem (c := ':') rfl, hf.notMem (c := ':') rfl]

/-! ## The characters of the pieces -/

/-- What clocks are written with, and also what follows the sign of an offset. -/
def IsClockChar (c : Char) : Prop := c.isDigit = true ∨ c = ':' ∨ c = '.'

theorem IsClockChar.ne {c : Char} (h : IsClockChar c) {d : Char}
    (hd : d ∈ ['Z', 'z', '+', '-']) : c ≠ d := by
  rintro rfl
  rcases h with h | rfl | rfl
  · simp only [List.mem_cons, List.not_mem_nil, or_false] at hd
    rcases hd with rfl | rfl | rfl | rfl <;> cases h
  · exact absurd hd (by decide)
  · exact absurd hd (by decide)

theorem Digits.isClockChar (h : Digits lo hi cs n) : ∀ c ∈ cs, IsClockChar c :=
  fun c hc => .inl (h.isDigit c hc)

theorem SecondText.isClockChar {second nanosecond : Nat} (h : SecondText cs second nanosecond) :
    ∀ c ∈ cs, IsClockChar c := by
  cases h with
  | whole hs => exact hs.isClockChar
  | fraction hs hf =>
    simp only [List.forall_mem_append, List.forall_mem_cons]
    exact ⟨hs.isClockChar, .inr (.inr rfl), hf.isClockChar⟩

theorem ClockText.isClockChar {hour minute second nanosecond : Nat}
    (h : ClockText cs hour minute second nanosecond) : ∀ c ∈ cs, IsClockChar c := by
  cases h with
  | minutes hh hm =>
    simp only [List.forall_mem_append, List.forall_mem_cons]
    exact ⟨hh.isClockChar, .inr (.inl rfl), hm.isClockChar⟩
  | seconds hh hm hs =>
    simp only [List.forall_mem_append, List.forall_mem_cons]
    exact ⟨hh.isClockChar, .inr (.inl rfl), hm.isClockChar, .inr (.inl rfl), hs.isClockChar⟩

theorem HoursText.isClockChar {hours minutes : Nat} (h : HoursText cs hours minutes) :
    ∀ c ∈ cs, IsClockChar c := by
  cases h with
  | hours hh => exact hh.isClockChar
  | colon hh hm =>
    simp only [List.forall_mem_append, List.forall_mem_cons]
    exact ⟨hh.isClockChar, .inr (.inl rfl), hm.isClockChar⟩
  | four hh hm =>
    simp only [List.forall_mem_append]
    exact ⟨hh.isClockChar, hm.isClockChar⟩

theorem OffsetText.utc_or_signed {seconds : Int} (h : OffsetText cs seconds) :
    (∃ z, cs = [z] ∧ (z = 'Z' ∨ z = 'z') ∧ seconds = 0) ∨
      ∃ sign digits, cs = sign :: digits ∧ (sign = '+' ∨ sign = '-') ∧
        ∀ c ∈ digits, IsClockChar c := by
  cases h with
  | utc hz => exact .inl ⟨_, rfl, hz, rfl⟩
  | ahead hcs _ _ => exact .inr ⟨_, _, rfl, .inl rfl, hcs.isClockChar⟩
  | behind hcs _ _ => exact .inr ⟨_, _, rfl, .inr rfl, hcs.isClockChar⟩

theorem DayText.isDigit_or {year month day : Nat} (h : DayText cs year month day) :
    ∀ c ∈ cs, c.isDigit = true ∨ c = '-' := by
  obtain ⟨hy, hm, hd, -, -, -⟩ := h
  simp only [List.forall_mem_append, List.forall_mem_cons]
  exact ⟨fun c hc => .inl (hy.isDigit c hc), .inr trivial, fun c hc => .inl (hm.isDigit c hc),
    .inr trivial, fun c hc => .inl (hd.isDigit c hc)⟩

/-- No date contains what marks the beginning of a clock. -/
theorem DayText.not_isTimeMark {year month day : Nat} (h : DayText cs year month day) :
    ∀ c ∈ cs, DateTime.isTimeMark c = false := by
  intro c hc
  rcases h.isDigit_or c hc with hdigit | rfl
  · simp [DateTime.isTimeMark, ne_of_isDigit hdigit]
  · rfl

/-! ## The ends of the pieces -/

/-- A text with no blank in it, and not empty. -/
structure Visible (cs : List Char) : Prop where
  ne_nil : cs ≠ []
  notBlank : ∀ c ∈ cs, Text.isBlank c = false

theorem Visible.head?_append (h : Visible cs) (rest : List Char) :
    ∀ c ∈ (cs ++ rest).head?, Text.isBlank c = false := by
  rw [List.head?_append_of_ne_nil cs h.ne_nil]
  exact fun c hc => h.notBlank c (List.mem_of_mem_head? hc)

theorem Visible.getLast?_append (h : Visible cs) (rest : List Char) :
    ∀ c ∈ (rest ++ cs).getLast?, Text.isBlank c = false := by
  rw [List.getLast?_append_of_ne_nil rest h.ne_nil]
  exact fun c hc => h.notBlank c (List.mem_of_getLast? hc)

theorem isBlank_of_isDigit {c : Char} (h : c.isDigit = true) : Text.isBlank c = false := by
  have := toNat_of_isDigit h
  simp [Text.isBlank, Text.blankRuns]
  omega

theorem IsClockChar.isBlank {c : Char} (h : IsClockChar c) : Text.isBlank c = false := by
  rcases h with h | rfl | rfl
  · exact isBlank_of_isDigit h
  · rfl
  · rfl

theorem DayText.visible {year month day : Nat} (h : DayText cs year month day) : Visible cs := by
  refine ⟨?_, fun c hc => ?_⟩
  · cases h; simp
  · rcases h.isDigit_or c hc with hdigit | rfl
    · exact isBlank_of_isDigit hdigit
    · rfl

theorem ClockText.visible {hour minute second nanosecond : Nat}
    (h : ClockText cs hour minute second nanosecond) : Visible cs := by
  refine ⟨?_, fun c hc => (h.isClockChar c hc).isBlank⟩
  cases h <;> simp

theorem OffsetText.visible {seconds : Int} (h : OffsetText cs seconds) : Visible cs := by
  rcases h.utc_or_signed with ⟨z, rfl, hz, -⟩ | ⟨sign, digits, rfl, hsign, hdigits⟩
  · refine ⟨by simp, List.forall_mem_singleton.2 ?_⟩
    rcases hz with rfl | rfl <;> rfl
  · refine ⟨by simp, List.forall_mem_cons.2 ⟨?_, fun c hc => (hdigits c hc).isBlank⟩⟩
    rcases hsign with rfl | rfl <;> rfl

/-- A date-time begins and ends without a blank. -/
theorem DateTimeText.ends {f : DateTime.Fields} (h : DateTimeText cs f) :
    cs ≠ [] ∧ (∀ c ∈ cs.head?, Text.isBlank c = false) ∧
      ∀ c ∈ cs.getLast?, Text.isBlank c = false := by
  cases h with
  | day hd =>
    exact ⟨hd.visible.ne_nil, by simpa using hd.visible.head?_append [],
      hd.visible.getLast?_append []⟩
  | @clock d c mark _ _ _ _ _ _ _ hd _ hc =>
    exact ⟨by simp, hd.visible.head?_append _,
      by simpa using hc.visible.getLast?_append (d ++ [mark])⟩
  | @offset d c o mark _ _ _ _ _ _ _ _ hd _ _ ho =>
    exact ⟨by simp, hd.visible.head?_append _,
      by simpa using ho.visible.getLast?_append (d ++ mark :: c)⟩

theorem DateTimeText.trim_eq {before body after : List Char} {f : DateTime.Fields}
    (h : DateTimeText body f) (hbefore : ∀ c ∈ before, Text.isBlank c = true)
    (hafter : ∀ c ∈ after, Text.isBlank c = true) : Text.trim (before ++ (body ++ after)) = body := by
  obtain ⟨hne, hhead, hlast⟩ := h.ends
  exact Text.trim_append hbefore hafter hne hhead hlast

end Spelling

end FormPress
