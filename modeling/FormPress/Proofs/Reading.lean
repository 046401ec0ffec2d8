import FormPress.Proofs.Outcome
import FormPress.Proofs.Spelling
/-!
# Reading date-times

Each step of reading a date-time takes exactly the texts that the grammar has for it: the date, the
clock, the hours behind a sign, and the cut between a clock and its offset. So the texts that are read
are those that spell a date-time (`DateTime.spelled_iff_parse`).
-/
namespace FormPress

open Spelling

/-! ## Dates -/

theorem Date.exists_ofNumbers? {year month day : Nat} (hyear : year ≤ 9999)
    (hmonth : 1 ≤ month ∧ month ≤ 12) (hday : 1 ≤ day ∧ day ≤ daysInMonth year month) :
    ∃ date, ofNumbers? year month day = some date :=
  ⟨⟨year, month, day, hyear, hmonth.1, hmonth.2, hday.1, hday.2⟩,
    ofNumbers?_eq_some_iff.2 ⟨rfl, rfl, rfl⟩⟩

theorem Date.dayText_iff {cs : List Char} {year month day : Nat} :
    DayText cs year month day ↔
      ∃ date, parse? cs = some date ∧ date.year = year ∧ date.month = month ∧ date.day = day := by
  constructor
  · rintro ⟨hy, hm, hd, hyear, hmonth, hday⟩
    rename_i y m d
    have hcut : Text.cutAll '-' (y ++ '-' :: (m ++ '-' :: d)) = [y, m, d] := by
      rw [Text.cutAll_append (hy.notMem rfl), Text.cutAll_append (hm.notMem rfl),
        Text.cutAll_of_notMem (hd.notMem rfl)]
    obtain ⟨date, hdate⟩ := exists_ofNumbers? hyear hmonth hday
    refine ⟨date, ?_, ofNumbers?_eq_some_iff.1 hdate⟩
    simp only [parse?, hcut, hy.isNumeral, hm.isNumeral, hd.isNumeral, Bool.and_self, if_true,
      hy.readNumeral, hm.readNumeral, hd.readNumeral, hdate]
  · rintro ⟨date, hparse, rfl, rfl, rfl⟩
    unfold parse? at hparse
    split at hparse
    · rename_i y m d hcut
      split at hparse
      · rename_i hdigits
        simp only [Bool.and_eq_true] at hdigits
        obtain ⟨hyear, hmonth, hday⟩ := ofNumbers?_eq_some_iff.1 hparse
        rw [Text.eq_of_cutAll_triple hcut, hyear, hmonth, hday]
        exact ⟨.of_isNumeral hdigits.1.1, .of_isNumeral hdigits.1.2, .of_isNumeral hdigits.2,
          hyear ▸ date.year_le, hmonth ▸ ⟨date.month_pos, date.month_le⟩,
          hyear ▸ hmonth ▸ hday ▸ ⟨date.day_pos, date.day_le⟩⟩
      · cases hparse
    · cases hparse

/-! ## Clocks -/

theorem Clock.ofNumbers?_eq_some_iff {h m s n : Nat} {clock : Clock} :
    ofNumbers? h m s n = some clock ↔
      clock.hour = h ∧ clock.minute = m ∧ clock.second = s ∧ clock.nanosecond = n := by
  unfold ofNumbers?
  constructor
  · intro h
    split at h
    · cases h; exact ⟨rfl, rfl, rfl, rfl⟩
    · cases h
  · rintro ⟨rfl, rfl, rfl, rfl⟩
    rw [dif_pos ⟨clock.hour_lt, clock.minute_lt, clock.second_lt, clock.nanosecond_lt⟩]

theorem Clock.exists_ofNumbers? {h m s n : Nat} (hh : h ≤ 23) (hm : m ≤ 59) (hs : s ≤ 59)
    (hn : n < 1000000000) : ∃ clock, ofNumbers? h m s n = some clock :=
  ⟨⟨h, m, s, n, by omega, by omega, by omega, hn⟩, ofNumbers?_eq_some_iff.2 ⟨rfl, rfl, rfl, rfl⟩⟩

theorem Clock.readFraction?_some_iff {f : List Char} {nanosecond : Nat} :
    readFraction? (some f) = some nanosecond ↔
      ∃ n, Digits 1 9 f n ∧ nanosecond = n * 10 ^ (9 - f.length) := by
  have hfill : ∀ k, Text.readNumeral (f ++ List.replicate k '0') = Text.readNumeral f * 10 ^ k := by
    intro k
    rw [Text.readNumeral, Nat.ofDigitChars_append, Nat.ofDigitChars_replicate_zero, Nat.mul_comm]
    rfl
  simp only [readFraction?]
  constructor
  · intro h
    split at h
    · rename_i hf
      cases h
      exact ⟨_, .of_isNumeral hf, hfill _⟩
    · cases h
  · rintro ⟨n, hf, rfl⟩
    rw [if_pos hf.isNumeral, hfill, hf.readNumeral]

theorem Clock.secondText_iff {cs : List Char} {second nanosecond : Nat} :
    SecondText cs second nanosecond ↔ readSecond? cs = some (second, nanosecond) := by
  constructor
  · rintro (hs | ⟨hs, hf⟩)
    · have hcut : Text.cutFirst (· == '.') cs = (cs, none) := cutFirst_of_isDigit rfl hs.isDigit
      simp [readSecond?, hcut, hs.isNumeral, readFraction?, hs.readNumeral]
    · rename_i s f n
      have hcut := cutFirst_append_of_isDigit (x := '.') rfl hs.isDigit f
      have hfraction := readFraction?_some_iff.2 ⟨n, hf, rfl⟩
      simp [readSecond?, hcut, hs.isNumeral, hfraction, hs.readNumeral]
  · intro h
    have heq := Text.cutFirst_eq (· == '.') cs
    rcases hcut : Text.cutFirst (· == '.') cs with ⟨s, _ | f⟩ <;> rw [hcut] at heq <;>
      simp only [readSecond?, hcut, Option.ite_none_right_eq_some, Option.map_eq_some_iff,
        Prod.mk.injEq] at h
    · obtain ⟨hs, k, hk, rfl, rfl⟩ := h
      cases hk
      rw [heq.1]
      exact .whole (.of_isNumeral hs)
    · obtain ⟨hs, k, hk, rfl, rfl⟩ := h
      obtain ⟨sep, hsep, rfl, -⟩ := heq
      obtain ⟨n, hf, rfl⟩ := readFraction?_some_iff.1 hk
      rw [eq_of_beq hsep]
      exact .fraction (.of_isNumeral hs) hf

theorem Clock.exists_parse?_of_clockText {cs : List Char} {hour minute second nanosecond : Nat}
    (hc : ClockText cs hour minute second nanosecond) :
    ∃ clock, parse? cs = some clock ∧ clock.hour = hour ∧ clock.minute = minute ∧
      clock.second = second ∧ clock.nanosecond = nanosecond := by
  cases hc with
  | @minutes h m _ _ hh hm hhour hminute =>
    have hcut : Text.cutAll ':' (h ++ ':' :: m) = [h, m] := by
      rw [Text.cutAll_append (hh.notMem rfl), Text.cutAll_of_notMem (hm.notMem rfl)]
    obtain ⟨clock, hclock⟩ := exists_ofNumbers? hhour hminute (Nat.zero_le 59) (Nat.zero_lt_succ _)
    refine ⟨clock, ?_, ofNumbers?_eq_some_iff.1 hclock⟩
    simp only [parse?, hcut, hh.isNumeral, hm.isNumeral, Bool.and_self, if_true, hh.readNumeral,
      hm.readNumeral, hclock]
  | @seconds h m s _ _ _ _ hh hm hs hhour hminute hsecond =>
    have hcut : Text.cutAll ':' (h ++ ':' :: (m ++ ':' :: s)) = [h, m, s] := by
      rw [Text.cutAll_append (hh.notMem rfl), Text.cutAll_append (hm.notMem rfl),
        Text.cutAll_of_notMem hs.notMem_colon]
    obtain ⟨clock, hclock⟩ := exists_ofNumbers? hhour hminute hsecond hs.nanosecond_lt
    refine ⟨clock, ?_, ofNumbers?_eq_some_iff.1 hclock⟩
    simp only [parse?, hcut, hh.isNumeral, hm.isNumeral, Bool.and_self, if_true, hh.readNumeral,
      hm.readNumeral, secondText_iff.1 hs, Option.bind_some, hclock]

theorem Clock.clockText_of_parse? {cs : List Char} {clock : Clock} (hparse : parse? cs = some clock) :
    ClockText cs clock.hour clock.minute clock.second clock.nanosecond := by
  have hhour := Nat.le_of_lt_succ clock.hour_lt
  have hminute := Nat.le_of_lt_succ clock.minute_lt
  have hsecond := Nat.le_of_lt_succ clock.second_lt
  unfold parse? at hparse
  split at hparse
  · rename_i h m hcut
    simp only [Option.ite_none_right_eq_some, Bool.and_eq_true] at hparse
    obtain ⟨⟨hh, hm⟩, hparse⟩ := hparse
    obtain ⟨eh, em, es, en⟩ := ofNumbers?_eq_some_iff.1 hparse
    rw [Text.eq_of_cutAll_pair hcut, es, en]
    exact .minutes (eh ▸ .of_isNumeral hh) (em ▸ .of_isNumeral hm) hhour hminute
  · rename_i h m s hcut
    simp only [Option.ite_none_right_eq_some, Bool.and_eq_true, Option.bind_eq_some_iff,
      Prod.exists] at hparse
    obtain ⟨⟨hh, hm⟩, second, nanosecond, hs, hparse⟩ := hparse
    obtain ⟨eh, em, rfl, rfl⟩ := ofNumbers?_eq_some_iff.1 hparse
    rw [Text.eq_of_cutAll_triple hcut]
    exact .seconds (eh ▸ .of_isNumeral hh) (em ▸ .of_isNumeral hm) (secondText_iff.2 hs) hhour hminute
      hsecond
  · cases hparse

/-! ## Offsets -/

theorem Offset.ofNumbers?_eq_some_iff {negative : Bool} {hours minutes : Nat} {offset : Offset} :
    ofNumbers? negative hours minutes = some offset ↔ hours ≤ 25 ∧ minutes ≤ 59 ∧
      offset.seconds = if negative then -(hours * 3600 + minutes * 60 : Int)
        else hours * 3600 + minutes * 60 := by
  unfold ofNumbers?
  constructor
  · intro h
    split at h
    · rename_i hrange
      cases h
      exact ⟨hrange.1, hrange.2, by simp⟩
    · cases h
  · rintro ⟨hhours, hminutes, hseconds⟩
    rw [dif_pos ⟨hhours, hminutes⟩]
    obtain ⟨seconds, hle, hge⟩ := offset
    simp only at hseconds
    subst hseconds
    simp

theorem Offset.cutHours_of_hoursText {cs : List Char} {hours minutes : Nat}
    (h : HoursText cs hours minutes) :
    ∃ h m, cutHours cs = .ok (h, m) ∧ Digits 1 2 h hours ∧ Digits 1 2 m minutes := by
  cases h with
  | hours hh =>
    have hlen : Text.byteLength cs ≠ 4 := by
      have := hh.length_le
      rw [byteLength_of_isDigit hh.isDigit]
      omega
    have hcut := cutFirst_of_isDigit (x := ':') rfl hh.isDigit
    have hzero : Digits 1 2 ['0'] 0 :=
      ⟨by decide, by decide, List.forall_mem_singleton.2 rfl, rfl⟩
    exact ⟨cs, ['0'], by simp [cutHours, hcut, hlen], hh, hzero⟩
  | @colon h m _ _ hh hm =>
    have hcut := cutFirst_append_of_isDigit (x := ':') rfl hh.isDigit m
    exact ⟨h, m, by simp [cutHours, hcut], hh, hm⟩
  | @four h m _ _ hh hm =>
    have hdigit : ∀ c ∈ h ++ m, c.isDigit = true := List.forall_mem_append.2 ⟨hh.isDigit, hm.isDigit⟩
    have hcolon := cutFirst_of_isDigit (x := ':') rfl hdigit
    have hh2 : h.length = 2 := le_antisymm hh.length_le hh.le_length
    have hm2 : m.length = 2 := le_antisymm hm.length_le hm.le_length
    have hlen : Text.byteLength (h ++ m) = 4 := by
      rw [byteLength_of_isDigit hdigit, List.length_append, hh2, hm2]
    have hcut : Text.cutBytes 2 (h ++ m) = some (h, m) := by
      rw [← hh2, ← byteLength_of_isDigit hh.isDigit, Text.cutBytes_append]
    exact ⟨h, m, by simp [cutHours, hcolon, hlen, hcut], hh.widen (by decide) le_rfl,
      hm.widen (by decide) le_rfl⟩

theorem Offset.hoursText_of_cutHours {cs h m : List Char} {hours minutes : Nat}
    (hcut : cutHours cs = .ok (h, m)) (hh : Digits 1 2 h hours) (hm : Digits 1 2 m minutes) :
    HoursText cs hours minutes := by
  have heq := Text.cutFirst_eq (· == ':') cs
  unfold cutHours at hcut
  split at hcut
  · rename_i hfirst
    rw [hfirst] at heq
    obtain ⟨sep, hsep, rfl, -⟩ := heq
    cases hcut
    rw [eq_of_beq hsep]
    exact .colon hh hm
  · split at hcut
    · rename_i hlen
      split at hcut
      · rename_i hbytes
        cases hcut
        obtain ⟨rfl, -⟩ := Text.cutBytes_eq_some_iff.1 hbytes
        -- Neither part has more than two digits, so four bytes are two digits each.
        rw [byteLength_of_isDigit (List.forall_mem_append.2 ⟨hh.isDigit, hm.isDigit⟩),
          List.length_append] at hlen
        have := hh.length_le
        have := hm.length_le
        exact .four ⟨by omega, hh.length_le, hh.isDigit, hh.value⟩
          ⟨by omega, hm.length_le, hm.isDigit, hm.value⟩
      · cases hcut
    · cases hcut
      obtain rfl : minutes = 0 := hm.value.symm
      exact .hours hh

theorem Offset.read_eq_some_iff {negative : Bool} {cs : List Char} {offset : Offset} :
    read negative cs = .ok (some offset) ↔ ∃ hours minutes,
      HoursText cs hours minutes ∧ ofNumbers? negative hours minutes = some offset := by
  simp only [read, bind_eq_ok_iff, Prod.exists]
  constructor
  · rintro ⟨h, m, hcut, hr⟩
    split at hr
    · rename_i hnum
      rw [Bool.and_eq_true] at hnum
      exact ⟨_, _, hoursText_of_cutHours hcut (.of_isNumeral hnum.1) (.of_isNumeral hnum.2),
        Except.ok.inj hr⟩
    · cases hr
  · rintro ⟨hours, minutes, hcs, ho⟩
    obtain ⟨h, m, hcut, hh, hm⟩ := cutHours_of_hoursText hcs
    exact ⟨h, m, hcut, by simp [hh.isNumeral, hm.isNumeral, hh.readNumeral, hm.readNumeral, ho]⟩

theorem Offset.offsetText_iff {sign : Char} (hsign : sign = '+' ∨ sign = '-') {cs : List Char}
    {offset : Offset} :
    OffsetText (sign :: cs) offset.seconds ↔ read (sign == '-') cs = .ok (some offset) := by
  rw [read_eq_some_iff]
  constructor
  · intro h
    generalize hseconds : offset.seconds = seconds at h
    cases h with
    | utc hz => rcases hsign with rfl | rfl <;> simp at hz
    | ahead hcs hhours hminutes =>
      exact ⟨_, _, hcs, ofNumbers?_eq_some_iff.2 ⟨hhours, hminutes, hseconds⟩⟩
    | behind hcs hhours hminutes =>
      exact ⟨_, _, hcs, ofNumbers?_eq_some_iff.2 ⟨hhours, hminutes, hseconds⟩⟩
  · rintro ⟨hours, minutes, hcs, ho⟩
    obtain ⟨hhours, hminutes, hseconds⟩ := ofNumbers?_eq_some_iff.1 ho
    rw [hseconds]
    rcases hsign with rfl | rfl
    · exact .ahead hcs hhours hminutes
    · exact .behind hcs hhours hminutes

theorem Offset.exists_of_offsetText {cs : List Char} {seconds : Int} (h : OffsetText cs seconds) :
    ∃ offset : Offset, offset.seconds = seconds := by
  have hrange : -(25 * 3600 + 59 * 60) ≤ seconds ∧ seconds ≤ 25 * 3600 + 59 * 60 := by
    cases h <;> omega
  exact ⟨⟨seconds, hrange.1, hrange.2⟩, rfl⟩

/-! ## Clocks with their offsets -/

namespace DateTime

theorem cutOffset_eq_cutLast {cs : List Char} (h : ∀ c ∈ cs.getLast?, c ≠ 'Z' ∧ c ≠ 'z') :
    cutOffset cs =
      match Text.cutLast (fun c => c == '+' || c == '-') cs with
      | none => .ok (some (cs, .utc))
      | some (clock, sign, digits) => do
        return (← Offset.read (sign == '-') digits).map (clock, ·) := by
  unfold cutOffset
  split
  · rename_i hlast; exact absurd rfl (h _ hlast).1
  · rename_i hlast; exact absurd rfl (h _ hlast).2
  · rfl

theorem exists_utcMark {cs : List Char} (h : ¬ ∀ c ∈ cs.getLast?, c ≠ 'Z' ∧ c ≠ 'z') :
    ∃ z, cs.getLast? = some z ∧ (z = 'Z' ∨ z = 'z') := by
  simp only [not_forall, exists_prop] at h
  obtain ⟨z, hz, hne⟩ := h
  refine ⟨z, hz, ?_⟩
  by_contra hother
  exact hne (not_or.1 hother)

theorem cutOffset_of_utcMark {cs : List Char} {z : Char} (h : cs.getLast? = some z)
    (hz : z = 'Z' ∨ z = 'z') : cutOffset cs = .ok (some (cs.dropLast, .utc)) := by
  rcases hz with rfl | rfl <;> simp only [cutOffset, h]

/-- What is cut off the end is an offset. -/
theorem offsetText_of_cutOffset {cs clock : List Char} {offset : Offset}
    (h : cutOffset cs = .ok (some (clock, offset))) :
    (cs = clock ∧ offset.seconds = 0) ∨ ∃ o, cs = clock ++ o ∧ OffsetText o offset.seconds := by
  by_cases hlast : ∀ c ∈ cs.getLast?, c ≠ 'Z' ∧ c ≠ 'z'
  · rw [cutOffset_eq_cutLast hlast] at h
    have heq := Text.cutLast_eq (fun c => c == '+' || c == '-') cs
    split at h
    · cases h
      exact .inl ⟨rfl, rfl⟩
    · rename_i before sign digits hcut
      rw [hcut] at heq
      obtain ⟨hsign, rfl, -⟩ := heq
      obtain ⟨offset?, hread, hmap⟩ := map_eq_ok_iff.1 h
      obtain ⟨offset', rfl, hpair⟩ := Option.map_eq_some_iff.1 hmap
      cases hpair
      exact .inr ⟨_, rfl, (Offset.offsetText_iff (by simpa using hsign)).2 hread⟩
  · obtain ⟨z, hz, hutc⟩ := exists_utcMark hlast
    rw [cutOffset_of_utcMark hz hutc] at h
    cases h
    exact .inr ⟨[z], (List.dropLast_append_getLast? z hz).symm, .utc hutc⟩

theorem cutOffset_of_clock {cs : List Char} (h : ∀ c ∈ cs, IsClockChar c) :
    cutOffset cs = .ok (some (cs, .utc)) := by
  rw [cutOffset_eq_cutLast fun c hc => ?_, Text.cutLast_of_forall fun c hc => ?_]
  · simp [(h c hc).ne]
  · have := h c (List.mem_of_getLast? hc)
    exact ⟨this.ne (by simp), this.ne (by simp)⟩

theorem cutOffset_append {cs o : List Char} {seconds : Int} (h : ∀ c ∈ cs, IsClockChar c)
    (ho : OffsetText o seconds) :
    ∃ offset, offset.seconds = seconds ∧ cutOffset (cs ++ o) = .ok (some (cs, offset)) := by
  rcases ho.utc_or_signed with ⟨z, rfl, hz, rfl⟩ | ⟨sign, digits, rfl, hsign, hdigits⟩
  · refine ⟨.utc, rfl, ?_⟩
    rcases hz with rfl | rfl <;> simp [cutOffset]
  · obtain ⟨offset, rfl⟩ := Offset.exists_of_offsetText ho
    have hlast : ∀ c ∈ (cs ++ sign :: digits).getLast?, c ≠ 'Z' ∧ c ≠ 'z' := by
      intro c hc
      have hmem := List.mem_of_getLast? hc
      simp only [List.mem_append, List.mem_cons] at hmem
      rcases hmem with hc | rfl | hc
      · exact ⟨(h c hc).ne (by simp), (h c hc).ne (by simp)⟩
      · rcases hsign with rfl | rfl <;> decide
      · exact ⟨(hdigits c hc).ne (by simp), (hdigits c hc).ne (by simp)⟩
    have hcut : Text.cutLast (fun c => c == '+' || c == '-') (cs ++ sign :: digits) =
        some (cs, sign, digits) := by
      refine Text.cutLast_append (by simpa using hsign) fun c hc => ?_
      simp [(hdigits c hc).ne]
    refine ⟨offset, rfl, ?_⟩
    rw [cutOffset_eq_cutLast hlast, hcut]
    simp [(Offset.offsetText_iff hsign).1 ho]

theorem readTime_eq_some_iff {date : Date} {cs : List Char} {t : DateTime} :
    readTime date cs = .ok (some t) ↔ t.date = date ∧
      ∃ c, cutOffset cs = .ok (some (c, t.offset)) ∧ Clock.parse? c = some t.clock := by
  simp only [readTime, bind_eq_ok_iff]
  constructor
  · rintro ⟨cut, hcut, h⟩
    cases cut with
    | none => cases h
    | some pair =>
      obtain ⟨clock, hclock, rfl⟩ := Option.map_eq_some_iff.1 (Except.ok.inj h)
      exact ⟨rfl, pair.1, hcut, hclock⟩
  · rintro ⟨rfl, c, hcut, hclock⟩
    exact ⟨_, hcut, by simp [hclock]⟩

/-! ## Date-times -/

theorem isTimeMark_iff {c : Char} : isTimeMark c = true ↔ c = 'T' ∨ c = 't' ∨ c = ' ' := by
  simp [isTimeMark, or_assoc]

theorem dateTimeText_of_read {cs : List Char} {t : DateTime} (h : read cs = .ok (some t)) :
    DateTimeText (Text.trim cs) t.fields := by
  have heq := Text.cutFirst_eq isTimeMark (Text.trim cs)
  unfold read at h
  split at h
  · rename_i d hcut
    rw [hcut] at heq
    obtain ⟨date, hdate, rfl⟩ := Option.map_eq_some_iff.1 (Except.ok.inj h)
    rw [heq.1]
    exact .day (Date.dayText_iff.2 ⟨date, hdate, rfl, rfl, rfl⟩)
  · rename_i d time hcut
    rw [hcut] at heq
    obtain ⟨mark, hmark, hbody, -⟩ := heq
    split at h
    · cases h
    · rename_i date hdate
      obtain ⟨rfl, c, hoffset, hclock⟩ := readTime_eq_some_iff.1 h
      have hd : DayText d t.date.year t.date.month t.date.day :=
        Date.dayText_iff.2 ⟨t.date, hdate, rfl, rfl, rfl⟩
      have hc : ClockText c t.clock.hour t.clock.minute t.clock.second t.clock.nanosecond :=
        Clock.clockText_of_parse? hclock
      rw [hbody]
      rcases offsetText_of_cutOffset hoffset with ⟨rfl, hzero⟩ | ⟨o, rfl, ho⟩
      · rw [fields, hzero]
        exact .clock hd (isTimeMark_iff.1 hmark) hc
      · exact .offset hd (isTimeMark_iff.1 hmark) hc ho

theorem read_of_dateTimeText {cs : List Char} {f : Fields} (h : DateTimeText (Text.trim cs) f) :
    ∃ t, read cs = .ok (some t) ∧ t.fields = f := by
  unfold read
  generalize Text.trim cs = body at h
  cases h with
  | day hd =>
    obtain ⟨date, hdate, rfl, rfl, rfl⟩ := Date.dayText_iff.1 hd
    rw [Text.cutFirst_of_forall hd.not_isTimeMark]
    exact ⟨⟨date, .midnight, .utc⟩, by simp [hdate], rfl⟩
  | clock hd hmark hc =>
    obtain ⟨date, hdate, rfl, rfl, rfl⟩ := Date.dayText_iff.1 hd
    obtain ⟨clock, hclock, rfl, rfl, rfl, rfl⟩ := Clock.exists_parse?_of_clockText hc
    rw [Text.cutFirst_append hd.not_isTimeMark (isTimeMark_iff.2 hmark)]
    simp only [hdate]
    exact ⟨⟨date, clock, .utc⟩,
      readTime_eq_some_iff.2 ⟨rfl, _, cutOffset_of_clock hc.isClockChar, hclock⟩, rfl⟩
  | offset hd hmark hc ho =>
    obtain ⟨date, hdate, rfl, rfl, rfl⟩ := Date.dayText_iff.1 hd
    obtain ⟨clock, hclock, rfl, rfl, rfl, rfl⟩ := Clock.exists_parse?_of_clockText hc
    obtain ⟨offset, rfl, hcut⟩ := cutOffset_append hc.isClockChar ho
    rw [Text.cutFirst_append hd.not_isTimeMark (isTimeMark_iff.2 hmark)]
    simp only [hdate]
    exact ⟨⟨date, clock, offset⟩, readTime_eq_some_iff.2 ⟨rfl, _, hcut, hclock⟩, rfl⟩

/-- A text of the grammar, with nothing around it, is read as its numbers. -/
theorem parse_of_dateTimeText {cs : List Char} {f : Fields} (h : DateTimeText cs f) :
    ∃ t, parse (String.ofList cs) = .ok (some t) ∧ t.fields = f := by
  obtain ⟨hne, hhead, hlast⟩ := h.ends
  rw [← Text.trim_self hne hhead hlast] at h
  rw [parse, String.toList_ofList]
  exact read_of_dateTimeText h

/-- **Reading accepts exactly the grammar.** A text spells a date-time of some numbers, with whatever
blanks around it, if and only if it is read as the date-time of these numbers. -/
theorem spelled_iff_parse (s : String) (f : Fields) :
    f.Spelled s ↔ ∃ t, DateTime.parse s = .ok (some t) ∧ t.fields = f := by
  constructor
  · rintro ⟨before, body, after, hs, hbefore, hafter, h⟩
    have htrim : Text.trim s.toList = body := by rw [hs, h.trim_eq hbefore hafter]
    exact read_of_dateTimeText (htrim ▸ h)
  · rintro ⟨t, ht, rfl⟩
    obtain ⟨before, after, hs, hbefore, hafter⟩ := Text.trim_eq s.toList
    exact ⟨before, Text.trim s.toList, after, hs, hbefore, hafter, dateTimeText_of_read ht⟩

end DateTime

end FormPress
