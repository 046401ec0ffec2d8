import FormPress.Proofs.Reading
import Mathlib.Data.List.Count
/-!
# Date-times with parts left out

A date-time is a date, then a clock or none, then an offset or none, each part optional on its own. Every
such text is read as what its parts say, midnight and universal time standing in for what is left out
(`DateTime.parse_of_parts`), with one exception: an offset is looked for behind a clock only, so one that
stands right behind the date is not read, and neither is the text (`DateTime.parse_zoned_day`).
-/
namespace FormPress

namespace Spelling

/-- A mark of time and a clock, or nothing, which is midnight. -/
inductive ClockPart : List Char → Nat → Nat → Nat → Nat → Prop
  | none : ClockPart [] 0 0 0 0
  | some {c : List Char} {mark : Char} {hour minute second nanosecond : Nat}
    (hmark : mark = 'T' ∨ mark = 't' ∨ mark = ' ') (hc : ClockText c hour minute second nanosecond) :
    ClockPart (mark :: c) hour minute second nanosecond

/-- An offset, or nothing, which is universal time. -/
inductive OffsetPart : List Char → Int → Prop
  | none : OffsetPart [] 0
  | some {o : List Char} {seconds : Int} (ho : OffsetText o seconds) : OffsetPart o seconds

variable {d o : List Char} {year month day : Nat} {seconds : Int}

/-- The fields of a date are parted by two hyphens. -/
theorem DayText.count_hyphen (h : DayText d year month day) : d.count '-' = 2 := by
  obtain ⟨hy, hm, hd, -, -, -⟩ := h
  have hyear := List.count_eq_zero_of_not_mem (hy.notMem (c := '-') rfl)
  have hmonth := List.count_eq_zero_of_not_mem (hm.notMem (c := '-') rfl)
  have hday := List.count_eq_zero_of_not_mem (hd.notMem (c := '-') rfl)
  simp [List.count_append, hyear, hmonth, hday]

theorem OffsetText.not_isTimeMark (h : OffsetText o seconds) :
    ∀ c ∈ o, DateTime.isTimeMark c = false := by
  have hclock : ∀ c, IsClockChar c → DateTime.isTimeMark c = false := by
    rintro c (hdigit | rfl | rfl)
    · simp [DateTime.isTimeMark, ne_of_isDigit hdigit]
    · rfl
    · rfl
  rcases h.utc_or_signed with ⟨z, rfl, hz, -⟩ | ⟨sign, digits, rfl, hsign, hdigits⟩
  · rw [List.forall_mem_singleton]
    rcases hz with rfl | rfl <;> rfl
  · rw [List.forall_mem_cons]
    refine ⟨?_, fun c hc => hclock c (hdigits c hc)⟩
    rcases hsign with rfl | rfl <;> rfl

/-- No offset begins with a digit. -/
theorem OffsetText.exists_head (h : OffsetText o seconds) : ∃ c ∈ o, c.isDigit = false := by
  rcases h.utc_or_signed with ⟨z, rfl, hz, -⟩ | ⟨sign, digits, rfl, hsign, -⟩
  · refine ⟨z, by simp, ?_⟩
    rcases hz with rfl | rfl <;> rfl
  · refine ⟨sign, by simp, ?_⟩
    rcases hsign with rfl | rfl <;> rfl

/-- A date with an offset right behind it is no date. -/
theorem DayText.not_append (hd : DayText d year month day) (ho : OffsetText o seconds)
    {year' month' day' : Nat} : ¬ DayText (d ++ o) year' month' day' := by
  intro h
  have hnone : o.count '-' = 0 := by
    have hcount := h.count_hyphen
    rw [List.count_append, hd.count_hyphen] at hcount
    omega
  obtain ⟨c, hc, hdigit⟩ := ho.exists_head
  rcases h.isDigit_or c (List.mem_append_right d hc) with hc' | rfl
  · rw [hdigit] at hc'
    cases hc'
  · exact List.count_eq_zero.1 hnone hc

end Spelling

namespace DateTime

open Spelling

variable {d c o : List Char} {year month day hour minute second nanosecond : Nat} {seconds : Int}

/-- A date with an offset and no clock is not read. -/
theorem parse_zoned_day (hd : DayText d year month day) (ho : OffsetText o seconds) :
    parse (String.ofList (d ++ o)) = .ok none := by
  have hne : d ++ o ≠ [] := List.append_ne_nil_of_left_ne_nil hd.visible.ne_nil o
  have htrim : Text.trim (d ++ o) = d ++ o :=
    Text.trim_self hne (hd.visible.head?_append o) (ho.visible.getLast?_append d)
  have hcut : Text.cutFirst isTimeMark (d ++ o) = (d ++ o, none) :=
    Text.cutFirst_of_forall (List.forall_mem_append.2 ⟨hd.not_isTimeMark, ho.not_isTimeMark⟩)
  have hdate : Date.parse? (d ++ o) = none := by
    rw [Option.eq_none_iff_forall_ne_some]
    intro date hparse
    exact hd.not_append ho (Date.dayText_iff.2 ⟨date, hparse, rfl, rfl, rfl⟩)
  rw [parse, String.toList_ofList, read, htrim, hcut]
  simp only [hdate, Option.map_none]

/-- **Each part of a date-time is optional, but an offset needs a clock.** A date with a clock or none and an
offset or none is read as the date-time of these parts, unless it has an offset and no clock: then it is
none. -/
theorem parse_of_parts (hd : DayText d year month day) (hc : ClockPart c hour minute second nanosecond)
    (ho : OffsetPart o seconds) :
    ((c = [] → o = []) → ∃ t, parse (String.ofList (d ++ (c ++ o))) = .ok (some t) ∧
      t.fields = ⟨year, month, day, hour, minute, second, nanosecond, seconds⟩) ∧
    (c = [] → o ≠ [] → parse (String.ofList (d ++ (c ++ o))) = .ok none) := by
  constructor
  · intro hparts
    apply parse_of_dateTimeText
    cases hc with
    | none =>
      obtain rfl := hparts rfl
      cases ho with
      | none => simpa using DateTimeText.day hd
      | some ho => exact absurd rfl ho.visible.ne_nil
    | some hmark hc =>
      cases ho with
      | none => simpa using DateTimeText.clock hd hmark hc
      | some ho => exact .offset hd hmark hc ho
  · rintro rfl hne
    cases ho with
    | none => exact absurd rfl hne
    | some ho => exact parse_zoned_day hd ho

/-- A leap day with a clock and an offset, and with the offset alone. -/
theorem parse_of_parts_leapDay :
    let day := "2024-2-29".toList
    let clock := "T9:30".toList
    let offset := "+01:00".toList
    DayText day 2024 2 29 ∧ ClockPart clock 9 30 0 0 ∧ OffsetPart offset 3600 ∧
      (∃ t, parse (String.ofList (day ++ (clock ++ offset))) = .ok (some t) ∧
        t.fields = ⟨2024, 2, 29, 9, 30, 0, 0, 3600⟩) ∧
      parse (String.ofList (day ++ ([] ++ offset))) = .ok none := by
  intro day clock offset
  have hd : DayText day 2024 2 29 := Date.dayText_iff.2 ⟨_, rfl, rfl, rfl, rfl⟩
  have hclock : Clock.parse? "9:30".toList =
      some ⟨9, 30, 0, 0, by decide, by decide, by decide, by decide⟩ := rfl
  have hc : ClockPart clock 9 30 0 0 := .some (.inl rfl) (Clock.clockText_of_parse? hclock)
  have hhours : HoursText "01:00".toList 1 0 := .colon (h := ['0', '1']) (m := ['0', '0'])
    (.of_isNumeral rfl) (.of_isNumeral rfl)
  have ho : OffsetPart offset 3600 := .some (.ahead hhours (by decide) (by decide))
  exact ⟨hd, hc, ho, (parse_of_parts hd hc ho).1 nofun, (parse_of_parts hd .none ho).2 rfl nofun⟩

/-- Both the clock and the offset are optional, and yet this text is none. -/
theorem parse_day_utc :
    DayText "2024-01-02".toList 2024 1 2 ∧ ClockPart [] 0 0 0 0 ∧ OffsetPart "Z".toList 0 ∧
      String.ofList ("2024-01-02".toList ++ ([] ++ "Z".toList)) = "2024-01-02Z" ∧
      parse "2024-01-02Z" = .ok none :=
  ⟨Date.dayText_iff.2 ⟨_, rfl, rfl, rfl, rfl⟩, .none, .some (.utc (.inl rfl)), rfl, rfl⟩

end DateTime

end FormPress
