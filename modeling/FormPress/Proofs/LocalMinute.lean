import FormPress.Proofs.Chronology
import FormPress.Proofs.Reading
import FormPress.Value
/-!
# The displayed minute

A date-time is displayed as its local minute, in numerals of fixed width with the greatest unit in front.
What is displayed is read as that minute (`DateTime.parse_display`), so displaying it again changes
nothing; and texts stand in the order of the minutes they display (`DateTime.display_lt_iff`), which in
one offset is the order of time (`DateTime.elapsed_lt_of_minute_lt`).
-/
namespace FormPress

/-- The minute on the local clock: year, month, day, hour and minute. -/
def DateTime.minute (t : DateTime) : List Nat :=
  [t.date.year, t.date.month, t.date.day, t.clock.hour, t.clock.minute]

/-! ## Padded numerals -/

namespace Spelling

theorem digits_paddedNumeral {width n : Nat} (hwidth : 0 < width) (hn : n < 10 ^ width) :
    Digits width width (Text.paddedNumeral width n) n := by
  have hlen : (Text.numeral n).length ≤ width :=
    (Nat.length_toDigits_le_iff (by decide) hwidth).2 hn
  have hpadded : (Text.paddedNumeral width n).length = width := by
    simp only [Text.paddedNumeral, List.length_append, List.length_replicate]
    omega
  refine ⟨hpadded.ge, hpadded.le, ?_, ?_⟩
  · rw [Text.paddedNumeral, List.forall_mem_append]
    refine ⟨fun c hc => ?_, fun c hc => Text.isDigit_of_mem_numeral hc⟩
    rw [List.eq_of_mem_replicate hc]
    rfl
  · rw [Text.paddedNumeral, Nat.ofDigitChars_append, Nat.ofDigitChars_replicate_zero]
    exact Text.readNumeral_numeral n

/-- Digits in front decide the order of texts as their numbers do, in front of which other digits may
have been read. -/
theorem lt_iff_ofDigitChars {l l' : List Char} (r r' : List Char) (hlen : l.length = l'.length)
    (hl : ∀ c ∈ l, c.isDigit = true) (hl' : ∀ c ∈ l', c.isDigit = true) (a b : Nat) :
    (a < b ∨ a = b ∧ l ++ r < l' ++ r') ↔
      (Nat.ofDigitChars 10 l a < Nat.ofDigitChars 10 l' b ∨
        Nat.ofDigitChars 10 l a = Nat.ofDigitChars 10 l' b ∧ r < r') := by
  induction l generalizing l' a b with
  | nil =>
    obtain rfl : l' = [] := List.length_eq_zero_iff.1 hlen.symm
    rfl
  | cons c l ih =>
    cases l' with
    | nil => cases hlen
    | cons c' l' =>
      have hc := toNat_of_isDigit (hl c (by simp))
      have hc' := toNat_of_isDigit (hl' c' (by simp))
      have hlt : c < c' ↔ c.toNat < c'.toNat := Iff.rfl
      rw [Nat.ofDigitChars_cons, Nat.ofDigitChars_cons,
        ← ih (Nat.succ.inj hlen) (fun d hd => hl d (by simp [hd])) (fun d hd => hl' d (by simp [hd])),
        List.cons_append, List.cons_append, List.cons_lt_cons_iff, hlt, ← Char.toNat_inj]
      have hzero : '0'.toNat = 48 := rfl
      by_cases hrest : l ++ r < l' ++ r' <;> simp only [hrest, and_true, and_false, or_false] <;> omega

/-- Of two texts that begin with numerals of one width the one with the smaller number comes first. -/
theorem Digits.append_lt_iff {width n n' : Nat} {l l' : List Char} (h : Digits width width l n)
    (h' : Digits width width l' n') (r r' : List Char) :
    l ++ r < l' ++ r' ↔ n < n' ∨ n = n' ∧ r < r' := by
  have hlen : l.length = l'.length :=
    (le_antisymm h.length_le h.le_length).trans (le_antisymm h'.length_le h'.le_length).symm
  have hlt := lt_iff_ofDigitChars r r' hlen h.isDigit h'.isDigit 0 0
  rw [h.value, h'.value] at hlt
  simpa using hlt

end Spelling

namespace DateTime

open Spelling

/-! ## Reading what is displayed -/

theorem digits_year (d : Date) : Digits 4 4 (Text.paddedNumeral 4 d.year) d.year :=
  digits_paddedNumeral (by decide) (Nat.lt_succ_of_le d.year_le)

theorem digits_two {n : Nat} (hn : n < 100) : Digits 2 2 (Text.paddedNumeral 2 n) n :=
  digits_paddedNumeral (by decide) hn

theorem day_lt (d : Date) : d.day < 100 := by
  have hday := d.day_le
  unfold daysInMonth at hday
  split_ifs at hday <;> omega

theorem dayText_display (d : Date) :
    DayText (Text.paddedNumeral 4 d.year ++ '-' :: (Text.paddedNumeral 2 d.month
      ++ '-' :: Text.paddedNumeral 2 d.day)) d.year d.month d.day :=
  have hmonth : d.month < 100 := d.month_le.trans_lt (by decide)
  .intro ((digits_year d).widen (by decide) (by decide)) ((digits_two hmonth).widen (by decide) le_rfl)
    ((digits_two (day_lt d)).widen (by decide) le_rfl) d.year_le ⟨d.month_pos, d.month_le⟩
    ⟨d.day_pos, d.day_le⟩

theorem clockText_display (c : Clock) :
    ClockText (Text.paddedNumeral 2 c.hour ++ ':' :: Text.paddedNumeral 2 c.minute) c.hour c.minute 0 0 :=
  have hhour : c.hour < 100 := c.hour_lt.trans (by decide)
  have hminute : c.minute < 100 := c.minute_lt.trans (by decide)
  .minutes ((digits_two hhour).widen (by decide) le_rfl) ((digits_two hminute).widen (by decide) le_rfl)
    (Nat.le_of_lt_succ c.hour_lt) (Nat.le_of_lt_succ c.minute_lt)

theorem display_eq (t : DateTime) :
    t.display = (Text.paddedNumeral 4 t.date.year ++ '-' :: (Text.paddedNumeral 2 t.date.month
      ++ '-' :: Text.paddedNumeral 2 t.date.day))
      ++ ' ' :: (Text.paddedNumeral 2 t.clock.hour ++ ':' :: Text.paddedNumeral 2 t.clock.minute) := by
  simp only [display, List.append_assoc, List.cons_append]

/-- What is displayed is read as the minute, in universal time. -/
theorem parse_display (t : DateTime) :
    ∃ u, parse (String.ofList t.display) = .ok (some u) ∧
      u.fields = { t.fields with second := 0, nanosecond := 0, offset := 0 } := by
  have htext := DateTimeText.clock (dayText_display t.date) (.inr (.inr rfl)) (clockText_display t.clock)
  rw [← display_eq] at htext
  exact parse_of_dateTimeText htext

/-- The minute is all that is displayed. -/
theorem display_congr {t u : DateTime} (h : t.minute = u.minute) : t.display = u.display := by
  simp only [minute, List.cons.injEq, and_true] at h
  obtain ⟨hyear, hmonth, hday, hhour, hminute⟩ := h
  rw [display, display, hyear, hmonth, hday, hhour, hminute]

/-! ## The order of what is displayed -/

theorem display_lt_iff {t u : DateTime} : t.display < u.display ↔ t.minute < u.minute := by
  have hmonth (d : Date) : Digits 2 2 _ d.month := digits_two (d.month_le.trans_lt (by decide))
  have hday (d : Date) : Digits 2 2 _ d.day := digits_two (day_lt d)
  have hhour (c : Clock) : Digits 2 2 _ c.hour := digits_two (c.hour_lt.trans (by decide))
  have hminute (c : Clock) : Digits 2 2 _ c.minute := digits_two (c.minute_lt.trans (by decide))
  have hlast := (hminute t.clock).append_lt_iff (hminute u.clock) [] []
  rw [List.append_nil, List.append_nil] at hlast
  simp only [display_eq, List.append_assoc, List.cons_append, minute, List.cons_lt_cons_iff,
    (digits_year t.date).append_lt_iff (digits_year u.date), (hmonth t.date).append_lt_iff (hmonth u.date),
    (hday t.date).append_lt_iff (hday u.date), (hhour t.clock).append_lt_iff (hhour u.clock), hlast,
    Char.lt_irrefl, List.lt_irrefl, false_or, true_and]

theorem display_eq_iff {t u : DateTime} : t.display = u.display ↔ t.minute = u.minute := by
  refine ⟨fun h => ?_, display_congr⟩
  have hle : ¬ u.minute < t.minute := by
    rw [← display_lt_iff, h]
    exact List.lt_irrefl _
  have hge : ¬ t.minute < u.minute := by
    rw [← display_lt_iff, h]
    exact List.lt_irrefl _
  exact List.le_antisymm (List.not_lt.1 hle) (List.not_lt.1 hge)

end DateTime

/-! ## The order of time -/

section

open Finset

theorem sum_daysInMonth (year : Nat) : ∑ month ∈ Ico 1 13, daysInMonth year month = daysInYear year := by
  unfold daysInMonth daysInYear
  cases isLeapYear year <;> rfl

/-- A day is over before its month is. -/
theorem Date.days_lt_of_month (d : Date) :
    ∑ month ∈ Ico 1 d.month, daysInMonth d.year month + (d.day - 1) <
      ∑ month ∈ Ico 1 (d.month + 1), daysInMonth d.year month := by
  have hpos := d.day_pos
  have hle := d.day_le
  rw [sum_Ico_succ_top d.month_pos]
  omega

/-- Of two dates the earlier one has fewer days before it. -/
theorem Date.countedDays_lt {d e : Date}
    (h : d.year < e.year ∨
      d.year = e.year ∧ (d.month < e.month ∨ d.month = e.month ∧ d.day < e.day)) :
    d.countedDays < e.countedDays := by
  unfold countedDays
  rcases h with hyear | ⟨hyear, hmonth | ⟨hmonth, hday⟩⟩
  · have hmonths : ∑ month ∈ Ico 1 (d.month + 1), daysInMonth d.year month ≤ daysInYear d.year := by
      rw [← sum_daysInMonth]
      exact sum_le_sum_of_subset (Ico_subset_Ico_right (Nat.succ_le_succ d.month_le))
    have hyears : ∑ year ∈ range (d.year + 1), daysInYear year ≤ ∑ year ∈ range e.year, daysInYear year :=
      sum_le_sum_of_subset (range_subset_range.2 hyear)
    have hdays := d.days_lt_of_month
    rw [sum_range_succ] at hyears
    omega
  · have hmonths : ∑ month ∈ Ico 1 (d.month + 1), daysInMonth d.year month ≤
        ∑ month ∈ Ico 1 e.month, daysInMonth d.year month :=
      sum_le_sum_of_subset (Ico_subset_Ico_right hmonth)
    have hdays := d.days_lt_of_month
    rw [← hyear]
    omega
  · have hpos := d.day_pos
    rw [← hyear, ← hmonth]
    omega

end

namespace DateTime

/-- In one offset a later minute is a later time, whatever the seconds. -/
theorem elapsed_lt_of_minute_lt {t u : DateTime} (hoffset : t.offset = u.offset)
    (h : t.minute < u.minute) : t.elapsed < u.elapsed := by
  have hsecond := t.clock.second_lt
  have hnanosecond := t.clock.nanosecond_lt
  have hminute := t.clock.minute_lt
  have hhour := t.clock.hour_lt
  simp only [minute, List.cons_lt_cons_iff, List.lt_irrefl, and_false, or_false] at h
  unfold elapsed
  rw [hoffset]
  rcases h with hyear | ⟨hyear, hmonth | ⟨hmonth, hday | ⟨hday, hclock⟩⟩⟩
  · have hdays := Date.countedDays_lt (.inl hyear)
    omega
  · have hdays := Date.countedDays_lt (.inr ⟨hyear, .inl hmonth⟩)
    omega
  · have hdays := Date.countedDays_lt (.inr ⟨hyear, .inr ⟨hmonth, hday⟩⟩)
    omega
  · have hdays : t.date.countedDays = u.date.countedDays := by
      rw [Date.countedDays, Date.countedDays, hyear, hmonth, hday]
    omega

end DateTime

/-! ## Display text -/

namespace Labels

variable (labels : Labels) {r : String}

theorem display_of_parse_none (h : DateTime.parse r = .ok none) :
    labels.display (.datetime r) = .ok r := by
  simp [display, datetime, h]

theorem display_of_parse_some {t : DateTime} (h : DateTime.parse r = .ok (some t)) :
    labels.display (.datetime r) = .ok (String.ofList t.display) := by
  simp [display, datetime, h]

/-- **What is displayed of a date-time is a normal form, and keeps the order of its clock.** Whatever
text does not break the reading off is displayed. If it is no date-time it is displayed as it is, else as
a text that is read as its local minute, in universal time; and what is displayed is displayed as itself.
Two date-times in one offset are displayed alike if and only if they share the minute, and the earlier
one of them is displayed as a text that comes first. -/
theorem display_normal :
    (∀ r, (∀ a, DateTime.parse r ≠ .error a) → ∃ s, labels.display (.datetime r) = .ok s ∧
      labels.display (.datetime s) = .ok s ∧ (DateTime.parse r = .ok none → s = r) ∧
      ∀ t, DateTime.parse r = .ok (some t) → ∃ u, DateTime.parse s = .ok (some u) ∧
        u.fields = { t.fields with second := 0, nanosecond := 0, offset := 0 }) ∧
    ∀ r r' t t', DateTime.parse r = .ok (some t) → DateTime.parse r' = .ok (some t') →
      t.offset = t'.offset → ∃ s s', labels.display (.datetime r) = .ok s ∧
        labels.display (.datetime r') = .ok s' ∧ (s = s' ↔ t.minute = t'.minute) ∧
        (t.elapsed ≤ t'.elapsed → s ≤ s') := by
  constructor
  · intro r hpanic
    rcases hr : DateTime.parse r with a | _ | t
    · exact absurd hr (hpanic a)
    · have hself := labels.display_of_parse_none hr
      refine ⟨r, hself, hself, fun _ => rfl, fun t ht => ?_⟩
      cases ht
    · obtain ⟨u, hu, hfields⟩ := t.parse_display
      have hminute : u.minute = t.minute :=
        congrArg (fun f : DateTime.Fields => [f.year, f.month, f.day, f.hour, f.minute]) hfields
      refine ⟨_, labels.display_of_parse_some hr, ?_, fun h => ?_, fun t' ht' => ?_⟩
      · rw [labels.display_of_parse_some hu, DateTime.display_congr hminute]
      · cases h
      · cases ht'
        exact ⟨u, hu, hfields⟩
  · intro r r' t t' hr hr' hoffset
    refine ⟨_, _, labels.display_of_parse_some hr, labels.display_of_parse_some hr', ?_, fun hle => ?_⟩
    · rw [String.ofList_inj, DateTime.display_eq_iff]
    · rw [← String.not_lt, String.lt_iff, String.toList_ofList, String.toList_ofList,
        DateTime.display_lt_iff]
      intro hlt
      exact absurd (DateTime.elapsed_lt_of_minute_lt hoffset.symm hlt) (not_lt.2 hle)

/-- The last second of a leap day and the minute behind it, in two spellings of one offset; and a text
that is no date-time. -/
theorem display_normal_leapDay :
    ∃ t t' s s', DateTime.parse " 2024-2-29t23:59:59.9+0130" = .ok (some t) ∧
      DateTime.parse "2024-3-1 0:0+1:30" = .ok (some t') ∧ t.offset = t'.offset ∧
      t.elapsed ≤ t'.elapsed ∧ display {} (.datetime " 2024-2-29t23:59:59.9+0130") = .ok s ∧
      display {} (.datetime "2024-3-1 0:0+1:30") = .ok s' ∧ s ≠ s' ∧ s ≤ s' ∧
      (∀ a, DateTime.parse "2024-02-30" ≠ .error a) ∧
      display {} (.datetime "2024-02-30") = .ok "2024-02-30" := by
  obtain ⟨t, t', ht, ht', hoffset, hminute, hinstant⟩ :
      ∃ t t', DateTime.parse " 2024-2-29t23:59:59.9+0130" = .ok (some t) ∧
        DateTime.parse "2024-3-1 0:0+1:30" = .ok (some t') ∧ t.offset = t'.offset ∧
        t.minute ≠ t'.minute ∧ t.instant ≤ t'.instant :=
    ⟨_, _, rfl, rfl, rfl, by decide +kernel, by decide +kernel⟩
  rw [t.instant_eq_elapsed, t'.instant_eq_elapsed] at hinstant
  have hnone : DateTime.parse "2024-02-30" = .ok none := rfl
  have hpanic : ∀ a, DateTime.parse "2024-02-30" ≠ .error a := by simp [hnone]
  obtain ⟨s, s', hs, hs', heq, hle⟩ := (display_normal {}).2 _ _ t t' ht ht' hoffset
  obtain ⟨u, hu, -, hself, -⟩ := (display_normal {}).1 "2024-02-30" hpanic
  rw [hself hnone] at hu
  exact ⟨t, t', s, s', ht, ht', hoffset, hinstant, hs, hs', mt heq.1 hminute, hle hinstant, hpanic, hu⟩

end Labels

end FormPress
