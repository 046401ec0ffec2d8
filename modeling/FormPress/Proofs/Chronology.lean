import FormPress.Condition
import FormPress.Proofs.Outcome
import Mathlib.Algebra.BigOperators.Intervals
import Mathlib.Tactic.IntervalCases
/-!
# Date-times in the order of time

Days can be counted the long way: year by year, then month by month, then day by day. The closed
formula for the number of a day agrees with that count (`Date.dayNumber_eq_countedDays`), so every
operator compares date-times by the time that has elapsed at them (`Operator.between_chronological`).
-/
namespace FormPress

open Finset

def daysInYear (year : Nat) : Nat := if isLeapYear year then 366 else 365

/-- The days before a date, from the start of year 0: the lengths of the years before its own, of the
months before its own, and the days before it in its month. -/
def Date.countedDays (d : Date) : Nat :=
  ∑ year ∈ range d.year, daysInYear year + ∑ month ∈ Ico 1 d.month, daysInMonth d.year month
    + (d.day - 1)

/-- The nanoseconds from the start of year 0, of universal time, to the date-time. -/
def DateTime.elapsed (t : DateTime) : Int :=
  1000000000 * (86400 * t.date.countedDays
      + (3600 * t.clock.hour + 60 * t.clock.minute + t.clock.second) - t.offset.seconds)
    + t.clock.nanosecond

/-- What an operator says of two whole numbers. -/
def Operator.ofInts (op : Operator) (a b : Int) : Bool :=
  match op with
  | eq => a = b
  | ne => a ≠ b
  | lt => a < b
  | gt => b < a
  | lte => a ≤ b
  | gte => b ≤ a

/-! ## The number of a day -/

namespace Date

/-- A year begins a new period of `n` years exactly where `n` divides it. -/
theorem periods_succ (year : Nat) {n : Nat} (hn : 0 < n) :
    (year + 1 + (n - 1)) / n = (year + (n - 1)) / n + if year % n = 0 then 1 else 0 := by
  obtain ⟨k, rfl⟩ := Nat.exists_eq_add_of_lt hn
  have hdvd : (k + 1) ∣ year + k + 1 ↔ year % (k + 1) = 0 := by
    rw [Nat.add_assoc, Nat.dvd_add_self_right, Nat.dvd_iff_mod_eq_zero]
  simp only [Nat.zero_add, Nat.add_sub_cancel]
  rw [Nat.add_right_comm, Nat.succ_div, if_congr hdvd rfl rfl]

theorem daysBeforeYear_succ (year : Nat) :
    daysBeforeYear (year + 1) = daysBeforeYear year + daysInYear year := by
  have h4 := periods_succ year (show 0 < 4 by decide)
  have h100 := periods_succ year (show 0 < 100 by decide)
  have h400 := periods_succ year (show 0 < 400 by decide)
  have hle : (year + 99) / 100 ≤ 365 * year + (year + 3) / 4 := by omega
  have hcentury : year % 100 = 0 → year % 4 = 0 := by omega
  have hfourth : year % 400 = 0 → year % 100 = 0 := by omega
  simp only [Nat.reduceSub] at h4 h100 h400
  simp only [daysBeforeYear, daysInYear, isLeapYear, h4, h100, h400]
  by_cases ha : year % 4 = 0 <;> by_cases hb : year % 100 = 0 <;> by_cases hc : year % 400 = 0 <;>
    simp [ha, hb, hc] at hcentury hfourth ⊢ <;> omega

theorem daysBeforeYear_eq_sum (year : Nat) :
    daysBeforeYear year = ∑ y ∈ range year, daysInYear y := by
  induction year with
  | zero => rfl
  | succ year ih => rw [daysBeforeYear_succ, ih, sum_range_succ]

theorem daysBeforeMonth_succ {year month : Nat} (hpos : 1 ≤ month) (hlt : month < 12) :
    daysBeforeMonth year (month + 1) = daysBeforeMonth year month + daysInMonth year month := by
  unfold daysBeforeMonth daysInMonth
  interval_cases month <;> cases isLeapYear year <;> rfl

theorem daysBeforeMonth_eq_sum {year month : Nat} (hpos : 1 ≤ month) (hle : month ≤ 12) :
    daysBeforeMonth year month = ∑ m ∈ Ico 1 month, daysInMonth year m := by
  induction month, hpos using Nat.le_induction with
  | base => simp [daysBeforeMonth, commonDaysBeforeMonth]
  | succ month hpos ih =>
    rw [daysBeforeMonth_succ hpos (by omega), ih (by omega), sum_Ico_succ_top hpos]

/-- The closed formula counts the days. -/
theorem dayNumber_eq_countedDays (d : Date) : d.dayNumber = d.countedDays := by
  rw [dayNumber, daysBeforeYear_eq_sum, daysBeforeMonth_eq_sum d.month_pos d.month_le, countedDays]

end Date

theorem DateTime.instant_eq_elapsed (t : DateTime) : t.instant = t.elapsed := by
  rw [instant, utcSeconds, Date.dayNumber_eq_countedDays, elapsed, Clock.seconds]
  push_cast
  rfl

/-! ## Operators on date-times -/

theorem Operator.holds_compare (op : Operator) (a b : Int) : op.holds (compare a b) = op.ofInts a b := by
  rcases lt_trichotomy a b with h | h | h
  · rw [compare_lt_iff_lt.2 h]
    cases op <;> simp [holds, ofInts, h, h.ne, h.le, h.not_gt]
  · rw [compare_eq_iff_eq.2 h]
    cases op <;> simp [holds, ofInts, h]
  · rw [compare_gt_iff_gt.2 h]
    cases op <;> simp [holds, ofInts, h, h.ne', h.le, h.not_gt]

/-- Date-times are compared by the time that has elapsed at them. -/
theorem Operator.between_datetime {l r : String} {t u : DateTime}
    (hl : DateTime.parse l = .ok (some t)) (hr : DateTime.parse r = .ok (some u)) (op : Operator) :
    op.between (some (.datetime l)) (.datetime r) = .ok (op.ofInts t.elapsed u.elapsed) := by
  rw [← holds_compare, ← DateTime.instant_eq_elapsed, ← DateTime.instant_eq_elapsed]
  simp [between, betweenAlike, Value.kind, DateTime.operand_ok_iff.2 hl,
    DateTime.operand_ok_iff.2 hr]

/-- The operator holds between the date-times of two texts. -/
def Operator.HoldsBetween (op : Operator) (l r : String) : Prop :=
  op.between (some (.datetime l)) (.datetime r) = .ok true

/-- **Date-times stand in the order of time.** On texts that are date-times every operator is that of
whole numbers on the time elapsed, so `lte` is a total preorder of them, and `eq` holds between two
spellings of one moment and no others. -/
theorem Operator.between_chronological {l m r : String} {t u v : DateTime}
    (hl : DateTime.parse l = .ok (some t)) (hm : DateTime.parse m = .ok (some u))
    (hr : DateTime.parse r = .ok (some v)) :
    (∀ op : Operator, op.between (some (.datetime l)) (.datetime m) =
      .ok (op.ofInts t.elapsed u.elapsed)) ∧
    (lte.HoldsBetween l m ∨ lte.HoldsBetween m l) ∧
    (lte.HoldsBetween l m → lte.HoldsBetween m r → lte.HoldsBetween l r) ∧
    (eq.HoldsBetween l m ↔ lte.HoldsBetween l m ∧ lte.HoldsBetween m l) ∧
    (eq.HoldsBetween l m ↔ t.elapsed = u.elapsed) := by
  refine ⟨between_datetime hl hm, ?_⟩
  simp only [HoldsBetween, between_datetime hl hm, between_datetime hm hl, between_datetime hm hr,
    between_datetime hl hr, ofInts, Except.ok.injEq, decide_eq_true_eq]
  exact ⟨le_total _ _, le_trans, le_antisymm_iff, trivial⟩

/-- A moment before year 0, one after year 9999, and a leap day between them. -/
theorem between_chronological_extremes :
    ∃ t u v, DateTime.parse "0-1-1T0:00+25:59" = .ok (some t) ∧
      DateTime.parse " 9999-12-31 23:59:59.5-2559" = .ok (some u) ∧
      DateTime.parse "2024-02-29" = .ok (some v) ∧ t.elapsed < 0 ∧
      (∀ op : Operator, op.between (some (.datetime "0-1-1T0:00+25:59"))
        (.datetime " 9999-12-31 23:59:59.5-2559") = .ok (op.ofInts t.elapsed u.elapsed)) := by
  refine ⟨_, _, _, rfl, rfl, rfl, by decide, ?_⟩
  exact (Operator.between_chronological (r := "2024-02-29") rfl rfl rfl).1

end FormPress
