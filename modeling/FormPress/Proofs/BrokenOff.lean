import FormPress.Proofs.Bytewise
import FormPress.Proofs.Infallible
/-!
# Texts that break the reading off

The reading of a date-time breaks off on one class of texts: behind a date, four bytes follow the last
sign, with no colon among them and the middle of them inside a character (`DateTime.BreaksOff`). On every
other text it comes to a date-time or to none, and so it does when it is done by bytes: no other slice and
no number can go wrong. A comparison breaks off only where it reads such a text
(`DateTime.breaksOff_iff`).
-/
namespace FormPress

/-- Four bytes without a colon, of which the second does not end a character. -/
structure Offset.Uncuttable (digits : List Char) : Prop where
  noColon : ':' ∉ digits
  fourBytes : Text.byteLength digits = 4
  middle : ∀ before after, digits = before ++ after → Text.byteLength before ≠ 2

/-- Trimmed, the text is a date, the first mark of time, and a clock whose last sign is followed by four
bytes that cannot be cut in two. No `Z` is at its end. -/
def DateTime.BreaksOff (s : String) : Prop :=
  ∃ date mark clock sign digits,
    Text.trim s.toList = date ++ mark :: (clock ++ sign :: digits) ∧
    (∀ c ∈ date, ¬ (c = 'T' ∨ c = 't' ∨ c = ' ')) ∧ (mark = 'T' ∨ mark = 't' ∨ mark = ' ') ∧
    (∃ day, Date.parse? date = some day) ∧
    (∀ c ∈ (clock ++ sign :: digits).getLast?, c ≠ 'Z' ∧ c ≠ 'z') ∧
    (sign = '+' ∨ sign = '-') ∧ (∀ c ∈ digits, ¬ (c = '+' ∨ c = '-')) ∧
    Offset.Uncuttable digits

/-! ## Offsets -/

theorem Offset.cutHours_error_iff {cs : List Char} {a : Abort} :
    cutHours cs = .error a ↔ Uncuttable cs := by
  have heq := Text.cutFirst_eq (· == ':') cs
  unfold cutHours
  revert heq
  rcases Text.cutFirst (· == ':') cs with ⟨hours, _ | minutes⟩
  · rintro ⟨rfl, hcolon⟩
    have hnot : ':' ∉ cs := by
      intro hmem
      have := hcolon ':' hmem
      simp at this
    by_cases hlen : Text.byteLength cs = 4
    · simp only [hlen, if_true]
      cases hcut : Text.cutBytes 2 cs with
      | none => exact ⟨fun _ => ⟨hnot, hlen, Text.cutBytes_eq_none_iff.1 hcut⟩, fun _ => rfl⟩
      | some parts =>
        obtain ⟨hcs, htwo⟩ := Text.cutBytes_eq_some_iff.1 hcut
        constructor
        · intro h
          cases h
        · intro h
          exact absurd htwo (h.middle _ _ hcs)
    · simp only [hlen, if_false]
      constructor
      · intro h
        cases h
      · intro h
        exact absurd h.fourBytes hlen
  · rintro ⟨sep, hsep, rfl, -⟩
    obtain rfl : sep = ':' := eq_of_beq hsep
    constructor
    · intro h
      cases h
    · intro h
      exact absurd (by simp) h.noColon

theorem Offset.read_error_iff {negative : Bool} {cs : List Char} {a : Abort} :
    read negative cs = .error a ↔ Uncuttable cs := by
  rw [← cutHours_error_iff (a := a), read, bind_eq_error_iff]
  constructor
  · rintro (h | ⟨⟨hours, minutes⟩, -, h⟩)
    · exact h
    · dsimp only at h
      split at h <;> cases h
  · exact .inl

/-! ## Date-times -/

namespace DateTime

theorem cutOffset_error_iff {cs : List Char} {a : Abort} :
    cutOffset cs = .error a ↔
      (∀ c ∈ cs.getLast?, c ≠ 'Z' ∧ c ≠ 'z') ∧ ∃ clock sign digits, cs = clock ++ sign :: digits ∧
        (sign = '+' ∨ sign = '-') ∧ (∀ c ∈ digits, ¬ (c = '+' ∨ c = '-')) ∧
        Offset.Uncuttable digits := by
  by_cases hlast : ∀ c ∈ cs.getLast?, c ≠ 'Z' ∧ c ≠ 'z'
  · rw [cutOffset_eq_cutLast hlast]
    constructor
    · intro h
      refine ⟨hlast, ?_⟩
      have heq := Text.cutLast_eq (fun c => c == '+' || c == '-') cs
      split at h
      · cases h
      · rename_i clock sign digits hcut
        rw [hcut] at heq
        obtain ⟨hsign, hcs, hdigits⟩ := heq
        rcases bind_eq_error_iff.1 h with h | ⟨_, -, h⟩
        · exact ⟨clock, sign, digits, hcs, by simpa using hsign, by simpa using hdigits,
            Offset.read_error_iff.1 h⟩
        · cases h
    · rintro ⟨-, clock, sign, digits, rfl, hsign, hdigits, huncut⟩
      have hcut : Text.cutLast (fun c => c == '+' || c == '-') (clock ++ sign :: digits) =
          some (clock, sign, digits) :=
        Text.cutLast_append (by simpa using hsign) (by simpa using hdigits)
      rw [hcut]
      exact bind_eq_error_iff.2 (.inl (Offset.read_error_iff.2 huncut))
  · obtain ⟨z, hz, hutc⟩ := exists_utcMark hlast
    rw [cutOffset_of_utcMark hz hutc]
    constructor
    · intro h
      cases h
    · rintro ⟨h, -⟩
      exact absurd h hlast

theorem readTime_error_iff {date : Date} {cs : List Char} {a : Abort} :
    readTime date cs = .error a ↔ cutOffset cs = .error a := by
  rw [readTime, bind_eq_error_iff]
  constructor
  · rintro (h | ⟨cut, -, h⟩)
    · exact h
    · cases cut <;> cases h
  · exact .inl

theorem parse_error_iff {s : String} {a : Abort} : parse s = .error a ↔ BreaksOff s := by
  have heq := Text.cutFirst_eq isTimeMark (Text.trim s.toList)
  unfold parse read
  constructor
  · intro h
    split at h
    · cases h
    · rename_i date time hcut
      rw [hcut] at heq
      obtain ⟨mark, hmark, hs, hdate⟩ := heq
      cases hday : Date.parse? date with
      | none =>
        rw [hday] at h
        cases h
      | some day =>
        rw [hday] at h
        obtain ⟨hlast, clock, sign, digits, rfl, hsign, hdigits, huncut⟩ :=
          cutOffset_error_iff.1 (readTime_error_iff.1 h)
        refine ⟨date, mark, clock, sign, digits, hs, ?_, isTimeMark_iff.1 hmark, ⟨day, hday⟩, hlast,
          hsign, hdigits, huncut⟩
        intro c hc hother
        rw [← isTimeMark_iff, hdate c hc] at hother
        cases hother
  · rintro ⟨date, mark, clock, sign, digits, hs, hdate, hmark, ⟨day, hday⟩, hlast, hsign, hdigits,
      huncut⟩
    have hbefore : ∀ c ∈ date, isTimeMark c = false := by
      intro c hc
      rw [← Bool.not_eq_true, isTimeMark_iff]
      exact hdate c hc
    rw [hs, Text.cutFirst_append hbefore (isTimeMark_iff.2 hmark)]
    simp only [hday]
    exact readTime_error_iff.2 (cutOffset_error_iff.2
      ⟨hlast, clock, sign, digits, rfl, hsign, hdigits, huncut⟩)

end DateTime

/-! ## Comparisons -/

theorem DateTime.operand_abort_iff {written : String} {a : Abort} :
    operand written = .error (.abort a) ↔ BreaksOff written := by
  rw [← parse_error_iff (a := a), operand]
  rcases parse written with b | _ | t <;> simp

theorem Operator.betweenAlike_abort {op : Operator} {left right : Value} {a : Abort}
    (hkind : left.kind = right.kind) (h : op.betweenAlike left right = .error (.abort a)) :
    ∃ l r, left = .datetime l ∧ right = .datetime r := by
  by_cases hdatetime : left.kind = .datetime
  · cases left <;> cases hdatetime
    cases right <;> cases hkind
    exact ⟨_, _, rfl, rfl⟩
  · exfalso
    by_cases hnumber : left.kind = .number
    · obtain ⟨b, hb⟩ := op.betweenAlike_number hnumber (hkind ▸ hnumber)
      rw [hb] at h
      cases h
    · rw [betweenAlike_unordered op hnumber hdatetime] at h
      split at h <;> cases h

/-- A comparison reads its left side first, and the right side only if the left side is a date-time. -/
theorem Operator.between_abort_iff {op : Operator} {left : Option Value} {right : Value} {a : Abort} :
    op.between left right = .error (.abort a) ↔
      ∃ l r, left = some (.datetime l) ∧ right = .datetime r ∧
        (DateTime.BreaksOff l ∨
          (∃ t, DateTime.parse l = .ok (some t)) ∧ DateTime.BreaksOff r) := by
  constructor
  · intro h
    unfold between at h
    cases left with
    | none => cases h
    | some left =>
      by_cases hkind : left.kind = right.kind
      · simp only [hkind, if_true] at h
        obtain ⟨l, r, rfl, rfl⟩ := betweenAlike_abort hkind h
        refine ⟨l, r, rfl, rfl, ?_⟩
        rcases bind_eq_error_iff.1 h with h | ⟨t, ht, h⟩
        · exact .inl (DateTime.operand_abort_iff.1 h)
        · rcases bind_eq_error_iff.1 h with h | ⟨_, -, h⟩
          · exact .inr ⟨⟨t, DateTime.operand_ok_iff.1 ht⟩, DateTime.operand_abort_iff.1 h⟩
          · cases h
      · simp only [hkind, if_false] at h
        cases h
  · rintro ⟨l, r, rfl, rfl, hl | ⟨⟨t, ht⟩, hr⟩⟩
    · exact bind_eq_error_iff.2 (.inl (DateTime.operand_abort_iff.2 hl))
    · refine bind_eq_error_iff.2 (.inr ⟨t, DateTime.operand_ok_iff.2 ht, ?_⟩)
      exact bind_eq_error_iff.2 (.inl (DateTime.operand_abort_iff.2 hr))

/-- **One class of texts breaks the reading off.** Reading a text breaks off if and only if the text is of
that class; done by bytes it has then the one fault, and else none, and comes to the same. A comparison
breaks off if and only if both sides are date-times, and the left one is of the class, or it is read as a
date-time and the right one is. -/
theorem DateTime.breaksOff_iff :
    (∀ s, (∃ a, parse s = .error a) ↔ BreaksOff s) ∧
    (∀ s fault, Bytewise.parse s = .error fault ↔ fault = .middle ∧ BreaksOff s) ∧
    (∀ s t, Bytewise.parse s = .ok t ↔ parse s = .ok t) ∧
    ∀ (op : Operator) left right, (∃ a, op.between left right = .error (.abort a)) ↔
      ∃ l r, left = some (.datetime l) ∧ right = .datetime r ∧
        (BreaksOff l ∨ (∃ t, parse l = .ok (some t)) ∧ BreaksOff r) := by
  refine ⟨fun s => ?_, fun s fault => ?_, fun s t => ?_, fun op left right => ?_⟩
  · simp only [parse_error_iff, exists_const_iff]
    exact ⟨And.right, fun h => ⟨⟨.offsetInsideCharacter⟩, h⟩⟩
  · have hbytes : Bytewise.parse s = Bytewise.ofAbort (parse s) := Bytewise.read_eq s.toList
    rw [hbytes]
    cases hparse : parse s with
    | error a => simp [parse_error_iff.1 hparse, eq_comm]
    | ok t =>
      have hnot : ¬ BreaksOff s := by
        rw [← parse_error_iff (a := .offsetInsideCharacter), hparse]
        intro h
        cases h
      simp [hnot]
  · have hbytes : Bytewise.parse s = Bytewise.ofAbort (parse s) := Bytewise.read_eq s.toList
    rw [hbytes]
    cases parse s <;> simp
  · simp only [Operator.between_abort_iff, exists_const_iff]
    exact ⟨And.right, fun h => ⟨⟨.offsetInsideCharacter⟩, h⟩⟩

/-- The middle of the four bytes behind the sign is inside of the second character. -/
example : DateTime.parse "2024-01-02T10:00+1é1" = .error .offsetInsideCharacter ∧
    Bytewise.parse "2024-01-02T10:00+1é1" = .error .middle := ⟨rfl, rfl⟩

end FormPress
