import FormPress.Proofs.BrokenOff
import FormPress.Proofs.Chronology
import FormPress.Proofs.Reconciliation
/-!
# The six operators together

Two sides of a comparison stand to one another in one of four ways, and each way settles what all six
operators say (`Operator.sides`): they are apart, they stand on one scale, one of them is a date-time that
cannot be read, or their kind has no order. From this it is read off where a comparison fails, and with
which error, and that the operators agree with one another (`Operator.between_coherent`).
-/
namespace FormPress

/-! ## Scales -/

/-- Where a value stands among those of its kind: a number at itself, a date-time at the time that has
elapsed. -/
inductive Value.StandsAt : Value → Int → Prop
  | number (n : Int64) : StandsAt (.number n) n.toInt
  | datetime {written : String} {t : DateTime} (h : DateTime.parse written = .ok (some t)) :
    StandsAt (.datetime written) t.elapsed

/-- A number, or a date-time that can be read. -/
def Value.OnScale (v : Value) : Prop := ∃ place, v.StandsAt place

/-- On one scale every operator is that of whole numbers. -/
theorem Operator.between_of_standsAt {l r : Value} {a b : Int} (hl : l.StandsAt a) (hr : r.StandsAt b)
    (hkind : l.kind = r.kind) (op : Operator) : op.between (some l) r = .ok (op.ofInts a b) := by
  cases hl with
  | number n =>
    cases hr with
    | number k => rw [between, if_pos hkind, ← holds_compare]; rfl
    | datetime _ => cases hkind
  | datetime hl =>
    cases hr with
    | number _ => cases hkind
    | datetime hr => exact between_datetime hl hr op

/-! ## The two sides of a comparison -/

/-- Reading the left text fails, or reading the right one behind it. -/
def DateTime.Unread (l r : String) (x : Failure ConditionError) : Prop :=
  operand l = .error x ∨ ∃ t, operand l = .ok t ∧ operand r = .error x

/-- How the two sides can stand to one another, and what every operator then says. -/
inductive Operator.Sides (left : Option Value) (right : Value) : Prop
  | apart (hkind : ∀ l ∈ left, l.kind ≠ right.kind)
      (h : ∀ op : Operator, op.between left right = .ok (op == .ne))
  | ordered {l : Value} {a b : Int} (hleft : left = some l) (hkind : l.kind = right.kind)
      (ha : l.StandsAt a) (hb : right.StandsAt b)
      (h : ∀ op : Operator, op.between left right = .ok (op.ofInts a b))
  | unread {l r : String} {x : Failure ConditionError} (hleft : left = some (.datetime l))
      (hright : right = .datetime r) (hx : DateTime.Unread l r x)
      (h : ∀ op : Operator, op.between left right = .error x)
  | unordered {l : Value} (hleft : left = some l) (hkind : l.kind = right.kind)
      (hnumber : right.kind ≠ .number) (hdatetime : right.kind ≠ .datetime)
      (h : ∀ op : Operator, op.between left right =
        if op.asksOrder then .error (.error (.unsupported op right.kind))
        else .ok (op.holds (if l = right then .eq else .lt)))

namespace Operator

theorem sides_datetime (l r : String) : Sides (some (.datetime l)) (.datetime r) := by
  have hbetween (op : Operator) : op.between (some (.datetime l)) (.datetime r) =
      DateTime.operand l >>= fun t => DateTime.operand r >>= fun u =>
        .ok (op.holds (compare t.instant u.instant)) := rfl
  cases hl : DateTime.operand l with
  | error x =>
    refine .unread rfl rfl (.inl hl) fun op => ?_
    rw [hbetween, hl, error_bind]
  | ok t =>
    cases hr : DateTime.operand r with
    | error x =>
      refine .unread rfl rfl (.inr ⟨t, hl, hr⟩) fun op => ?_
      rw [hbetween, hl, ok_bind, hr, error_bind]
    | ok u =>
      have ht := Value.StandsAt.datetime (DateTime.operand_ok_iff.1 hl)
      have hu := Value.StandsAt.datetime (DateTime.operand_ok_iff.1 hr)
      exact .ordered rfl rfl ht hu (between_of_standsAt ht hu rfl)

theorem sides (left : Option Value) (right : Value) : Sides left right := by
  cases left with
  | none => exact .apart (by simp) fun op => rfl
  | some l =>
    by_cases hkind : l.kind = right.kind
    · by_cases hnumber : right.kind = .number
      · cases right <;> cases hnumber
        cases l <;> cases hkind
        exact .ordered rfl rfl (.number _) (.number _) (between_of_standsAt (.number _) (.number _) rfl)
      · by_cases hdatetime : right.kind = .datetime
        · cases right <;> cases hdatetime
          cases l <;> cases hkind
          exact sides_datetime _ _
        · refine .unordered rfl hkind hnumber hdatetime fun op => ?_
          rw [between, if_pos hkind, betweenAlike_unordered op (hkind ▸ hnumber) (hkind ▸ hdatetime),
            hkind]
    · exact .apart (by simpa using hkind) fun op => between_of_kind_ne hkind

end Operator

/-! ## Where a comparison fails -/

/-- A comparison fails with an error: its left side is no date-time although its right side is of that
kind, or only its right side is none, or it asks for an order that the kind does not have. -/
inductive Operator.Fails (op : Operator) : Option Value → Value → ConditionError → Prop
  | left {l r : String} (hl : DateTime.parse l = .ok none) :
    Fails op (some (.datetime l)) (.datetime r) (.invalidDateTime l)
  | right {l r : String} {t : DateTime} (hl : DateTime.parse l = .ok (some t))
      (hr : DateTime.parse r = .ok none) :
    Fails op (some (.datetime l)) (.datetime r) (.invalidDateTime r)
  | unordered {l r : Value} (hkind : l.kind = r.kind) (hnumber : r.kind ≠ .number)
      (hdatetime : r.kind ≠ .datetime) (heq : op ≠ .eq) (hne : op ≠ .ne) :
    Fails op (some l) r (.unsupported op r.kind)

namespace Operator

variable {left : Option Value} {right : Value}

theorem asksOrder_iff {op : Operator} : op.asksOrder = true ↔ op ≠ .eq ∧ op ≠ .ne := by
  rw [← Bool.not_eq_false, asksOrder_eq_false_iff, not_or]

theorem between_error_iff {op : Operator} {e : ConditionError} :
    op.between left right = .error (.error e) ↔ op.Fails left right e := by
  constructor
  · intro he
    cases sides left right with
    | apart _ h | ordered _ _ _ _ h =>
      rw [h] at he
      cases he
    | unread hleft hright hx h =>
      rw [h, Except.error.injEq] at he
      subst hleft hright he
      rcases hx with hl | ⟨t, hl, hr⟩
      · obtain ⟨hnone, rfl⟩ := DateTime.operand_error_iff.1 hl
        exact .left hnone
      · obtain ⟨hnone, rfl⟩ := DateTime.operand_error_iff.1 hr
        exact .right (DateTime.operand_ok_iff.1 hl) hnone
    | unordered hleft hkind hnumber hdatetime h =>
      subst hleft
      rw [h] at he
      split at he
      · rename_i hop
        cases he
        exact .unordered hkind hnumber hdatetime (asksOrder_iff.1 hop).1 (asksOrder_iff.1 hop).2
      · cases he
  · intro hfails
    cases hfails with
    | left hl =>
      exact bind_eq_error_iff.2 (.inl (DateTime.operand_error_iff.2 ⟨hl, rfl⟩))
    | right hl hr =>
      refine bind_eq_error_iff.2 (.inr ⟨_, DateTime.operand_ok_iff.2 hl, ?_⟩)
      exact bind_eq_error_iff.2 (.inl (DateTime.operand_error_iff.2 ⟨hr, rfl⟩))
    | unordered hkind hnumber hdatetime heq hne =>
      rw [between, if_pos hkind, betweenAlike_unordered op (hkind ▸ hnumber) (hkind ▸ hdatetime),
        if_pos (asksOrder_iff.2 ⟨heq, hne⟩), hkind]

/-! ## How the operators agree -/

/-- The operator that says the same with the sides exchanged. -/
def swapped : Operator → Operator
  | eq => eq
  | ne => ne
  | lt => gt
  | gt => lt
  | lte => gte
  | gte => lte

theorem ofInts_swapped (op : Operator) (a b : Int) : op.swapped.ofInts b a = op.ofInts a b := by
  cases op <;> simp [swapped, ofInts, eq_comm]

/-- `ne` denies what `eq` says, and fails where `eq` fails. -/
theorem between_ne (left : Option Value) (right : Value) :
    ne.between left right = (eq.between left right).map not := by
  cases sides left right with
  | apart _ h => rw [h, h]; rfl
  | ordered _ _ _ _ h => rw [h, h]; simp [Except.map, ofInts]
  | unread _ _ _ h => rw [h, h]; rfl
  | unordered _ _ _ _ h => rw [h, h]; rfl

/-- Where an order is strict or the sides are equal, the weak order says so. -/
theorem between_weak {strict weak : Operator} (h : strict = .lt ∧ weak = .lte ∨ strict = .gt ∧ weak = .gte)
    {x y : Bool} (hstrict : strict.between left right = .ok x) (heq : eq.between left right = .ok y) :
    weak.between left right = .ok (x || y) := by
  cases sides left right with
  | apart _ hall =>
    rw [hall, Except.ok.injEq] at hstrict heq
    subst hstrict heq
    rw [hall]
    rcases h with ⟨rfl, rfl⟩ | ⟨rfl, rfl⟩ <;> rfl
  | ordered _ _ _ _ hall =>
    rw [hall, Except.ok.injEq] at hstrict heq
    subst hstrict heq
    rw [hall]
    rcases h with ⟨rfl, rfl⟩ | ⟨rfl, rfl⟩
    · simp [ofInts, le_iff_lt_or_eq]
    · simp [ofInts, le_iff_lt_or_eq, eq_comm]
  | unread _ _ _ hall =>
    rw [hall] at heq
    cases heq
  | unordered _ _ _ _ hall =>
    rw [hall] at hstrict
    rcases h with ⟨rfl, rfl⟩ | ⟨rfl, rfl⟩ <;> cases hstrict

/-- Exactly one of `lt`, `eq` and `gt` holds between two places. -/
theorem existsUnique_ofInts (a b : Int) :
    ∃! op : Operator, op ∈ [lt, eq, gt] ∧ op.ofInts a b = true := by
  rcases lt_trichotomy a b with h | h | h
  · refine ⟨lt, by simp [ofInts, h], ?_⟩
    rintro op ⟨hop, hholds⟩
    cases op <;> simp [ofInts, h.ne, h.not_gt] at hop hholds ⊢
  · refine ⟨eq, by simp [ofInts, h], ?_⟩
    rintro op ⟨hop, hholds⟩
    cases op <;> simp [ofInts, h] at hop hholds ⊢
  · refine ⟨gt, by simp [ofInts, h], ?_⟩
    rintro op ⟨hop, hholds⟩
    cases op <;> simp [ofInts, h.ne', h.not_gt] at hop hholds ⊢

/-- **The operators are coherent.** A comparison fails exactly where it is said to (`Fails`), and with an
absent value or one of another kind only `ne` holds. `eq` and `ne` fail alike or are opposites, and a weak
order is the strict one or `eq`. On one scale every operator has a verdict, exactly one of `lt`, `eq` and
`gt` holds, exchanging the sides exchanges `lt` with `gt` and `lte` with `gte`, and `lte` is transitive. -/
theorem between_coherent (left : Option Value) (right : Value) :
    (∀ (op : Operator) e, op.between left right = .error (.error e) ↔ op.Fails left right e) ∧
    ((∀ l ∈ left, l.kind ≠ right.kind) → ∀ op : Operator, op.between left right = .ok (op == .ne)) ∧
    ne.between left right = (eq.between left right).map not ∧
    (∀ x y, lt.between left right = .ok x → eq.between left right = .ok y →
      lte.between left right = .ok (x || y)) ∧
    (∀ x y, gt.between left right = .ok x → eq.between left right = .ok y →
      gte.between left right = .ok (x || y)) ∧
    ∀ l m r : Value, l.OnScale → m.OnScale → r.OnScale → l.kind = m.kind → m.kind = r.kind →
      (∀ op : Operator, ∃ b, op.between (some l) m = .ok b) ∧
      (∃! op : Operator, op ∈ [lt, eq, gt] ∧ op.between (some l) m = .ok true) ∧
      (∀ op : Operator, op.swapped.between (some m) l = op.between (some l) m) ∧
      (lte.between (some l) m = .ok true → lte.between (some m) r = .ok true →
        lte.between (some l) r = .ok true) := by
  refine ⟨fun op e => between_error_iff, ?_, between_ne left right,
    fun x y => between_weak (.inl ⟨rfl, rfl⟩), fun x y => between_weak (.inr ⟨rfl, rfl⟩), ?_⟩
  · intro hkind op
    cases left with
    | none => rfl
    | some l => exact between_of_kind_ne (hkind l rfl)
  · rintro l m r ⟨a, ha⟩ ⟨b, hb⟩ ⟨c, hc⟩ hlm hmr
    have hab := between_of_standsAt ha hb hlm
    have hba := between_of_standsAt hb ha hlm.symm
    have hbc := between_of_standsAt hb hc hmr
    have hac := between_of_standsAt ha hc (hlm.trans hmr)
    simp only [hab, hba, hbc, hac, Except.ok.injEq]
    refine ⟨fun op => ⟨_, rfl⟩, existsUnique_ofInts a b, fun op => ofInts_swapped op a b, ?_⟩
    simp only [ofInts, decide_eq_true_eq]
    exact le_trans

end Operator

/-- Two spellings of the last second of February in a leap year, and the day behind it. -/
theorem coherent_leapDay :
    let l : Value := .datetime "2024-02-29T23:59:59Z"
    let m : Value := .datetime " 2024-3-1 1:59:59.0+0200"
    let r : Value := .datetime "2024-03-01"
    l.OnScale ∧ m.OnScale ∧ r.OnScale ∧ Operator.lte.between (some l) m = .ok true ∧
      Operator.lte.between (some m) r = .ok true ∧ Operator.lte.between (some l) r = .ok true ∧
      (∃! op : Operator, op ∈ [.lt, .eq, .gt] ∧ op.between (some l) m = .ok true) ∧
      Operator.lt.between (some l) (.date "2024-03-01") = .ok false := by
  have hl : (Value.datetime "2024-02-29T23:59:59Z").OnScale := ⟨_, .datetime rfl⟩
  have hm : (Value.datetime " 2024-3-1 1:59:59.0+0200").OnScale := ⟨_, .datetime rfl⟩
  have hr : (Value.datetime "2024-03-01").OnScale := ⟨_, .datetime rfl⟩
  have hdate := Operator.between_coherent (some (.datetime "2024-02-29T23:59:59Z")) (.date "2024-03-01")
  obtain ⟨-, hunique, -, htrans⟩ := hdate.2.2.2.2.2 _ _ _ hl hm hr rfl rfl
  have hlm : Operator.lte.between (some (.datetime "2024-02-29T23:59:59Z"))
      (.datetime " 2024-3-1 1:59:59.0+0200") = .ok true := rfl
  have hmr : Operator.lte.between (some (.datetime " 2024-3-1 1:59:59.0+0200"))
      (.datetime "2024-03-01") = .ok true := rfl
  exact ⟨hl, hm, hr, hlm, hmr, htrans hlm hmr, hunique, hdate.2.1 (by simp [Value.kind]) .lt⟩

end FormPress
