import FormPress.Proofs.Coherence
import FormPress.Proofs.Settled
/-!
# Conjunctions and disjunctions

A conjunction or a disjunction stops at the first member that settles it, so its verdict hangs on the order
of its members. But reordering and repeating them can only exchange a settled answer and a failure, and
never turns an answer round (`Condition.evaluate_reordered`). Where the members have complements, a
conjunction is denied by the disjunction of these, with the same failures, and the other way round
(`Condition.evaluate_complements`).
-/
namespace FormPress

/-! ## Reordered members -/

/-- Two conditions with the same members, as far as their order and repetition go: what passes every member
is the same, two answers are the same, and so are the verdicts if no member fails. A failure, be it an error
or that a date-time breaks the reading off, is that of a member, and the other condition is then settled or
fails at one of its members, too. -/
structure Condition.Interchangeable (data : Data) (c c' : Condition) : Prop where
  pass_iff : c.evaluate data = .ok c.pass ↔ c'.evaluate data = .ok c.pass
  answer_eq : ∀ a b, c.evaluate data = .ok a → c'.evaluate data = .ok b → a = b
  eq_of_decided : (∀ m ∈ c.members, ∃ b, m.evaluate data = .ok b) →
    c.evaluate data = c'.evaluate data
  of_error : ∀ x, c.evaluate data = .error x →
    (∃ m ∈ c.members, m.evaluate data = .error x) ∧
    (c'.evaluate data = .ok (!c.pass) ∨
      ∃ y, c'.evaluate data = .error y ∧ ∃ m ∈ c'.members, m.evaluate data = .error y)

namespace Condition

variable {c c' : Condition} {data : Data}

/-- A condition passes if and only if each of its members does. -/
theorem evaluate_eq_pass_iff :
    c.evaluate data = .ok c.pass ↔ ∀ m ∈ c.members, m.evaluate data = .ok c.pass := by
  rw [evaluate_eq_settle, settle_eq_pass_iff, List.forall_mem_map]

theorem interchangeable (hpass : c.pass = c'.pass) (h : ∀ m, m ∈ c.members ↔ m ∈ c'.members) :
    Interchangeable data c c' := by
  have hiff : c.evaluate data = .ok c.pass ↔ c'.evaluate data = .ok c.pass := by
    rw [evaluate_eq_pass_iff, hpass, evaluate_eq_pass_iff]
    simp only [h]
  -- An answer other than `pass` is the only other one, so two answers cannot differ.
  have hanswer : ∀ a b, c.evaluate data = .ok a → c'.evaluate data = .ok b → a = b := by
    intro a b ha hb
    rw [ha, hb, Except.ok.injEq, Except.ok.injEq] at hiff
    revert hiff
    cases a <;> cases b <;> cases c.pass <;> simp
  constructor
  · exact hiff
  · exact hanswer
  · intro hdecided
    obtain ⟨a, ha⟩ := exists_evaluate_of_decided hdecided
    obtain ⟨b, hb⟩ := exists_evaluate_of_decided fun m hm => hdecided m ((h m).2 hm)
    rw [ha, hb, hanswer a b ha hb]
  · intro x hx
    refine ⟨exists_member_error hx, ?_⟩
    cases hc' : c'.evaluate data with
    | error y => exact .inr ⟨y, rfl, exists_member_error hc'⟩
    | ok b =>
      left
      rw [Except.ok.injEq, Bool.eq_not_iff]
      rintro rfl
      rw [hiff.2 hc'] at hx
      cases hx

/-- **Reordering or repeating members never turns an answer round.** -/
theorem evaluate_reordered {cs cs' : List Comparison} (h : ∀ m, m ∈ cs ↔ m ∈ cs') (data : Data) :
    Interchangeable data (.all cs) (.all cs') ∧ Interchangeable data (.any cs) (.any cs') :=
  ⟨interchangeable rfl h, interchangeable rfl h⟩

end Condition

/-- A name, which has no order, and a comparison that settles a conjunction where it stands before it. -/
def nameAndMembership : List Comparison := [⟨"name", .gt, .text "A"⟩, ⟨"member", .eq, .boolean true⟩]

def visitor : Data := (Data.only "name" (.text "Ada")).insert "member" (.boolean false)

theorem reordered_visitor :
    (∀ m, m ∈ nameAndMembership ↔ m ∈ nameAndMembership.reverse ++ nameAndMembership) ∧
      (Condition.all nameAndMembership).evaluate visitor = .error (.error (.unsupported .gt .text)) ∧
      (Condition.all (nameAndMembership.reverse ++ nameAndMembership)).evaluate visitor = .ok false ∧
      Condition.Interchangeable visitor (.all nameAndMembership)
        (.all (nameAndMembership.reverse ++ nameAndMembership)) := by
  have hmem : ∀ m, m ∈ nameAndMembership ↔ m ∈ nameAndMembership.reverse ++ nameAndMembership := by
    simp
  exact ⟨hmem, rfl, rfl, (Condition.evaluate_reordered hmem visitor).1⟩

/-! ## Complements -/

/-- The operator that says the opposite on one scale. -/
def Operator.complement : Operator → Operator
  | eq => ne
  | ne => eq
  | lt => gte
  | gte => lt
  | gt => lte
  | lte => gt

def Comparison.complement (c : Comparison) : Comparison := { c with operator := c.operator.complement }

/-- The comparison asks for equality, or for an order that its field and its literal have. -/
def Comparison.HasComplement (data : Data) (c : Comparison) : Prop :=
  (c.operator = .eq ∨ c.operator = .ne) ∨
    (c.literal.kind = .number ∨ c.literal.kind = .datetime) ∧
      ∃ v, data.get? c.field = some v ∧ v.kind = c.literal.kind

theorem Operator.ofInts_complement (op : Operator) (a b : Int) :
    op.complement.ofInts a b = !op.ofInts a b := by
  rw [Bool.eq_iff_iff]
  cases op <;> simp [complement, ofInts]

theorem Value.StandsAt.kind {v : Value} {a : Int} (h : v.StandsAt a) :
    v.kind = .number ∨ v.kind = .datetime := by
  cases h with
  | number _ => exact .inl rfl
  | datetime _ => exact .inr rfl

theorem Operator.between_complement_iff {op : Operator} {left : Option Value} {right : Value} :
    op.complement.between left right = (op.between left right).map not ↔
      (op = .eq ∨ op = .ne) ∨ (right.kind = .number ∨ right.kind = .datetime) ∧
        ∃ l, left = some l ∧ l.kind = right.kind := by
  cases sides left right with
  | apart hkind h =>
    have hnot : ¬ ∃ l, left = some l ∧ l.kind = right.kind := fun ⟨l, hl, hk⟩ => hkind l hl hk
    rw [h, h]
    cases op <;> simp [complement, Except.map, hnot]
  | ordered hleft hkind _ hb h =>
    rw [h, h, ofInts_complement]
    exact iff_of_true rfl (.inr ⟨hb.kind, _, hleft, hkind⟩)
  | unread hleft hright _ h =>
    rw [h, h, hright]
    exact iff_of_true rfl (.inr ⟨.inr rfl, _, hleft, rfl⟩)
  | unordered _ _ hnumber hdatetime h =>
    rw [h, h]
    cases op <;> simp [complement, asksOrder, holds, bne, Except.map, hnumber, hdatetime]

/-- A comparison and its complement are opposites, or fail alike, exactly where it has a complement. -/
theorem Comparison.evaluate_complement_iff {data : Data} {c : Comparison} :
    c.complement.evaluate data = (c.evaluate data).map not ↔ c.HasComplement data :=
  Operator.between_complement_iff

/-- **De Morgan's laws.** -/
theorem Condition.evaluate_complements {cs : List Comparison} {data : Data}
    (h : ∀ c ∈ cs, c.HasComplement data) :
    (any (cs.map Comparison.complement)).evaluate data = ((all cs).evaluate data).map not ∧
    (all (cs.map Comparison.complement)).evaluate data = ((any cs).evaluate data).map not := by
  have hverdicts : (cs.map Comparison.complement).map (·.evaluate data) =
      (cs.map (·.evaluate data)).map (·.map not) := by
    rw [List.map_map, List.map_map]
    exact List.map_congr_left fun c hc => Comparison.evaluate_complement_iff.2 (h c hc)
  simp only [evaluate, evaluateAll_eq_settle, evaluateAny_eq_settle, hverdicts]
  exact ⟨settle_map_not true _, settle_map_not false _⟩

/-- Orders of a number and of a date-time that are there, and an equality with a field that is not. -/
def dueSoon : List Comparison :=
  [⟨"amount", .gte, .number (-5)⟩, ⟨"due", .lt, .datetime "tomorrow"⟩, ⟨"paid", .ne, .boolean true⟩]

def reminded : Data := (Data.only "amount" (.number (-5))).insert "due" (.datetime "2024-3-1 8:00")

theorem complements_dueSoon :
    (∀ c ∈ dueSoon, c.HasComplement reminded) ∧
      (Condition.all dueSoon).evaluate reminded = .error (.error (.invalidDateTime "tomorrow")) ∧
      (Condition.any (dueSoon.map Comparison.complement)).evaluate reminded =
        ((Condition.all dueSoon).evaluate reminded).map not := by
  have hcomplement : ∀ c ∈ dueSoon, c.HasComplement reminded := by
    intro c hc
    simp only [dueSoon, List.mem_cons, List.not_mem_nil, or_false] at hc
    rcases hc with rfl | rfl | rfl
    · exact .inr ⟨.inl rfl, _, rfl, rfl⟩
    · exact .inr ⟨.inr rfl, _, rfl, rfl⟩
    · exact .inl (.inr rfl)
  exact ⟨hcomplement, rfl, (Condition.evaluate_complements hcomplement).1⟩

end FormPress
