import FormPress.Value
/-!
# Conditions

A condition compares fields of a row with literals. It is one comparison, or a flat conjunction or
disjunction of comparisons.

A comparison is decided in three steps. An absent field, or one of another kind than the literal, is
incomparable: only `ne` holds. Date-times and numbers are ordered, and every operator is defined on
them. The other kinds know equality alone, and an ordering operator is an error.

A conjunction or disjunction stops at the first member that decides it, and at the first error.

| here | there |
| --- | --- |
| `Operator.name`, `Operator.asksOrder` | `Operator::as_str`, `Operator::is_ordering` |
| `Operator.holds` | `apply_ordering` |
| `Operator.between` | `compare_values` |
| `DateTime.operand` | `parse_operand` |
| `Comparison`, `Comparison.evaluate` | `Binary`, `evaluate_binary` |
| `Condition` | `Expression`: `single` is `Binary`, `all` is `And`, `any` is `Or` |
| `Condition.evaluate`, `evaluateAll`, `evaluateAny` | `evaluate` and its two loops |
| `ConditionError` | `EvalError`: `UnsupportedOperator`, `InvalidDateTime` |
-/
namespace FormPress

/-! ## Syntax -/

inductive Operator
  | eq | ne | lt | gt | lte | gte
  deriving DecidableEq

namespace Operator

def all : List Operator := [eq, ne, lt, gt, lte, gte]

def name : Operator → String
  | eq => "eq"
  | ne => "ne"
  | lt => "lt"
  | gt => "gt"
  | lte => "lte"
  | gte => "gte"

def ofName? (s : String) : Option Operator := all.find? fun op => op.name == s

theorem ofName?_name (op : Operator) : ofName? op.name = some op := by
  cases op <;> decide

/-- Whether the operator asks how two values are ordered, not only whether they are equal. -/
def asksOrder : Operator → Bool
  | eq | ne => false
  | lt | gt | lte | gte => true

/-- Whether the operator holds between values that stand in the given order. -/
def holds : Operator → Ordering → Bool
  | eq, o => o == .eq
  | ne, o => o != .eq
  | lt, o => o == .lt
  | gt, o => o == .gt
  | lte, o => o != .gt
  | gte, o => o != .lt

end Operator

/-- A field against a literal. -/
structure Comparison where
  field : String
  operator : Operator
  literal : Value
  deriving DecidableEq

/-- `all []` always holds, `any []` never does. -/
inductive Condition
  | single (c : Comparison)
  | all (members : List Comparison)
  | any (members : List Comparison)
  deriving DecidableEq

/-! ## Verdicts -/

/-- Why something has no result: reading a text broke off, or it failed in a way of its own. -/
inductive Failure (ε : Type)
  | abort (a : Abort)
  | error (e : ε)
  deriving DecidableEq

/-- Why a comparison cannot be decided. -/
inductive ConditionError
  /-- An ordering operator on a kind that knows equality alone. -/
  | unsupported (operator : Operator) (kind : Kind)
  /-- An operand that is no date-time, as it was written. -/
  | invalidDateTime (written : String)
  deriving DecidableEq

def ConditionError.message : ConditionError → String
  | unsupported operator kind =>
    "operator '" ++ operator.name ++ "' not defined for " ++ kind.name ++ "; " ++ kind.name
      ++ " supports only eq and ne"
  | invalidDateTime written => "invalid datetime value '" ++ written ++ "'"

abbrev Verdict := Except (Failure ConditionError) Bool

/-- One side of a comparison of date-times. -/
def DateTime.operand (written : String) : Except (Failure ConditionError) DateTime :=
  match DateTime.parse written with
  | .error a => .error (.abort a)
  | .ok none => .error (.error (.invalidDateTime written))
  | .ok (some t) => .ok t

theorem DateTime.operand_ok_iff {written : String} {t : DateTime} :
    operand written = .ok t ↔ parse written = .ok (some t) := by
  rw [operand]
  rcases parse written with b | _ | t <;> simp

theorem DateTime.operand_error_iff {written : String} {e : ConditionError} :
    operand written = .error (.error e) ↔
      parse written = .ok none ∧ e = .invalidDateTime written := by
  rw [operand]
  rcases parse written with b | _ | t <;> simp [eq_comm]

namespace Operator

/-- The verdict on two values of one kind. -/
def betweenAlike (op : Operator) (left right : Value) : Verdict :=
  match left, right with
  | .datetime l, .datetime r => do
    let l ← DateTime.operand l
    let r ← DateTime.operand r
    return op.holds (compare l.instant r.instant)
  | .number l, .number r => .ok (op.holds (compare l.toInt r.toInt))
  | _, _ =>
    if op.asksOrder then .error (.error (.unsupported op left.kind))
    else .ok (op.holds (if left = right then .eq else .lt))

/-- The verdict on what a field holds, if anything, and a literal. -/
def between (op : Operator) (left : Option Value) (right : Value) : Verdict :=
  match left with
  | none => .ok (op == .ne)
  | some left => if left.kind = right.kind then op.betweenAlike left right else .ok (op == .ne)

end Operator

def Comparison.evaluate (c : Comparison) (data : Data) : Verdict :=
  c.operator.between (data.get? c.field) c.literal

/-- Whether every member holds, up to the first that does not or fails. -/
def evaluateAll (data : Data) : List Comparison → Verdict
  | [] => .ok true
  | c :: cs => do if ← c.evaluate data then evaluateAll data cs else return false

/-- Whether a member holds, up to the first that does or fails. -/
def evaluateAny (data : Data) : List Comparison → Verdict
  | [] => .ok false
  | c :: cs => do if ← c.evaluate data then return true else evaluateAny data cs

def Condition.evaluate (c : Condition) (data : Data) : Verdict :=
  match c with
  | .single c => c.evaluate data
  | .all members => evaluateAll data members
  | .any members => evaluateAny data members

end FormPress
