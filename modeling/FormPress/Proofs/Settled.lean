import FormPress.Proofs.Outcome
/-!
# Verdicts that settle a condition

A conjunction goes through its members as long as they hold, a disjunction as long as they do not. Both come
out as the first member that comes out otherwise (`settle`), so what a condition says or how it fails is
always what one of its members says or how that one fails.
-/
namespace FormPress

/-- The first verdict that is not `pass`; where all are, it is `pass` that remains. -/
def settle (pass : Bool) (verdicts : List Verdict) : Verdict :=
  (verdicts.find? (· ≠ .ok pass)).getD (.ok pass)

theorem settle_cons_pass (pass : Bool) (vs : List Verdict) :
    settle pass (.ok pass :: vs) = settle pass vs := by
  simp [settle]

theorem settle_cons_of_ne {pass : Bool} {v : Verdict} (h : v ≠ .ok pass) (vs : List Verdict) :
    settle pass (v :: vs) = v := by
  simp [settle, h]

theorem settle_eq_pass_iff {pass : Bool} {vs : List Verdict} :
    settle pass vs = .ok pass ↔ ∀ v ∈ vs, v = .ok pass := by
  induction vs with
  | nil => simp [settle]
  | cons v vs ih =>
    by_cases hv : v = .ok pass
    · rw [hv, settle_cons_pass, ih]
      simp
    · simp [settle_cons_of_ne hv, hv]

theorem settle_mem {pass : Bool} {vs : List Verdict} (h : settle pass vs ≠ .ok pass) :
    settle pass vs ∈ vs := by
  induction vs with
  | nil => exact absurd rfl h
  | cons v vs ih =>
    by_cases hv : v = .ok pass
    · rw [hv, settle_cons_pass] at h ⊢
      exact List.mem_cons_of_mem _ (ih h)
    · rw [settle_cons_of_ne hv]
      exact List.mem_cons_self

theorem settle_error_mem {pass : Bool} {vs : List Verdict} {x : Failure ConditionError}
    (h : settle pass vs = .error x) : .error x ∈ vs := by
  rw [← h]
  apply settle_mem
  rw [h]
  exact nofun

/-- Denying every verdict denies what settles them, if what passes is exchanged as well. -/
theorem settle_map_not (pass : Bool) (vs : List Verdict) :
    settle (!pass) (vs.map (·.map not)) = (settle pass vs).map not := by
  induction vs with
  | nil => rfl
  | cons v vs ih =>
    rw [List.map_cons]
    by_cases hv : v = .ok pass
    · rw [hv, settle_cons_pass, ← ih]
      exact settle_cons_pass _ _
    · have hnot : v.map not ≠ .ok (!pass) := by
        rcases v with x | b
        · exact nofun
        · simpa [Except.map] using hv
      rw [settle_cons_of_ne hv, settle_cons_of_ne hnot]

/-! ## Conditions -/

/-- The comparisons that a condition is made of. -/
def Condition.members : Condition → List Comparison
  | single c => [c]
  | all cs | any cs => cs

/-- What the members of a condition may come out as without settling it. -/
def Condition.pass : Condition → Bool
  | single _ | all _ => true
  | any _ => false

theorem evaluateAll_eq_settle (data : Data) (cs : List Comparison) :
    evaluateAll data cs = settle true (cs.map (·.evaluate data)) := by
  induction cs with
  | nil => rfl
  | cons c cs ih =>
    rw [evaluateAll, ih, List.map_cons]
    rcases c.evaluate data with x | _ | _ <;> simp [settle]

theorem evaluateAny_eq_settle (data : Data) (cs : List Comparison) :
    evaluateAny data cs = settle false (cs.map (·.evaluate data)) := by
  induction cs with
  | nil => rfl
  | cons c cs ih =>
    rw [evaluateAny, ih, List.map_cons]
    rcases c.evaluate data with x | _ | _ <;> simp [settle]

namespace Condition

variable {data data' : Data}

/-- A condition comes out as the first of its members that settles it. -/
theorem evaluate_eq_settle (c : Condition) (data : Data) :
    c.evaluate data = settle c.pass (c.members.map (·.evaluate data)) := by
  cases c with
  | all cs => exact evaluateAll_eq_settle data cs
  | any cs => exact evaluateAny_eq_settle data cs
  | single c =>
    -- Settling nothing, the one member is `true`, and so is the condition.
    show c.evaluate data = settle true [c.evaluate data]
    by_cases hc : c.evaluate data = .ok true
    · rw [hc]; rfl
    · rw [settle_cons_of_ne hc]

/-- A failure of a condition is that of one of its members. -/
theorem exists_member_error {c : Condition} {x : Failure ConditionError}
    (h : c.evaluate data = .error x) : ∃ m ∈ c.members, m.evaluate data = .error x := by
  rw [evaluate_eq_settle] at h
  exact List.mem_map.1 (settle_error_mem h)

/-- A condition has a verdict if all of its members have one. -/
theorem exists_evaluate_of_decided {c : Condition}
    (h : ∀ m ∈ c.members, ∃ b, m.evaluate data = .ok b) :
    ∃ b, c.evaluate data = .ok b := by
  cases hc : c.evaluate data with
  | ok b => exact ⟨b, rfl⟩
  | error x =>
    obtain ⟨m, hm, hx⟩ := exists_member_error hc
    obtain ⟨b, hb⟩ := h m hm
    rw [hb] at hx
    cases hx

/-- Two conditions of one form come out alike if their members do, one by one. -/
theorem evaluate_of_forall₂ {c c' : Condition} (hpass : c.pass = c'.pass)
    (h : List.Forall₂ (fun m m' => m.evaluate data = m'.evaluate data') c.members c'.members) :
    c.evaluate data = c'.evaluate data' := by
  have hverdicts : c.members.map (·.evaluate data) = c'.members.map (·.evaluate data') := by
    rwa [← List.forall₂_eq_eq_eq, List.forall₂_map_left_iff, List.forall₂_map_right_iff]
  rw [evaluate_eq_settle, evaluate_eq_settle, hpass, hverdicts]

end Condition

end FormPress
