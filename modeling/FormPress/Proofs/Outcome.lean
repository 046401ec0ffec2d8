import FormPress.Document.Render
import Mathlib.Data.List.Forall2
/-!
# Outcomes

What the outcome of a sequence of steps says about the outcomes of its steps, and how two
computations that take their steps side by side end alike (`Alike`).
-/
namespace FormPress

variable {ε α β γ δ : Type}

@[simp] theorem pure_eq_ok (a : α) : (pure a : Except ε α) = .ok a := rfl

@[simp] theorem ok_bind (a : α) (f : α → Except ε β) : ((.ok a : Except ε α) >>= f) = f a := rfl

@[simp] theorem error_bind (e : ε) (f : α → Except ε β) :
    ((.error e : Except ε α) >>= f) = .error e := rfl

@[simp] theorem bind_ok (x : Except ε α) : (x >>= fun a => .ok a) = x := by cases x <;> rfl

theorem bind_eq_ok_iff {x : Except ε α} {f : α → Except ε β} {b : β} :
    x >>= f = .ok b ↔ ∃ a, x = .ok a ∧ f a = .ok b := by
  cases x <;> simp

theorem map_eq_ok_iff {x : Except ε α} {f : α → β} {b : β} :
    (x >>= fun a => .ok (f a)) = .ok b ↔ ∃ a, x = .ok a ∧ f a = b := by
  cases x <;> simp

theorem bind_eq_error_iff {x : Except ε α} {f : α → Except ε β} {e : ε} :
    x >>= f = .error e ↔ x = .error e ∨ ∃ a, x = .ok a ∧ f a = .error e := by
  cases x <;> simp

theorem mapError_bind {ε' : Type} (wrap : ε → ε') (x : Except ε α) (f : α → Except ε β) :
    (x >>= f).mapError wrap = x.mapError wrap >>= fun a => (f a).mapError wrap := by
  cases x <;> rfl

/-! ## Computations that can only break off -/

@[simp] theorem orAbort_ok (a : α) : (orAbort (.ok a) : Except (Failure ε) α) = .ok a := rfl

@[simp] theorem orAbort_error (a : Abort) :
    (orAbort (.error a) : Except (Failure ε) α) = .error (.abort a) := rfl

theorem orAbort_bind (x : Except Abort α) (f : α → Except Abort β) :
    (orAbort (x >>= f) : Except (Failure ε) β) = orAbort x >>= fun a => orAbort (f a) :=
  mapError_bind Failure.abort x f

theorem orAbort_mapM (f : α → Except Abort β) (l : List α) :
    (orAbort (l.mapM f) : Except (Failure ε) (List β)) = l.mapM fun a => orAbort (f a) := by
  induction l with
  | nil => rfl
  | cons a as ih =>
    simp only [List.mapM_cons, orAbort_bind, ih, pure_eq_ok, orAbort_ok]

theorem orAbort_eq_ok_iff {x : Except Abort α} {a : α} :
    (orAbort x : Except (Failure ε) α) = .ok a ↔ x = .ok a := by
  cases x <;> simp

theorem orAbort_ne_error {x : Except Abort α} {e : ε} : orAbort x ≠ .error (.error e) := by
  cases x <;> simp

/-! ## Joined renderings -/

theorem concatM_singleton (render : α → Except ε Markup) (a : α) : concatM render [a] = render a := by
  cases h : render a <;> simp [concatM, h]

theorem concatM_append (render : α → Except ε Markup) (l l' : List α) :
    concatM render (l ++ l') = do
      let m ← concatM render l
      let m' ← concatM render l'
      return m ++ m' := by
  induction l with
  | nil => cases h : concatM render l' <;> simp [concatM, h]
  | cons a as ih =>
    rw [List.cons_append, concatM, concatM, ih]
    cases render a <;> cases concatM render as <;> cases concatM render l' <;> simp

theorem concatM_flatMap (render : β → Except ε Markup) (f : α → List β) (l : List α) :
    concatM render (l.flatMap f) = concatM (fun a => concatM render (f a)) l := by
  induction l with
  | nil => rfl
  | cons a as ih => rw [List.flatMap_cons, concatM_append, ih]; rfl

theorem concatM_map (render : β → Except ε Markup) (f : α → β) (l : List α) :
    concatM render (l.map f) = concatM (fun a => render (f a)) l := by
  induction l with
  | nil => rfl
  | cons a as ih => rw [List.map_cons, concatM, concatM, ih]

theorem concatM_forall₂ {render : α → Except ε Markup} {render' : β → Except ε Markup} {l : List α}
    {l' : List β} (h : List.Forall₂ (fun a b => render a = render' b) l l') :
    concatM render l = concatM render' l' := by
  induction h with
  | nil => rfl
  | cons hab _ ih => rw [concatM, concatM, hab, ih]

theorem concatM_congr {render render' : α → Except ε Markup} {l : List α}
    (h : ∀ a ∈ l, render a = render' a) : concatM render l = concatM render' l :=
  concatM_forall₂ (List.forall₂_same.2 h)

theorem concatM_eq_mapM (render : α → Except ε Markup) (l : List α) :
    concatM render l = l.mapM render >>= fun ms => .ok ms.flatten := by
  induction l with
  | nil => rfl
  | cons a as ih =>
    rw [concatM, ih, List.mapM_cons]
    cases render a <;> cases as.mapM render <;> rfl

theorem mapM_eq_ok_iff {f : α → Except ε β} {l : List α} {bs : List β} :
    l.mapM f = .ok bs ↔ List.Forall₂ (fun a b => f a = .ok b) l bs := by
  induction l generalizing bs with
  | nil => simp [eq_comm]
  | cons a as ih =>
    simp only [List.mapM_cons, bind_eq_ok_iff, ih, pure_eq_ok, Except.ok.injEq]
    constructor
    · rintro ⟨b, hb, bs, hbs, rfl⟩
      exact .cons hb hbs
    · rintro (_ | ⟨hb, hbs⟩)
      exact ⟨_, hb, _, hbs, rfl⟩

theorem mapM_congr {f g : α → Except ε β} {l : List α} (h : ∀ a ∈ l, f a = g a) :
    l.mapM f = l.mapM g := by
  induction l with
  | nil => rfl
  | cons a as ih =>
    rw [List.mapM_cons, List.mapM_cons, h a (by simp), ih fun a' ha' => h a' (by simp [ha'])]

theorem exists_mapM {f : α → Except ε β} {l : List α} (h : ∀ a ∈ l, ∃ b, f a = .ok b) :
    ∃ bs, l.mapM f = .ok bs := by
  induction l with
  | nil => exact ⟨[], rfl⟩
  | cons a as ih =>
    obtain ⟨b, hb⟩ := h a (by simp)
    obtain ⟨bs, hbs⟩ := ih fun a' ha' => h a' (by simp [ha'])
    exact ⟨b :: bs, by simp [List.mapM_cons, hb, hbs]⟩

theorem exists_concatM {render : α → Except ε Markup} {l : List α}
    (h : ∀ a ∈ l, ∃ m, render a = .ok m) : ∃ m, concatM render l = .ok m := by
  obtain ⟨ms, hms⟩ := exists_mapM h
  exact ⟨ms.flatten, by rw [concatM_eq_mapM, hms, ok_bind]⟩

theorem concatM_eq_ok_iff {render : α → Except ε Markup} {l : List α} {m : Markup} :
    concatM render l = .ok m ↔
      ∃ ms, List.Forall₂ (fun a m => render a = .ok m) l ms ∧ ms.flatten = m := by
  simp only [concatM_eq_mapM, map_eq_ok_iff, mapM_eq_ok_iff]

theorem exists_of_mem_right {R : α → β → Prop} {l : List α} {bs : List β}
    (h : List.Forall₂ R l bs) {b : β} (hb : b ∈ bs) : ∃ a ∈ l, R a b := by
  induction h with
  | nil => cases hb
  | cons hab _ ih =>
    rcases List.mem_cons.1 hb with rfl | hb
    · exact ⟨_, by simp, hab⟩
    · obtain ⟨a, ha, hab⟩ := ih hb
      exact ⟨a, by simp [ha], hab⟩

/-! ## Computations side by side -/

/-- Two computations fail in the same way, or both succeed, with results that are related. -/
inductive Alike (R : α → β → Prop) : Except ε α → Except ε β → Prop
  | error (e : ε) : Alike R (.error e) (.error e)
  | ok {a : α} {b : β} (h : R a b) : Alike R (.ok a) (.ok b)

namespace Alike

variable {R : α → β → Prop} {S : γ → δ → Prop}

theorem bind {x : Except ε α} {y : Except ε β} {f : α → Except ε γ} {g : β → Except ε δ}
    (h : Alike R x y) (hfg : ∀ a b, R a b → Alike S (f a) (g b)) : Alike S (x >>= f) (y >>= g) := by
  cases h with
  | error e => exact .error e
  | ok h => exact hfg _ _ h

theorem map {x : Except ε α} {y : Except ε β} {f : α → γ} {g : β → δ} (h : Alike R x y)
    (hfg : ∀ a b, R a b → S (f a) (g b)) :
    Alike S (x >>= fun a => .ok (f a)) (y >>= fun b => .ok (g b)) :=
  h.bind fun a b hab => .ok (hfg a b hab)

theorem exists_of_eq_ok {x : Except ε α} {y : Except ε β} (h : Alike R x y) {a : α} (hx : x = .ok a) :
    ∃ b, y = .ok b ∧ R a b := by
  cases h with
  | error e => cases hx
  | ok h =>
    cases hx
    exact ⟨_, rfl, h⟩

theorem eq_error_iff {x : Except ε α} {y : Except ε β} (h : Alike R x y) {e : ε} :
    x = .error e ↔ y = .error e := by
  cases h with
  | error e => simp
  | ok h => simp

theorem orAbort {x : Except Abort α} {y : Except Abort β} (h : Alike R x y) :
    Alike R (orAbort x : Except (Failure ε) α) (orAbort y) := by
  cases h with
  | error a => exact .error (Failure.abort a)
  | ok h => exact .ok h

theorem imp {R' : α → β → Prop} {x : Except ε α} {y : Except ε β} (h : Alike R x y)
    (hR : ∀ a b, R a b → R' a b) : Alike R' x y := by
  cases h with
  | error e => exact .error e
  | ok h => exact .ok (hR _ _ h)

theorem mapM {f : α → Except ε β} {g : α → Except ε γ} {R : β → γ → Prop} {l : List α}
    (h : ∀ a ∈ l, Alike R (f a) (g a)) : Alike (List.Forall₂ R) (l.mapM f) (l.mapM g) := by
  induction l with
  | nil => exact .ok .nil
  | cons a as ih =>
    rw [List.mapM_cons, List.mapM_cons]
    refine (h a (by simp)).bind fun b c hbc => ?_
    exact (ih fun a' ha' => h a' (by simp [ha'])).map fun bs cs hs => .cons hbc hs

/-- Side by side with a joined rendering, the results of the members are related one by one. -/
theorem mapM_concatM {R : β → Markup → Prop} {f : α → Except ε β} {render : α → Except ε Markup}
    {l : List α} (h : ∀ a ∈ l, Alike R (f a) (render a)) :
    Alike (fun bs m => bs.length = l.length ∧ ∃ ms, List.Forall₂ R bs ms ∧ m = ms.flatten)
      (l.mapM f) (concatM render l) := by
  induction l with
  | nil => exact .ok ⟨rfl, [], .nil, rfl⟩
  | cons a as ih =>
    rw [List.mapM_cons, concatM]
    refine (h a (by simp)).bind fun b m hb => ?_
    refine (ih fun a' ha' => h a' (by simp [ha'])).map ?_
    rintro bs _ ⟨hlen, ms, hms, rfl⟩
    exact ⟨by simp [hlen], m :: ms, .cons hb hms, by simp⟩

end Alike

/-- Whether a failure is no error of the document's. -/
def Failure.IsAbort (e : Failure ε) : Prop := ∃ a, e = .abort a

/-- Unless one of the two ends in a `P`, both succeed, with results that are related. -/
inductive BothUnless (P : ε → Prop) (R : α → β → Prop) : Except ε α → Except ε β → Prop
  | left {e : ε} (h : P e) (y : Except ε β) : BothUnless P R (.error e) y
  | right (x : Except ε α) {e : ε} (h : P e) : BothUnless P R x (.error e)
  | both {a : α} {b : β} (h : R a b) : BothUnless P R (.ok a) (.ok b)

namespace BothUnless

variable {P : ε → Prop} {R : α → β → Prop} {S : γ → δ → Prop}

theorem bind {x : Except ε α} {y : Except ε β} {f : α → Except ε γ} {g : β → Except ε δ}
    (h : BothUnless P R x y) (hfg : ∀ a b, R a b → BothUnless P S (f a) (g b)) :
    BothUnless P S (x >>= f) (y >>= g) := by
  cases h with
  | left h _ => exact .left h _
  | right _ h => exact .right _ h
  | both h => exact hfg _ _ h

theorem map {x : Except ε α} {y : Except ε β} {f : α → γ} {g : β → δ} (h : BothUnless P R x y)
    (hfg : ∀ a b, R a b → S (f a) (g b)) :
    BothUnless P S (x >>= fun a => .ok (f a)) (y >>= fun b => .ok (g b)) :=
  h.bind fun a b hab => .both (hfg a b hab)

/-- Lists that `f` makes equal are gone through side by side, member by member. -/
theorem mapM {ζ : Type} {f : α → ζ} {x : α → Except ε β} {y : α → Except ε γ} {R : β → γ → Prop}
    {l l' : List α} (hl : l.map f = l'.map f)
    (h : ∀ a ∈ l, ∀ b, f a = f b → BothUnless P R (x a) (y b)) :
    BothUnless P (List.Forall₂ R) (l.mapM x) (l'.mapM y) := by
  induction l generalizing l' with
  | nil =>
    obtain rfl : l' = [] := List.map_eq_nil_iff.1 hl.symm
    exact .both .nil
  | cons a as ih =>
    cases l' with
    | nil => cases hl
    | cons b bs =>
      obtain ⟨hab, hl⟩ := List.cons.inj hl
      rw [List.mapM_cons, List.mapM_cons]
      refine (h a (by simp) b hab).bind fun c d hcd => ?_
      exact (ih hl fun a' ha' => h a' (by simp [ha'])).map fun cs ds hs => .cons hcd hs

theorem orAbort {x : Except Abort α} {y : Except Abort β} (h : BothUnless (fun _ => True) R x y) :
    BothUnless Failure.IsAbort R (orAbort x : Except (Failure ε) α) (orAbort y) := by
  cases h with
  | left h _ => exact .left ⟨_, rfl⟩ _
  | right _ h => exact .right _ ⟨_, rfl⟩
  | both h => exact .both h

end BothUnless

/-! ## Blamed verdicts -/

theorem blame_eq_ok_iff {wrap : ConditionError → CompileError} {v : Verdict} {b : Bool} :
    blame wrap v = .ok b ↔ v = .ok b := by
  cases v <;> simp [blame, Except.mapError]

end FormPress
