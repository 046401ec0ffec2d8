import FormPress.Document.Markup
import Mathlib.Data.List.Forall2
/-!
# Skeletons of markup

The skeleton of markup is what is left of its special characters once those behind a backslash are
gone. Escaped text has none of it, and every command adds its own no matter what stands in its
arguments: the scan is never left behind a backslash (`Same`).
-/
namespace FormPress.Markup

/-- The special characters of markup, read from the left; a backslash is left out together with the
character behind it. -/
def skeleton : Markup → List Char
  | [] => []
  | ['\\'] => []
  | '\\' :: _ :: cs => skeleton cs
  | c :: cs => if c ∈ specialChars then c :: skeleton cs else skeleton cs

theorem skeleton_cons {c : Char} (h : c ≠ '\\') (cs : Markup) :
    skeleton (c :: cs) = [c].filter (· ∈ specialChars) ++ skeleton cs := by
  rw [skeleton]
  · by_cases hc : c ∈ specialChars <;> simp [hc]
  · rintro rfl; exact absurd rfl h
  · rintro _ _ rfl; exact absurd rfl h

/-! ## What markup adds to a skeleton -/

/-- In front of whatever markup, `m` puts `s` in front of the skeleton. -/
def Adds (m : Markup) (s : List Char) : Prop := ∀ rest, skeleton (m ++ rest) = s ++ skeleton rest

theorem Adds.skeleton_eq {m : Markup} {s : List Char} (h : Adds m s) : skeleton m = s := by
  simpa [skeleton] using h []

theorem Adds.nil : Adds [] [] := fun _ => rfl

theorem Adds.append {m m' : Markup} {s s' : List Char} (h : Adds m s) (h' : Adds m' s') :
    Adds (m ++ m') (s ++ s') := fun rest => by
  rw [List.append_assoc, h, h', List.append_assoc]

theorem Adds.singleton {c : Char} (h : c ≠ '\\') : Adds [c] ([c].filter (· ∈ specialChars)) :=
  fun rest => skeleton_cons h rest

/-- Where there is no backslash every special character counts. -/
theorem Adds.of_notMem {m : Markup} (h : '\\' ∉ m) : Adds m (m.filter (· ∈ specialChars)) := by
  induction m with
  | nil => exact .nil
  | cons c m ih =>
    rw [← List.singleton_append, List.filter_append]
    exact (Adds.singleton (by rintro rfl; simp at h)).append (ih fun hm => h (by simp [hm]))

/-- Escaped text leaves no trace, however many backslashes it ends in. -/
theorem adds_escape (s : List Char) : Adds (escape s) [] := by
  intro rest
  induction s with
  | nil => rfl
  | cons c s ih =>
    rw [escape]
    split
    · exact ih
    · rename_i hc
      have hne : c ≠ '\\' := by rintro rfl; exact hc (by decide)
      rw [List.cons_append, skeleton_cons hne, ih]
      simp [hc]

/-- A closing quote ends the hold of any backslash before it: it is what the last one takes, or it is
no special character itself. -/
theorem exists_adds_quote (cs : List Char) : ∃ s, Adds (cs ++ ['"']) s := by
  fun_induction skeleton cs with
  | case1 => exact ⟨[], fun _ => rfl⟩
  | case2 => exact ⟨[], fun _ => rfl⟩
  | case3 c cs ih => exact ih
  | case4 c cs h₁ h₂ hc ih | case5 c cs h₁ h₂ hc ih =>
    obtain ⟨s, hs⟩ := ih
    have hne : c ≠ '\\' := by
      rintro rfl
      cases cs with
      | nil => exact h₁ rfl rfl
      | cons d ds => exact h₂ d ds rfl rfl
    exact ⟨_, (Adds.singleton hne).append hs⟩

/-! ## Markup with one skeleton -/

/-- The two add the same to every skeleton. -/
def Same (m m' : Markup) : Prop := ∃ s, Adds m s ∧ Adds m' s

namespace Same

theorem skeleton_eq {m m' : Markup} : Same m m' → skeleton m = skeleton m'
  | ⟨_, h, h'⟩ => h.skeleton_eq.trans h'.skeleton_eq.symm

theorem nil : Same [] [] := ⟨[], .nil, .nil⟩

theorem of_notMem {m : Markup} (h : '\\' ∉ m) : Same m m := ⟨_, .of_notMem h, .of_notMem h⟩

theorem append {m m' n n' : Markup} : Same m m' → Same n n' → Same (m ++ n) (m' ++ n')
  | ⟨_, h, h'⟩, ⟨_, k, k'⟩ => ⟨_, h.append k, h'.append k'⟩

theorem flatten {ms ms' : List Markup} (h : List.Forall₂ Same ms ms') :
    Same ms.flatten ms'.flatten := by
  induction h with
  | nil => exact nil
  | cons h _ ih => exact h.append ih

theorem escape (s s' : List Char) : Same (escape s) (escape s') :=
  ⟨[], adds_escape s, adds_escape s'⟩

/-! ## Commands -/

theorem bracketed {m m' : Markup} (h : Same m m') : Same (bracketed m) (bracketed m') :=
  (of_notMem (m := ['[']) (by decide)).append (h.append (of_notMem (by decide)))

theorem quoted (text : String) : Same (quoted text) (quoted text) := by
  obtain ⟨s, hs⟩ := exists_adds_quote text.toList
  exact (of_notMem (m := ['"']) (by decide)).append ⟨s, hs, hs⟩

theorem command {name : String} {m m' : Markup} (h : Same m m') (hname : '\\' ∉ name.toList) :
    Same (command name m) (command name m') :=
  (of_notMem (m := '#' :: name.toList) (by simp [hname])).append h.bracketed

theorem commandWith {name : String} {args m m' : Markup} (h : Same m m')
    (hname : '\\' ∉ name.toList) (hargs : Same args args) :
    Same (commandWith name args m) (commandWith name args m') := by
  have hopen : Same ('#' :: (name.toList ++ ['('])) ('#' :: (name.toList ++ ['('])) :=
    of_notMem (by simp [hname])
  have hclose : Same [')'] [')'] := of_notMem (by decide)
  simpa [Markup.commandWith] using hopen.append (hargs.append (hclose.append h.bracketed))

end Same

end FormPress.Markup

namespace FormPress

open Markup (Same)

theorem Mark.same_apply {m m' : Markup} (h : Same m m') : ∀ k : Mark, Same (k.apply m) (k.apply m')
  | .bold | .italic | .underline | .highlight | .strike | .code => h.command (by decide)
  | .textStyle _ => h
  | .link href _ _ => h.commandWith (by decide) (.quoted href)

theorem Mark.same_foldl_apply (marks : List Mark) {m m' : Markup} (h : Same m m') :
    Same (marks.foldl Mark.apply m) (marks.foldl Mark.apply m') := by
  induction marks generalizing m m' with
  | nil => exact h
  | cons k marks ih => exact ih (k.same_apply h)

theorem TextAlign.same_wrap {m m' : Markup} (h : Same m m') :
    ∀ a : Option TextAlign, Same (wrap a m) (wrap a m')
  | some .center | some .right => h.commandWith (by decide) (.of_notMem (by decide))
  | some .left | some .justify | none => h

theorem Heading.same_wrap (h : Heading) {m m' : Markup} (hm : Same m m') :
    Same (h.wrap m) (h.wrap m') := by
  have hlevel : '\\' ∉ "level: ".toList ++ Text.numeral h.level.toNat := by
    rw [List.mem_append, not_or]
    exact ⟨by decide, Text.notMem_numeral (by decide) _⟩
  refine Same.append (TextAlign.same_wrap ?_ h.align) (.of_notMem (by decide))
  exact hm.commandWith (by decide) (.of_notMem hlevel)

theorem Paragraph.same_wrap {m m' : Markup} (h : Same m m') : Same (wrap m) (wrap m') :=
  (h.command (by decide)).append (.of_notMem (by decide))

theorem Markup.Same.intercalate {ms ms' : List Markup} (h : List.Forall₂ Same ms ms') :
    Same ([','].intercalate ms) ([','].intercalate ms') := by
  have hcomma : Same [','] [','] := .of_notMem (by decide)
  induction h with
  | nil => exact .nil
  | cons h hs ih =>
    cases hs with
    | nil => simpa using h
    | cons h' hs' => simpa using h.append (hcomma.append ih)

theorem ListStyle.same_wrap (style : ListStyle) {ms ms' : List Markup}
    (h : List.Forall₂ Same ms ms') : Same (style.wrap ms) (style.wrap ms') := by
  cases h with
  | nil => exact .nil
  | cons h hs =>
    have hopen : '\\' ∉ '#' :: (style.command.toList ++ ['(']) := by cases style <;> decide
    have hclose : Same ")\n".toList ")\n".toList := .of_notMem (by decide)
    simpa [wrap] using (Same.of_notMem hopen).append ((Same.intercalate (.cons h hs)).append hclose)

end FormPress
