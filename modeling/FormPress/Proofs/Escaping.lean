import FormPress.Document.Markup
import Mathlib.Data.List.Perm.Basic
import Mathlib.Data.Set.Function
/-!
# Escaped text

Text is escaped in one pass. The same comes of putting a backslash before one special character after
the other, each in the whole text, as long as the backslash itself is the first of them
(`escape_eq_substitutions`). Escaped text is read back by dropping the backslashes, and escaping is a
bijection between texts and what is well escaped (`escape_bijective`).
-/
namespace FormPress.Markup

/-! ## One character after the other -/

/-- Puts a backslash before every occurrence of a character. -/
def substitute (m : Markup) (c : Char) : Markup := m.flatMap fun d => if d = c then ['\\', c] else [d]

/-- The special characters other than the backslash. -/
def otherSpecialChars : List Char := ['#', '\x7b', '\x7d', '[', ']', '*', '_', '~', '^', '|']

/-- Puts a backslash before every character of a class, in one pass. -/
def escapeOnly (cs : List Char) (t : List Char) : Markup :=
  t.flatMap fun d => if d ∈ cs then ['\\', d] else [d]

theorem escape_eq_escapeOnly (t : List Char) : escape t = escapeOnly specialChars t := by
  induction t with
  | nil => rfl
  | cons d t ih =>
    rw [escape, ih, escapeOnly, escapeOnly, List.flatMap_cons]
    split <;> rfl

theorem escapeOnly_congr {cs cs' : List Char} (h : ∀ d, d ∈ cs ↔ d ∈ cs') (t : List Char) :
    escapeOnly cs t = escapeOnly cs' t := by
  simp only [escapeOnly, h]

theorem substitute_backslash (t : List Char) : substitute t '\\' = escapeOnly ['\\'] t := by
  unfold substitute escapeOnly
  refine List.flatMap_congr fun d _ => ?_
  by_cases hd : d = '\\' <;> simp [hd]

/-- A later substitution finds its character as it stood in the text: what earlier ones have put in are
backslashes. -/
theorem substitute_escapeOnly {cs : List Char} {c : Char} (hbackslash : '\\' ∈ cs) (hc : c ∉ cs)
    (t : List Char) : substitute (escapeOnly cs t) c = escapeOnly (c :: cs) t := by
  have hne : '\\' ≠ c := by
    rintro rfl
    exact hc hbackslash
  unfold substitute escapeOnly
  rw [List.flatMap_assoc]
  refine List.flatMap_congr fun d _ => ?_
  by_cases hd : d ∈ cs
  · have hdc : d ≠ c := by
      rintro rfl
      exact hc hd
    simp [hd, hne, hdc]
  · by_cases hdc : d = c
    · subst hdc
      simp [hd]
    · simp [hd, hdc]

theorem foldl_substitute {cs order : List Char} (hbackslash : '\\' ∈ cs) (horder : order.Nodup)
    (hdisjoint : ∀ c ∈ order, c ∉ cs) (t : List Char) :
    order.foldl substitute (escapeOnly cs t) = escapeOnly (order.reverse ++ cs) t := by
  induction order generalizing cs with
  | nil => rfl
  | cons c order ih =>
    obtain ⟨hc, horder⟩ := List.nodup_cons.1 horder
    have hrest : ∀ d ∈ order, d ∉ c :: cs := by
      intro d hd
      rw [List.mem_cons, not_or]
      refine ⟨?_, hdisjoint d (by simp [hd])⟩
      rintro rfl
      exact hc hd
    rw [List.foldl_cons, substitute_escapeOnly hbackslash (hdisjoint c (by simp)),
      ih (by simp [hbackslash]) horder hrest, List.reverse_cons, List.append_assoc]
    rfl

/-- **One pass does what the substitutions do.** To escape a text is to put a backslash before every
backslash, and then in the whole result before every `#`, and so on through the other special characters;
in which order they come does not matter, once the backslash is done. -/
theorem escape_eq_substitutions (t : List Char) :
    escape t = otherSpecialChars.foldl substitute (substitute t '\\') ∧
      ∀ order : List Char, order.Perm otherSpecialChars →
        escape t = order.foldl substitute (substitute t '\\') := by
  have horder : ∀ order : List Char, order.Perm otherSpecialChars →
      escape t = order.foldl substitute (substitute t '\\') := by
    intro order hperm
    have hnodup : order.Nodup := hperm.nodup_iff.2 (by decide)
    have hbackslash : '\\' ∉ otherSpecialChars := by decide
    have hdisjoint : ∀ c ∈ order, c ∉ ['\\'] := by
      intro c hc hmem
      rw [List.mem_singleton.1 hmem] at hc
      exact hbackslash (hperm.mem_iff.1 hc)
    rw [escape_eq_escapeOnly, substitute_backslash, foldl_substitute (by simp) hnodup hdisjoint]
    refine escapeOnly_congr (fun d => ?_) t
    have hsplit : specialChars = '\\' :: otherSpecialChars := rfl
    rw [List.mem_append, List.mem_reverse, hperm.mem_iff, hsplit, List.mem_cons, List.mem_singleton,
      or_comm]
  exact ⟨horder _ (.refl _), horder⟩

/-- Backslashes before special characters and at the end, with the other characters done backwards. -/
theorem escape_eq_substitutions_backwards :
    otherSpecialChars.reverse.Perm otherSpecialChars ∧
      escape "\\#a\\\\_|\\".toList =
        otherSpecialChars.reverse.foldl substitute (substitute "\\#a\\\\_|\\".toList '\\') := by
  have hperm : otherSpecialChars.reverse.Perm otherSpecialChars := List.reverse_perm _
  exact ⟨hperm, (escape_eq_substitutions _).2 _ hperm⟩

/-- A backslash that is done last is put before those that were put in. -/
example : substitute (substitute ['#'] '#') '\\' = ['\\', '\\', '#'] ∧ escape ['#'] = ['\\', '#'] := by
  decide

/-! ## Reading back -/

/-- Drops each backslash and keeps the character behind it, whatever it is; a backslash at the end is
dropped. -/
def unescape : Markup → List Char
  | [] => []
  | ['\\'] => []
  | '\\' :: c :: cs => c :: unescape cs
  | c :: cs => c :: unescape cs

/-- A concatenation of characters that are not special, and of pairs of a backslash and one that is. -/
inductive WellEscaped : Markup → Prop
  | nil : WellEscaped []
  | plain {c : Char} {m : Markup} (hc : c ∉ specialChars) (hm : WellEscaped m) : WellEscaped (c :: m)
  | pair {c : Char} {m : Markup} (hc : c ∈ specialChars) (hm : WellEscaped m) :
    WellEscaped ('\\' :: c :: m)

theorem unescape_cons {c : Char} (hc : c ∉ specialChars) (m : Markup) :
    unescape (c :: m) = c :: unescape m := by
  have hne : c ≠ '\\' := by
    rintro rfl
    exact hc (by decide)
  rw [unescape]
  · rintro rfl
    exact absurd rfl hne
  · rintro _ _ rfl
    exact absurd rfl hne

/-- What stands behind escaped text is read as if it stood alone. -/
theorem unescape_escape_append (t : List Char) (m : Markup) :
    unescape (escape t ++ m) = t ++ unescape m := by
  induction t with
  | nil => rfl
  | cons c t ih =>
    rw [escape]
    split
    · rw [List.cons_append, List.cons_append, unescape, ih, List.cons_append]
    · rename_i hc
      rw [List.cons_append, unescape_cons hc, ih, List.cons_append]

theorem unescape_escape (t : List Char) : unescape (escape t) = t := by
  have h := unescape_escape_append t []
  rwa [List.append_nil, unescape, List.append_nil] at h

theorem wellEscaped_escape (t : List Char) : WellEscaped (escape t) := by
  induction t with
  | nil => exact .nil
  | cons c t ih =>
    rw [escape]
    split
    · rename_i hc
      exact .pair hc ih
    · rename_i hc
      exact .plain hc ih

theorem WellEscaped.escape_unescape {m : Markup} (h : WellEscaped m) : escape (unescape m) = m := by
  induction h with
  | nil => rfl
  | plain hc _ ih => rw [unescape_cons hc, escape, if_neg hc, ih]
  | pair hc _ ih => rw [unescape, escape, if_pos hc, ih]

theorem escape_unescape_iff {m : Markup} : escape (unescape m) = m ↔ WellEscaped m := by
  constructor
  · intro h
    rw [← h]
    exact wellEscaped_escape _
  · exact WellEscaped.escape_unescape

/-- **Escaping is a bijection onto what is well escaped, and composes.** Reading back undoes escaping;
escaped text is well escaped, and what is well escaped is exactly what escaping gives back from its
reading. Texts are escaped piece by piece, so an escaped text is read for itself, whatever stands
behind it. -/
theorem escape_bijective :
    (∀ t : List Char, unescape (escape t) = t) ∧ (∀ t : List Char, WellEscaped (escape t)) ∧
      (∀ m : Markup, escape (unescape m) = m ↔ WellEscaped m) ∧
      Set.BijOn escape Set.univ {m | WellEscaped m} ∧
      (∀ t u : List Char, escape (t ++ u) = escape t ++ escape u) ∧
      ∀ (t : List Char) (m : Markup), unescape (escape t ++ m) = t ++ unescape m := by
  have hbij : Set.BijOn escape Set.univ {m | WellEscaped m} := by
    refine ⟨fun t _ => wellEscaped_escape t, ?_, fun m hm => ?_⟩
    · exact (Function.LeftInverse.injective unescape_escape).injOn
    · exact ⟨unescape m, Set.mem_univ _, WellEscaped.escape_unescape hm⟩
  exact ⟨unescape_escape, wellEscaped_escape, fun _ => escape_unescape_iff, hbij, escape_append,
    unescape_escape_append⟩

end FormPress.Markup
