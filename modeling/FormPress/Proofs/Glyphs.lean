import FormPress.Document.Markup
import Mathlib.Data.List.Infix
/-!
# Reading markup

Markup is read from the left. What stands behind a backslash or in a string is inert; of all else,
brackets nest, and at depth 0 a newline ends a line and a comma ends an item. Markup that is read from
a neutral state to a neutral state, with nothing that cuts it at depth 0, is `Closed`: such markup can
be put together, and is found again by cutting.
-/
namespace FormPress

/-- A character of markup, as it is read. -/
inductive Glyph
  | active (c : Char)
  | inert (c : Char)
  deriving DecidableEq

def Glyph.char : Glyph → Char
  | active c | inert c => c

/-- The depth of brackets behind a glyph. -/
def Glyph.depth (d : Nat) : Glyph → Nat
  | .active '[' => d + 1
  | .active ']' => d - 1
  | _ => d

namespace Markup

/-- What opens a string. -/
def openers : List Markup := ["#link(\"".toList, "#set text(lang: \"".toList]

/-- What the next character is read as. A string begins behind the rest of what opens it, and ends
with the next double quote. -/
inductive Mode
  | text
  | literal
  | string (skip : Nat)

/-- The mode behind the first character of `m`. -/
def Mode.behind (m : Markup) : Mode :=
  match openers.find? (·.isPrefixOf m) with
  | some o => .string (o.length - 1)
  | none => .text

/-- The glyphs of markup that is come to in a mode. -/
def read : Mode → Markup → List Glyph
  | _, [] => []
  | .literal, c :: cs => .inert c :: read .text cs
  | .string (skip + 1), c :: cs => .inert c :: read (.string skip) cs
  | .string 0, c :: cs => .inert c :: read (if c = '"' then .text else .string 0) cs
  | .text, c :: cs =>
    if c = '\\' then .inert c :: read .literal cs else .active c :: read (.behind (c :: cs)) cs

/-- Nothing is lost in reading. -/
theorem map_char_read (mode : Mode) (m : Markup) : (read mode m).map Glyph.char = m := by
  fun_induction read mode m <;> simp_all [Glyph.char]

/-! ## Depth -/

/-- The depth behind the glyphs, unless one of `stops` is met at depth 0. -/
def depth? (stops : List Char) : Nat → List Glyph → Option Nat
  | d, [] => some d
  | d, g :: gs => if d = 0 ∧ g ∈ stops.map .active then none else depth? stops (g.depth d) gs

/-- No bracket is closed that is not open, and in the end none is open. -/
def WellNested (m : Markup) : Prop := depth? [']'] 0 (read .text m) = some 0

theorem depth?_cons_eq_some_iff {stops : List Char} {d e : Nat} {g : Glyph} {gs : List Glyph} :
    depth? stops d (g :: gs) = some e ↔
      ¬(d = 0 ∧ g ∈ stops.map .active) ∧ depth? stops (g.depth d) gs = some e := by
  rw [depth?]
  split <;> simp_all

theorem depth?_append {stops : List Char} {d e : Nat} {gs : List Glyph} (hs : List Glyph)
    (h : depth? stops d gs = some e) : depth? stops d (gs ++ hs) = depth? stops e hs := by
  induction gs generalizing d with
  | nil => cases h; rfl
  | cons g gs ih =>
    obtain ⟨hg, h⟩ := depth?_cons_eq_some_iff.1 h
    rw [List.cons_append, depth?, if_neg hg, ih h]

theorem depth?_mono {stops stops' : List Char} (hsub : stops ⊆ stops') {d e : Nat} {gs : List Glyph}
    (h : depth? stops' d gs = some e) : depth? stops d gs = some e := by
  induction gs generalizing d with
  | nil => exact h
  | cons g gs ih =>
    obtain ⟨hg, h⟩ := depth?_cons_eq_some_iff.1 h
    refine depth?_cons_eq_some_iff.2 ⟨fun ⟨hd, hmem⟩ => hg ⟨hd, ?_⟩, ih h⟩
    exact List.map_subset _ hsub hmem

/-- One bracket further in, nothing is met at depth 0. -/
theorem depth?_succ {d e : Nat} {gs : List Glyph} (stops : List Char)
    (h : depth? [']'] d gs = some e) : depth? stops (d + 1) gs = some (e + 1) := by
  induction gs generalizing d with
  | nil => cases h; rfl
  | cons g gs ih =>
    obtain ⟨hg, h⟩ := depth?_cons_eq_some_iff.1 h
    have hdepth : g.depth (d + 1) = g.depth d + 1 := by
      unfold Glyph.depth
      split
      · rfl
      · have : d ≠ 0 := fun hd => hg ⟨hd, by simp⟩
        omega
      · rfl
    refine depth?_cons_eq_some_iff.2 ⟨by omega, ?_⟩
    rw [hdepth, ih h]

/-- Where there is no bracket and no stop, the depth does not change. -/
theorem depth?_of_flat {stops : List Char} {gs : List Glyph}
    (h : ∀ c ∈ '[' :: ']' :: stops, .active c ∉ gs) (d : Nat) :
    depth? (']' :: stops) d gs = some d := by
  induction gs with
  | nil => rfl
  | cons g gs ih =>
    have hdepth : g.depth d = d := by
      unfold Glyph.depth
      split
      · exact absurd (by simp) (h '[' (by simp))
      · exact absurd (by simp) (h ']' (by simp))
      · rfl
    refine depth?_cons_eq_some_iff.2 ⟨?_, ?_⟩
    · rintro ⟨-, hg⟩
      obtain ⟨c, hc, rfl⟩ := List.mem_map.1 hg
      exact h c (List.mem_cons_of_mem _ hc) (by simp)
    · rw [hdepth]
      exact ih fun c hc hmem => h c hc (by simp [hmem])

/-! ## Cutting -/

/-- Cuts at every `stop` met at depth 0, which is kept at the end of its piece or left out. -/
def cut (keep : Bool) (stop : Char) : Nat → List Glyph → List (List Glyph)
  | _, [] => [[]]
  | d, g :: gs =>
    if d = 0 ∧ g = .active stop then (if keep then [g] else []) :: cut keep stop 0 gs
    else (cut keep stop (g.depth d) gs).modifyHead (g :: ·)

theorem cut_append {keep : Bool} {stops : List Char} {stop : Char} (hstop : stop ∈ stops) {d : Nat}
    {gs : List Glyph} (hs : List Glyph) (h : depth? stops d gs = some 0) :
    cut keep stop d (gs ++ .active stop :: hs) =
      (gs ++ if keep then [.active stop] else []) :: cut keep stop 0 hs := by
  induction gs generalizing d with
  | nil => cases h; simp [cut]
  | cons g gs ih =>
    obtain ⟨hg, h⟩ := depth?_cons_eq_some_iff.1 h
    rw [List.cons_append, cut, if_neg, ih h]
    · rfl
    · rintro ⟨hd, rfl⟩
      exact hg ⟨hd, List.mem_map_of_mem hstop⟩

theorem cut_eq_singleton {keep : Bool} {stops : List Char} {stop : Char} (hstop : stop ∈ stops)
    {d e : Nat} {gs : List Glyph} (h : depth? stops d gs = some e) : cut keep stop d gs = [gs] := by
  induction gs generalizing d with
  | nil => rfl
  | cons g gs ih =>
    obtain ⟨hg, h⟩ := depth?_cons_eq_some_iff.1 h
    rw [cut, if_neg, ih h]
    · rfl
    · rintro ⟨hd, rfl⟩
      exact hg ⟨hd, List.mem_map_of_mem hstop⟩

/-! ## Strings -/

theorem read_skipped (s rest : Markup) :
    read (.string s.length) (s ++ rest) = s.map .inert ++ read (.string 0) rest := by
  induction s with
  | nil => rfl
  | cons c s ih => rw [List.length_cons, List.cons_append, read, ih]; rfl

theorem read_quote {s : Markup} (h : '"' ∉ s) (rest : Markup) :
    read (.string 0) (s ++ '"' :: rest) = (s ++ ['"']).map .inert ++ read .text rest := by
  induction s with
  | nil => simp [read]
  | cons c s ih =>
    have hc : c ≠ '"' := by rintro rfl; simp at h
    rw [List.cons_append, read, if_neg hc, ih fun hs => h (by simp [hs])]
    rfl

theorem behind_opener {o : Markup} (ho : o ∈ openers) (rest : Markup) :
    Mode.behind (o ++ rest) = .string (o.length - 1) := by
  rcases List.mem_pair.1 ho with rfl | rfl <;> rfl

theorem behind_eq_text_iff {m : Markup} : Mode.behind m = .text ↔ ∀ o ∈ openers, ¬o <+: m := by
  unfold Mode.behind
  split
  · rename_i o ho
    have hmem := List.mem_of_find?_eq_some ho
    have := List.find?_some ho
    simp only [reduceCtorEq, false_iff, not_forall, not_not]
    exact ⟨o, hmem, List.isPrefixOf_iff_prefix.1 this⟩
  · rename_i ho
    rw [List.find?_eq_none] at ho
    simpa using ho

/-- What opens no string, and cannot be continued to what does. -/
def Fresh (m : Markup) : Prop := ∀ o ∈ openers, ¬o <+: m ∧ ¬m <+: o

instance (m : Markup) : Decidable (Fresh m) := List.decidableBAll _ openers

theorem Fresh.behind {m : Markup} (h : Fresh m) (rest : Markup) : Mode.behind (m ++ rest) = .text := by
  refine behind_eq_text_iff.2 fun o ho hprefix => ?_
  rcases List.prefix_or_prefix_of_prefix hprefix (List.prefix_append m rest) with h' | h'
  · exact (h o ho).1 h'
  · exact (h o ho).2 h'

theorem behind_of_ne_hash {c : Char} (h : c ≠ '#') (cs : Markup) : Mode.behind (c :: cs) = .text := by
  have hhash : ∀ o ∈ openers, o.head? = some '#' := by decide
  refine behind_eq_text_iff.2 fun o ho hprefix => ?_
  obtain ⟨t, rfl⟩ := List.head?_eq_some_iff.1 (hhash o ho)
  exact h (List.cons_prefix_cons.1 hprefix).1.symm

theorem read_cons {c : Char} (hb : c ≠ '\\') (hh : c ≠ '#') (cs : Markup) :
    read .text (c :: cs) = .active c :: read .text cs := by
  rw [read, if_neg hb, behind_of_ne_hash hh]

/-- Text without brackets, backslashes or commands, and without any of `stops`. -/
def Plain (stops : List Char) (m : Markup) : Prop :=
  ∀ c ∈ m, c ∉ '\\' :: '#' :: '[' :: ']' :: stops

instance (stops : List Char) (m : Markup) : Decidable (Plain stops m) := List.decidableBAll _ m

theorem Plain.read {stops : List Char} {m : Markup} (h : Plain stops m) (rest : Markup) :
    read .text (m ++ rest) = m.map .active ++ read .text rest := by
  induction m with
  | nil => rfl
  | cons c m ih =>
    obtain ⟨hb, hh, -⟩ : c ≠ '\\' ∧ c ≠ '#' ∧ _ := by simpa using h c (by simp)
    rw [List.cons_append, read_cons hb hh, ih fun c hc => h c (by simp [hc])]
    rfl

/-! ## Closed markup -/

/-- In front of whatever markup, `m` is read as on its own; it is well nested, and none of `stops`
stands at depth 0 in it. -/
structure Closed (stops : List Char) (m : Markup) : Prop where
  read_append : ∀ rest, read .text (m ++ rest) = read .text m ++ read .text rest
  depth? : depth? (']' :: stops) 0 (read .text m) = some 0

namespace Closed

variable {stops : List Char} {m n : Markup}

theorem of_read (gs : List Glyph) (h : ∀ rest, read .text (m ++ rest) = gs ++ read .text rest)
    (hd : Markup.depth? (']' :: stops) 0 gs = some 0) : Closed stops m := by
  have hgs : read .text m = gs := by simpa [read] using h []
  exact ⟨by rwa [hgs], by rwa [hgs]⟩

theorem mono {stops' : List Char} (h : Closed stops m) (hsub : stops' ⊆ stops) : Closed stops' m :=
  ⟨h.read_append, depth?_mono (List.cons_subset_cons _ hsub) h.depth?⟩

theorem wellNested (h : Closed stops m) : WellNested m := (h.mono (List.nil_subset _)).depth?

theorem nil : Closed stops [] := ⟨fun _ => rfl, rfl⟩

theorem append (hm : Closed stops m) (hn : Closed stops n) : Closed stops (m ++ n) where
  read_append rest := by
    rw [List.append_assoc, hm.read_append, hn.read_append, hm.read_append, List.append_assoc]
  depth? := by rw [hm.read_append, depth?_append _ hm.depth?, hn.depth?]

theorem flatten {ms : List Markup} (h : ∀ m ∈ ms, Closed stops m) : Closed stops ms.flatten := by
  induction ms with
  | nil => exact nil
  | cons m ms ih => exact (h m (by simp)).append (ih fun n hn => h n (by simp [hn]))

theorem plain (h : Plain stops m) : Closed stops m := by
  refine of_read _ h.read (depth?_of_flat (fun c hc hmem => ?_) 0)
  exact h c (by simpa using hmem) (by simp at hc ⊢; tauto)

/-- The name of a command, with whatever plain text behind it. -/
theorem hash (hfresh : Fresh ('#' :: m)) (h : Plain stops m) (hstops : '#' ∉ stops) :
    Closed stops ('#' :: m) := by
  refine of_read (('#' :: m).map .active) (fun rest => ?_) (depth?_of_flat (fun c hc => ?_) 0)
  · rw [List.cons_append, read, if_neg (by decide), ← List.cons_append, hfresh.behind rest, h.read]
    rfl
  · rw [List.mem_map_of_injective fun _ _ => Glyph.active.inj]
    rintro (_ | ⟨_, hmem⟩)
    · simp [hstops] at hc
    · exact h c hmem (by simp at hc ⊢; tauto)

/-- A string behind what opens it. -/
theorem quoted {p : Markup} {s : String} (hp : p ++ ['"'] ∈ openers) (hs : '"' ∉ s.toList)
    (h : '#' ∉ stops) : Closed stops (p ++ quoted s) := by
  have hopener : ∀ o ∈ openers, o.head? = some '#' := by decide
  obtain ⟨t, ht⟩ := List.head?_eq_some_iff.1 (hopener _ hp)
  have hquoted : p ++ Markup.quoted s = '#' :: (t ++ s.toList ++ ['"']) := by
    rw [← List.cons_append, ← List.cons_append, ← ht]
    simp [Markup.quoted]
  have hbehind (rest : Markup) : Mode.behind ('#' :: (t ++ rest)) = .string t.length := by
    simpa [ht] using behind_opener hp rest
  rw [hquoted]
  refine of_read (.active '#' :: (t ++ s.toList ++ ['"']).map .inert) (fun rest => ?_)
    (depth?_of_flat (fun c hc => ?_) 0)
  · simp only [List.cons_append, List.append_assoc, List.nil_append]
    rw [read, if_neg (by decide), hbehind, read_skipped, read_quote hs]
    simp
  · rintro hmem
    have : c = '#' := by simpa using hmem
    subst this
    simp [h] at hc

theorem bracketed (h : Closed [] m) (hstops : '[' ∉ stops) : Closed stops (bracketed m) := by
  refine of_read (.active '[' :: (read .text m ++ [.active ']'])) (fun rest => ?_) ?_
  · rw [Markup.bracketed, List.cons_append, List.append_assoc, read_cons (by decide) (by decide),
      h.read_append, List.singleton_append, read_cons (by decide) (by decide)]
    simp
  -- Between the brackets the depth is never 0, so that `m` itself may hold what stops.
  · refine depth?_cons_eq_some_iff.2 ⟨by simpa using hstops, ?_⟩
    rw [Glyph.depth, depth?_append _ (depth?_succ _ h.depth?)]
    simp [Markup.depth?, Glyph.depth]

theorem escape (s : List Char) : Closed [] (escape s) := by
  induction s with
  | nil => exact nil
  | cons c s ih =>
    rw [Markup.escape]
    split
    · have hc : Closed [] ['\\', c] := of_read (['\\', c].map .inert) (fun _ => rfl) rfl
      exact hc.append ih
    · rename_i hc
      have hspecial : ['\\', '#', '[', ']'] ⊆ specialChars := by decide
      have hc : Closed [] [c] := plain fun d hd hmem => by
        rw [List.mem_singleton.1 hd] at hmem
        exact hc (hspecial hmem)
      exact hc.append ih

/-! ## Commands -/

theorem command {name : String} (h : Closed [] m) (hname : Closed stops ('#' :: name.toList))
    (hstops : '[' ∉ stops) : Closed stops (command name m) :=
  hname.append (h.bracketed hstops)

theorem commandWith {name : String} {args : Markup} (h : Closed [] m)
    (hname : Closed stops ('#' :: (name.toList ++ '(' :: (args ++ [')'])))) (hstops : '[' ∉ stops) :
    Closed stops (commandWith name args m) := by
  simpa [Markup.commandWith] using hname.append (h.bracketed hstops)

end Closed

/-! ## Lines and items -/

/-- The markup, cut behind every newline that stands at depth 0; an empty rest is no line. -/
def lines (m : Markup) : List Markup :=
  ((cut true '\n' 0 (read .text m)).map (·.map Glyph.char)).filter (· ≠ [])

/-- The markup between the commas that stand at depth 0. -/
def items (m : Markup) : List Markup := (cut false ',' 0 (read .text m)).map (·.map Glyph.char)

/-- A command that ends with a newline, and has no other at depth 0. -/
def Line (m : Markup) : Prop := ∃ body, m = '#' :: (body ++ ['\n']) ∧ Closed ['\n'] ('#' :: body)

theorem Closed.line {m : Markup} (h : Closed ['\n'] m) (hhash : m.head? = some '#') :
    Line (m ++ ['\n']) := by
  obtain ⟨body, rfl⟩ := List.head?_eq_some_iff.1 hhash
  exact ⟨body, rfl, h⟩

theorem Line.closed {m : Markup} : Line m → Closed [] m
  | ⟨body, hm, h⟩ => by
    have hnewline : Closed [] ['\n'] := .plain (by decide)
    rw [hm]
    exact (h.mono (List.nil_subset _)).append hnewline

theorem lines_append {m : Markup} (hm : Line m) (rest : Markup) :
    lines (m ++ rest) = m :: lines rest := by
  obtain ⟨body, rfl, h⟩ := hm
  have hread : read .text ('#' :: (body ++ ['\n']) ++ rest) =
      read .text ('#' :: body) ++ .active '\n' :: read .text rest := by
    have := h.read_append ('\n' :: rest)
    rw [read_cons (c := '\n') (by decide) (by decide)] at this
    simpa using this
  rw [lines, hread, cut_append (by simp) _ h.depth?]
  simp [lines, map_char_read, Glyph.char]

theorem lines_flatten {ms : List Markup} (h : ∀ m ∈ ms, Line m) : lines ms.flatten = ms := by
  induction ms with
  | nil => rfl
  | cons m ms ih =>
    rw [List.flatten_cons, lines_append (h m (by simp)), ih fun n hn => h n (by simp [hn])]

theorem items_intercalate {ms : List Markup} (hne : ms ≠ []) (h : ∀ m ∈ ms, Closed [','] m) :
    items ([','].intercalate ms) = ms := by
  induction ms with
  | nil => exact absurd rfl hne
  | cons m ms ih =>
    have hm := h m (by simp)
    have hstop : ',' ∈ [']', ','] := by simp
    cases ms with
    | nil => simp [items, cut_eq_singleton hstop hm.depth?, map_char_read]
    | cons n ms =>
      have ih := ih (by simp) fun n hn => h n (by simp [hn])
      have hread : read .text ([','].intercalate (m :: n :: ms)) =
          read .text m ++ .active ',' :: read .text ([','].intercalate (n :: ms)) := by
        rw [← read_cons (by decide) (by decide), ← hm.read_append]
        simp
      rw [items, hread, cut_append hstop _ hm.depth?]
      simpa [items, map_char_read] using ih

end Markup

end FormPress
