import FormPress.Proofs.Segments
/-!
# Inline markup, sign by sign

Inline text is written in signs: letters, the openings of commands and their closings. No sign begins
another, so markup falls into its signs in one way only (`Sign.flatMap_write_inj`); and read from the left
the signs give back the text with its marks, up to what is never rendered (`Sign.read_signs`). So two runs
of inline text have the same markup only where they differ in nothing that shows
(`renderInlines_eq_iff`).
-/
namespace FormPress

/-! ## Marks that are rendered -/

/-- Lists that start with all of their `p` are cut behind these in one way. -/
theorem append_inj_of_all {α : Type} {p : α → Bool} {l l' r r' : List α} (hl : ∀ a ∈ l, p a = true)
    (hl' : ∀ a ∈ l', p a = true) (hr : ∀ a ∈ r.head?, p a = false) (hr' : ∀ a ∈ r'.head?, p a = false)
    (h : l ++ r = l' ++ r') : l = l' ∧ r = r' := by
  have htake {l r : List α} (hl : ∀ a ∈ l, p a = true) (hr : ∀ a ∈ r.head?, p a = false) :
      (l ++ r).takeWhile p = l := by
    rw [List.takeWhile_append_of_pos hl]
    cases r with
    | nil => simp
    | cons a r => simp [hr a rfl]
  have hll : l = l' := by rw [← htake hl hr, h, htake hl' hr']
  subst hll
  exact ⟨rfl, List.append_cancel_left h⟩

/-- The part of a mark that is rendered, if any. -/
def Mark.rendered? : Mark → Option Mark
  | .textStyle _ => none
  | .link href _ _ => some (.link href none none)
  | k => some k

/-- The name of the command that a mark is rendered as. -/
def Mark.name : Mark → String
  | .bold => "strong"
  | .italic => "emph"
  | .underline => "underline"
  | .highlight => "highlight"
  | .strike => "strike"
  | .code => "raw"
  | .textStyle _ => ""
  | .link _ _ _ => "link"

/-- What stands between the name of a command and its body. -/
def Mark.argument : Mark → Markup
  | .link href _ _ => '(' :: (Markup.quoted href ++ [')'])
  | _ => []

def Mark.opener (k : Mark) : Markup := '#' :: (k.name.toList ++ (k.argument ++ ['[']))

namespace Mark

variable {k k' : Mark}

theorem rendered?_of_rendered (h : k.rendered? = some k') : k'.rendered? = some k' := by
  cases k <;> cases h <;> rfl

theorem hrefs_of_rendered (h : k.rendered? = some k') : k'.hrefs = k.hrefs := by
  cases k <;> cases h <;> rfl

theorem apply_of_rendered (h : k.rendered? = some k') (body : Markup) :
    k.apply body = k'.opener ++ (body ++ [']']) := by
  cases k <;> cases h <;>
    simp only [apply, opener, name, argument, Markup.command, Markup.commandWith, Markup.bracketed,
      List.cons_append, List.append_assoc, List.nil_append]

theorem apply_of_not_rendered (h : k.rendered? = none) (body : Markup) : k.apply body = body := by
  cases k <;> cases h
  rfl

theorem eq_or_links_of_name (hk : k.rendered? = some k) (hk' : k'.rendered? = some k')
    (h : k.name = k'.name) :
    k = k' ∨ ∃ href href', k = .link href none none ∧ k' = .link href' none none := by
  cases k <;> cases k' <;> simp_all [name, rendered?]

/-- Behind a quoted text that holds no quote everything is found again. -/
theorem quoted_append_inj {s s' : String} (hs : '"' ∉ s.toList) (hs' : '"' ∉ s'.toList) {t t' : Markup}
    (h : Markup.quoted s ++ t = Markup.quoted s' ++ t') : s = s' ∧ t = t' := by
  have hquote {s : String} (hs : '"' ∉ s.toList) : ∀ c ∈ s.toList, (c != '"') = true := by
    intro c hc
    rw [bne_iff_ne]
    rintro rfl
    exact hs hc
  have hcut : s.toList ++ '"' :: t = s'.toList ++ '"' :: t' := by simpa [Markup.quoted] using h
  obtain ⟨htext, hrest⟩ := append_inj_of_all (hquote hs) (hquote hs') (by simp) (by simp) hcut
  exact ⟨String.toList_inj.1 htext, (List.cons.inj hrest).2⟩

/-- What a mark opens is told from every other opening, and from what stands behind it. -/
theorem opener_append_inj (hk : k.rendered? = some k) (hk' : k'.rendered? = some k')
    (hq : Quotable k.hrefs) (hq' : Quotable k'.hrefs) {t t' : Markup}
    (h : k.opener ++ t = k'.opener ++ t') : k = k' ∧ t = t' := by
  have hname (k : Mark) : ∀ c ∈ k.name.toList, c.isLower = true := by
    cases k <;> simp [name]
  have hstop (k : Mark) (t : Markup) : ∀ c ∈ (k.argument ++ '[' :: t).head?, c.isLower = false := by
    cases k <;> simp [argument]
  have hcut : k.name.toList ++ (k.argument ++ '[' :: t) =
      k'.name.toList ++ (k'.argument ++ '[' :: t') := by
    simpa [opener] using h
  obtain ⟨hnames, hrest⟩ := append_inj_of_all (hname k) (hname k') (hstop k t) (hstop k' t') hcut
  rcases eq_or_links_of_name hk hk' (String.toList_inj.1 hnames) with rfl | ⟨href, href', rfl, rfl⟩
  · exact ⟨rfl, by simpa using hrest⟩
  · have hlinks : Markup.quoted href ++ ')' :: '[' :: t = Markup.quoted href' ++ ')' :: '[' :: t' := by
      simpa [argument] using hrest
    obtain ⟨rfl, ht⟩ := quoted_append_inj (hq href (by simp [hrefs])) (hq' href' (by simp [hrefs])) hlinks
    exact ⟨rfl, by simpa using ht⟩

end Mark

/-! ## Signs -/

/-- What inline text is written in. -/
inductive Sign
  | letter (c : Char)
  | opening (k : Mark)
  | closing

namespace Sign

def write : Sign → Markup
  | letter c => Markup.escape [c]
  | opening k => k.opener
  | closing => [']']

/-- An opening is clear if its mark holds no more than is rendered and its link ends where it should. -/
def Clear : Sign → Prop
  | letter _ | closing => True
  | opening k => k.rendered? = some k ∧ Quotable k.hrefs

theorem write_letter (c : Char) :
    (letter c).write = if c ∈ Markup.specialChars then ['\\', c] else [c] := rfl

theorem letter_append_inj {c c' : Char} {t t' : Markup}
    (h : (letter c).write ++ t = (letter c').write ++ t') : c = c' ∧ t = t' := by
  have hbackslash : '\\' ∈ Markup.specialChars := by decide
  rw [write_letter, write_letter] at h
  split at h <;> split at h
  · simpa using h
  · rename_i hc'
    obtain ⟨rfl, -⟩ := List.cons.inj h
    exact absurd hbackslash hc'
  · rename_i hc _
    obtain ⟨rfl, -⟩ := List.cons.inj h
    exact absurd hbackslash hc
  · simpa using h

/-- A letter does not begin as the other signs do. -/
theorem letter_append_ne {c d : Char} (hd : d = '#' ∨ d = ']') {t t' : Markup} :
    (letter c).write ++ t ≠ d :: t' := by
  intro h
  rw [write_letter] at h
  split at h
  · obtain ⟨rfl, -⟩ := List.cons.inj h
    simp at hd
  · rename_i hc
    obtain ⟨rfl, -⟩ := List.cons.inj h
    rcases hd with rfl | rfl <;> exact hc (by decide)

/-- No sign begins another. -/
theorem write_append_inj {a b : Sign} (ha : a.Clear) (hb : b.Clear) {t u : Markup}
    (h : a.write ++ t = b.write ++ u) : a = b ∧ t = u := by
  cases a with
  | letter c =>
    cases b with
    | letter d =>
      obtain ⟨rfl, htu⟩ := letter_append_inj h
      exact ⟨rfl, htu⟩
    | opening k => exact absurd h (letter_append_ne (.inl rfl))
    | closing => exact absurd h (letter_append_ne (.inr rfl))
  | opening k =>
    cases b with
    | letter d => exact absurd h.symm (letter_append_ne (.inl rfl))
    | opening k' =>
      obtain ⟨rfl, htu⟩ := Mark.opener_append_inj ha.1 hb.1 ha.2 hb.2 h
      exact ⟨rfl, htu⟩
    | closing => simp [write, Mark.opener] at h
  | closing =>
    cases b with
    | letter d => exact absurd h.symm (letter_append_ne (.inr rfl))
    | opening k => simp [write, Mark.opener] at h
    | closing => exact ⟨rfl, (List.cons.inj h).2⟩

theorem write_ne_nil (a : Sign) : a.write ≠ [] := by
  cases a with
  | letter c =>
    rw [write_letter]
    split <;> simp
  | opening k => simp [write, Mark.opener]
  | closing => simp [write]

/-- Markup falls into its signs in one way only. -/
theorem flatMap_write_inj {as bs : List Sign} (has : ∀ a ∈ as, a.Clear) (hbs : ∀ b ∈ bs, b.Clear)
    (h : as.flatMap write = bs.flatMap write) : as = bs := by
  induction as generalizing bs with
  | nil =>
    cases bs with
    | nil => rfl
    | cons b bs => simp [write_ne_nil] at h
  | cons a as ih =>
    cases bs with
    | nil => simp [write_ne_nil] at h
    | cons b bs =>
      rw [List.flatMap_cons, List.flatMap_cons] at h
      obtain ⟨rfl, hrest⟩ := write_append_inj (has a (by simp)) (hbs b (by simp)) h
      rw [ih (fun a ha => has a (by simp [ha])) (fun b hb => hbs b (by simp [hb])) hrest]

end Sign

/-! ## Inline text in signs -/

/-- The openings, the last mark outermost, then the letters and a closing for each of the marks. -/
def Inline.signs : Inline → List Sign
  | .text s marks =>
    let rendered := marks.filterMap Mark.rendered?
    rendered.reverse.map .opening ++ s.toList.map .letter
      ++ List.replicate rendered.length .closing
  | .placeholder _ _ => []

theorem Mark.foldl_apply (marks : List Mark) (body : Markup) :
    marks.foldl apply body =
      ((marks.filterMap rendered?).reverse.map Sign.opening).flatMap Sign.write ++
        (body ++ List.replicate (marks.filterMap rendered?).length ']') := by
  induction marks generalizing body with
  | nil => simp
  | cons k marks ih =>
    rw [List.foldl_cons, ih]
    cases hk : k.rendered? with
    | none => rw [apply_of_not_rendered hk, List.filterMap_cons_none hk]
    | some k' =>
      rw [apply_of_rendered hk, List.filterMap_cons_some hk]
      simp [Sign.write, List.replicate_succ]

theorem Sign.flatMap_write_letters (s : List Char) :
    (s.map letter).flatMap write = Markup.escape s := by
  induction s with
  | nil => rfl
  | cons c s ih =>
    rw [List.map_cons, List.flatMap_cons, ih, ← List.singleton_append, Markup.escape_append]
    rfl

theorem Sign.flatMap_write_closings (n : Nat) :
    (List.replicate n closing).flatMap write = List.replicate n ']' := by
  induction n with
  | zero => rfl
  | succ n ih => rw [List.replicate_succ, List.flatMap_cons, ih]; rfl

theorem Inline.render_eq_signs (format : Formatter) (data : Data) (s : String) (marks : List Mark) :
    (Inline.text s marks).render format data =
      .ok ((Inline.text s marks).signs.flatMap Sign.write) := by
  rw [render, Mark.foldl_apply]
  simp [signs, Sign.flatMap_write_letters, Sign.flatMap_write_closings]

/-! ## Normal forms -/

/-- Whether the inline is a run of text. -/
def Inline.IsText (i : Inline) : Prop := ∃ s marks, i = .text s marks

instance : (i : Inline) → Decidable i.IsText
  | .text s marks => isTrue ⟨s, marks, rfl⟩
  | .placeholder _ _ => isFalse fun ⟨_, _, h⟩ => nomatch h

/-- The inline with what is rendered of its marks. -/
def Inline.bare : Inline → Inline
  | .text s marks => .text s (marks.filterMap Mark.rendered?)
  | .placeholder id marks => .placeholder id marks

/-- Puts an inline in front of others; an unmarked text is joined to one that follows. -/
def Inline.joinTo : Inline → List Inline → List Inline
  | .text s [], .text t [] :: is => .text (s ++ t) [] :: is
  | i, is => i :: is

/-- Inline content without what leaves no trace: styles of text, all of a link but its target address,
unmarked texts that are empty, and the seams between unmarked texts. -/
def normalForm (is : List Inline) : List Inline :=
  ((is.map Inline.bare).filter (· ≠ .text "" [])).foldr Inline.joinTo []

/-- A text without marks, if it is not empty. -/
def unmarked (s : List Char) : List Inline := if s = [] then [] else [.text (String.ofList s) []]

/-- Reads signs with some marks open and some text read behind the last opening or closing. A run of
marked text ends with its first closing; the others close nothing that is left. -/
def Sign.read : List Mark → List Char → List Sign → List Inline
  | _, text, [] => unmarked text
  | marks, text, .letter c :: rest => read marks (text ++ [c]) rest
  | marks, text, .opening k :: rest => unmarked text ++ read (k :: marks) [] rest
  | [], text, .closing :: rest => read [] text rest
  | k :: marks, text, .closing :: rest => .text (String.ofList text) (k :: marks) :: read [] [] rest

namespace Sign

theorem read_letters (marks : List Mark) (text s : List Char) (rest : List Sign) :
    read marks text (s.map letter ++ rest) = read marks (text ++ s) rest := by
  induction s generalizing text with
  | nil => simp
  | cons c s ih =>
    rw [List.map_cons, List.cons_append, read, ih]
    simp

theorem read_openings (marks ks : List Mark) (rest : List Sign) :
    read marks [] (ks.map opening ++ rest) = read (ks.reverse ++ marks) [] rest := by
  induction ks generalizing marks with
  | nil => rfl
  | cons k ks ih =>
    rw [List.map_cons, List.cons_append, read, ih]
    simp [unmarked]

theorem read_closings (text : List Char) (n : Nat) (rest : List Sign) :
    read [] text (List.replicate n closing ++ rest) = read [] text rest := by
  induction n with
  | zero => rfl
  | succ n ih => rw [List.replicate_succ, List.cons_append, read, ih]

theorem read_marked (text : List Char) (s : String) (k : Mark) (ks : List Mark) (rest : List Sign) :
    read [] text ((k :: ks).reverse.map opening ++ (s.toList.map letter ++
      (List.replicate (k :: ks).length closing ++ rest))) =
      unmarked text ++ .text s (k :: ks) :: read [] [] rest := by
  obtain ⟨outer, inner, hmarks⟩ : ∃ outer inner, (k :: ks).reverse = outer :: inner :=
    List.exists_cons_of_ne_nil (by simp)
  have hback : inner.reverse ++ [outer] = k :: ks := by
    rw [← List.reverse_cons, ← hmarks, List.reverse_reverse]
  rw [hmarks, List.map_cons, List.cons_append, read, read_openings, hback, read_letters,
    List.length_cons, List.replicate_succ, List.cons_append, read, read_closings, List.nil_append,
    String.ofList_toList]

end Sign

namespace Inline

theorem foldr_joinTo_unmarked_append (s t : List Char) (is : List Inline) :
    (unmarked (s ++ t) ++ is).foldr joinTo [] = (unmarked s ++ (unmarked t ++ is)).foldr joinTo [] := by
  by_cases hs : s = []
  · simp [hs, unmarked]
  · by_cases ht : t = []
    · simp [ht, unmarked]
    · simp only [unmarked, hs, ht, List.append_eq_nil_iff, false_and, if_false, List.singleton_append,
        List.foldr_cons]
      cases is.foldr joinTo [] with
      | nil => simp [joinTo]
      | cons i is =>
        rcases i with ⟨u, _ | ⟨k, ks⟩⟩ | ⟨id, marks⟩ <;> simp [joinTo, String.append_assoc]

theorem foldr_joinTo_marked (text : List Char) (s : String) (k : Mark) (ks : List Mark)
    (is : List Inline) :
    (unmarked text ++ .text s (k :: ks) :: is).foldr joinTo [] =
      unmarked text ++ .text s (k :: ks) :: is.foldr joinTo [] := by
  by_cases htext : text = []
  · simp [htext, unmarked, joinTo]
  · simp [htext, unmarked, joinTo]

end Inline

/-- The signs of inline text give it back in normal form. -/
theorem Sign.read_signs {is : List Inline} (h : ∀ i ∈ is, i.IsText) (text : List Char) :
    read [] text (is.flatMap Inline.signs) =
      (unmarked text ++ (is.map Inline.bare).filter (· ≠ .text "" [])).foldr Inline.joinTo [] := by
  induction is generalizing text with
  | nil =>
    by_cases htext : text = [] <;> simp [read, unmarked, htext, Inline.joinTo]
  | cons i is ih =>
    obtain ⟨s, marks, rfl⟩ := h i (by simp)
    have ih := ih fun j hj => h j (by simp [hj])
    rw [List.flatMap_cons, List.map_cons, Inline.signs, Inline.bare]
    cases hmarks : marks.filterMap Mark.rendered? with
    | nil =>
      have hfilter (l : List Inline) : (Inline.text s [] :: l).filter (· ≠ .text "" []) =
          unmarked s.toList ++ l.filter (· ≠ .text "" []) := by
        by_cases hs : s = "" <;> simp [hs, unmarked]
      rw [hfilter, ← Inline.foldr_joinTo_unmarked_append, ← ih]
      simpa using read_letters [] text s.toList _
    | cons k ks =>
      rw [List.filter_cons_of_pos (by simp), Inline.foldr_joinTo_marked]
      have ih := ih []
      simp only [unmarked, if_true, List.nil_append] at ih
      rw [← ih, ← read_marked]
      simp

namespace Inline

theorem signs_bare (i : Inline) : i.bare.signs = i.signs := by
  cases i with
  | placeholder id marks => rfl
  | text s marks =>
    have hidem : (marks.filterMap Mark.rendered?).filterMap Mark.rendered? =
        marks.filterMap Mark.rendered? := by
      rw [List.filterMap_filterMap]
      refine List.filterMap_congr fun k _ => ?_
      cases hk : k.rendered? with
      | none => rfl
      | some k' => exact Mark.rendered?_of_rendered hk
    simp only [bare, signs, hidem]

theorem flatMap_signs_joinTo (i : Inline) (is : List Inline) :
    (joinTo i is).flatMap signs = i.signs ++ is.flatMap signs := by
  unfold joinTo
  split
  · simp [signs]
  · rw [List.flatMap_cons]

end Inline

/-- The normal form is written in the same signs. -/
theorem flatMap_signs_normalForm (is : List Inline) :
    (normalForm is).flatMap Inline.signs = is.flatMap Inline.signs := by
  have hjoin (l : List Inline) :
      (l.foldr Inline.joinTo []).flatMap Inline.signs = l.flatMap Inline.signs := by
    induction l with
    | nil => rfl
    | cons i l ih => rw [List.foldr_cons, Inline.flatMap_signs_joinTo, ih, List.flatMap_cons]
  have hfilter (l : List Inline) :
      (l.filter (· ≠ .text "" [])).flatMap Inline.signs = l.flatMap Inline.signs := by
    induction l with
    | nil => rfl
    | cons i l ih =>
      by_cases hi : i = .text "" []
      · subst hi
        rw [List.filter_cons_of_neg (by simp), ih]
        simp [Inline.signs]
      · rw [List.filter_cons_of_pos (by simpa using hi), List.flatMap_cons, ih, List.flatMap_cons]
  rw [normalForm, hjoin, hfilter, List.flatMap_map]
  simp only [Inline.signs_bare]

/-- Two runs of text have the same signs where they have the same normal form. -/
theorem flatMap_signs_eq_iff {is is' : List Inline} (h : ∀ i ∈ is, i.IsText)
    (h' : ∀ i ∈ is', i.IsText) :
    is.flatMap Inline.signs = is'.flatMap Inline.signs ↔ normalForm is = normalForm is' := by
  constructor
  · intro hsigns
    have hread := Sign.read_signs h []
    rw [hsigns, Sign.read_signs h' []] at hread
    exact hread.symm
  · intro hnormal
    rw [← flatMap_signs_normalForm is, hnormal, flatMap_signs_normalForm is']

theorem Inline.clear_of_mem_signs {i : Inline} (hi : Quotable i.hrefs) : ∀ a ∈ i.signs, a.Clear := by
  intro a ha
  cases i with
  | placeholder id marks => cases ha
  | text s marks =>
    simp only [signs, List.mem_append, List.mem_map, List.mem_reverse, List.mem_filterMap,
      List.mem_replicate] at ha
    rcases ha with (⟨k', ⟨k, hk, hk'⟩, rfl⟩ | ⟨c, -, rfl⟩) | ⟨-, rfl⟩
    · refine ⟨Mark.rendered?_of_rendered hk', ?_⟩
      rw [Mark.hrefs_of_rendered hk']
      exact hi.of_mem hk
    · trivial
    · trivial

theorem renderInlines_eq_signs (format : Formatter) (data : Data) {is : List Inline}
    (h : ∀ i ∈ is, i.IsText) :
    renderInlines format data is = .ok ((is.flatMap Inline.signs).flatMap Sign.write) := by
  induction is with
  | nil => rfl
  | cons i is ih =>
    obtain ⟨s, marks, rfl⟩ := h i (by simp)
    have ih := ih fun j hj => h j (by simp [hj])
    rw [renderInlines] at ih ⊢
    rw [concatM, ih, Inline.render_eq_signs, ok_bind, ok_bind, List.flatMap_cons, List.flatMap_append]
    rfl

/-- **Inline text can be read back.** Two runs of inline text, whose links hold no double quote, are
rendered by whatever formatter and in whatever context, and with the same markup if and only if they have
the same normal form: every letter, every mark in its place and the target address of every link. -/
theorem renderInlines_eq_iff (format format' : Formatter) (data data' : Data) {is is' : List Inline}
    (h : ∀ i ∈ is, i.IsText) (h' : ∀ i ∈ is', i.IsText) (hq : Quotable (is.flatMap Inline.hrefs))
    (hq' : Quotable (is'.flatMap Inline.hrefs)) :
    ∃ m m', renderInlines format data is = .ok m ∧ renderInlines format' data' is' = .ok m' ∧
      (m = m' ↔ normalForm is = normalForm is') := by
  have hclear {is : List Inline} (hq : Quotable (is.flatMap Inline.hrefs)) :
      ∀ a ∈ is.flatMap Inline.signs, a.Clear := by
    intro a ha
    obtain ⟨i, hi, ha⟩ := List.mem_flatMap.1 ha
    exact Inline.clear_of_mem_signs (hq.of_mem hi) a ha
  refine ⟨_, _, renderInlines_eq_signs format data h, renderInlines_eq_signs format' data' h', ?_⟩
  rw [← flatMap_signs_eq_iff h h']
  exact ⟨Sign.flatMap_write_inj (hclear hq) (hclear hq'), fun hsigns => by rw [hsigns]⟩

/-- Signs of markup as text, and in the target of a link inside bold text. -/
def citation : List Inline :=
  [.text "]#[" [], .text "strong[" [.link "a)[\\" (some "author") none, .bold], .text "" [.code]]

/-- The same, cut elsewhere, with a style and another relation of the link. -/
def citationRestyled : List Inline :=
  [.text "]" [.textStyle (some "red")], .text "" [], .text "#[" [],
    .text "strong[" [.link "a)[\\" none (some "_blank"), .textStyle none, .bold], .text "" [.code]]

/-- The same with the marks the other way round: bold text in a link. -/
def citationTurned : List Inline :=
  [.text "]#[" [], .text "strong[" [.bold, .link "a)[\\" none none], .text "" [.code]]

theorem renderInlines_citation :
    (∃ m m', renderInlines (Labels.display {}) .empty citation = .ok m ∧
      renderInlines (Labels.display {}) .empty citationRestyled = .ok m' ∧ m = m') ∧
    ∃ m m', renderInlines (Labels.display {}) .empty citation = .ok m ∧
      renderInlines (Labels.display {}) .empty citationTurned = .ok m' ∧ m ≠ m' := by
  have hcitation : ∀ i ∈ citation, i.IsText := by decide
  have hrestyled : ∀ i ∈ citationRestyled, i.IsText := by decide
  have hturned : ∀ i ∈ citationTurned, i.IsText := by decide
  constructor
  · obtain ⟨m, m', hm, hm', hiff⟩ :=
      renderInlines_eq_iff _ _ .empty .empty hcitation hrestyled (by decide) (by decide)
    exact ⟨m, m', hm, hm', hiff.2 (by decide)⟩
  · obtain ⟨m, m', hm, hm', hiff⟩ :=
      renderInlines_eq_iff _ _ .empty .empty hcitation hturned (by decide) (by decide)
    exact ⟨m, m', hm, hm', fun h => absurd (hiff.1 h) (by decide)⟩

end FormPress
