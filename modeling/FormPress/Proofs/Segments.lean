import FormPress.Proofs.Decided
import FormPress.Proofs.Glyphs
/-!
# Segments of compiled documents

If no link and no language has a double quote in it, compiled markup is well nested, whatever the
texts and values. Its lines are the opening lines and one line for each block that is shown and not
empty, and the commas of a list separate its items.
-/
namespace FormPress

open Markup (Closed Line WellNested)

/-! ## Links -/

def Mark.hrefs : Mark → List String
  | .link href _ _ => [href]
  | _ => []

/-- The targets of the links that are rendered: a place shows none. -/
def Inline.hrefs : Inline → List String
  | .text _ marks => marks.flatMap Mark.hrefs
  | .placeholder _ _ => []

def ItemBlock.hrefs : ItemBlock → List String
  | .heading h => h.content.flatMap Inline.hrefs
  | .paragraph p => p.content.flatMap Inline.hrefs

def Block.hrefs : Block → List String
  | .item b => b.hrefs
  | .list _ items => items.flatMap (·.content.flatMap ItemBlock.hrefs)
  | .rows _ repeated => repeated.template.flatMap ItemBlock.hrefs

def Node.hrefs : Node → List String
  | .block b => b.hrefs
  | .conditional _ blocks => blocks.flatMap Block.hrefs

def Document.hrefs (doc : Document) : List String := doc.content.flatMap Node.hrefs

/-- None of the texts ends a string before its end. -/
def Quotable (texts : List String) : Prop := ∀ s ∈ texts, '"' ∉ s.toList

instance (texts : List String) : Decidable (Quotable texts) := List.decidableBAll _ texts

theorem Quotable.of_mem {α : Type} {f : α → List String} {l : List α} (h : Quotable (l.flatMap f))
    {a : α} (ha : a ∈ l) : Quotable (f a) :=
  fun s hs => h s (List.mem_flatMap.2 ⟨a, ha, hs⟩)

/-! ## What is rendered is closed -/

theorem Mark.closed_apply {m : Markup} (hm : Closed [] m) {k : Mark} (hk : Quotable k.hrefs) :
    Closed [] (k.apply m) := by
  cases k with
  | bold | italic | underline | highlight | strike | code =>
    exact hm.command (.hash (by decide) (by decide) (by decide)) (by decide)
  | textStyle color => exact hm
  | link href rel target =>
    refine hm.commandWith ?_ (by decide)
    have hquoted : Closed [] ('#' :: ("link".toList ++ ['(']) ++ Markup.quoted href) :=
      .quoted (by decide) (hk href (by simp [hrefs])) (by decide)
    have hclose : Closed [] [')'] := .plain (by decide)
    simpa using hquoted.append hclose

theorem Mark.closed_foldl_apply {marks : List Mark} (h : Quotable (marks.flatMap Mark.hrefs))
    {m : Markup} (hm : Closed [] m) : Closed [] (marks.foldl Mark.apply m) := by
  induction marks generalizing m with
  | nil => exact hm
  | cons k marks ih =>
    exact ih (fun s hs => h s (by simp [hs])) (closed_apply hm (h.of_mem (by simp)))

theorem closed_concatM {ε α : Type} {stops : List Char} {render : α → Except ε Markup} {l : List α}
    (h : ∀ a ∈ l, ∀ m, render a = .ok m → Closed stops m) {m : Markup}
    (hm : concatM render l = .ok m) : Closed stops m := by
  obtain ⟨ms, hms, rfl⟩ := concatM_eq_ok_iff.1 hm
  refine .flatten fun m hm => ?_
  obtain ⟨a, ha, hr⟩ := exists_of_mem_right hms hm
  exact h a ha m hr

variable {format : Formatter} {data : Data} {m : Markup}

theorem Inline.closed_render {i : Inline} (hi : Quotable i.hrefs)
    (hm : i.render format data = .ok m) : Closed [] m := by
  cases i with
  | text s marks => cases hm; exact Mark.closed_foldl_apply hi (.escape _)
  | placeholder id marks =>
    rw [render] at hm
    split at hm
    · cases hm; exact .nil
    · obtain ⟨s, -, rfl⟩ := map_eq_ok_iff.1 hm
      exact .escape _

theorem closed_renderInlines {is : List Inline} (his : Quotable (is.flatMap Inline.hrefs))
    (hm : renderInlines format data is = .ok m) : Closed [] m :=
  closed_concatM (fun _ hi _ hm => Inline.closed_render (his.of_mem hi) hm) hm

theorem Paragraph.line_wrap (hm : Closed [] m) : Line (wrap m) :=
  ⟨_, rfl, hm.command (.hash (by decide) (by decide) (by decide)) (by decide)⟩

theorem plain_numeral (n : Nat) : Markup.Plain ['\n'] (Text.numeral n) := by
  have hdigit : ∀ c ∈ ['\\', '#', '[', ']', '\n'], c.isDigit = false := by simp
  exact fun c hc hmem => Text.notMem_numeral (hdigit c hmem) n hc

theorem Heading.closed_command (level : Nat) (hm : Closed [] m) :
    Closed ['\n'] (.commandWith "heading" ("level: ".toList ++ Text.numeral level) m) := by
  refine hm.commandWith ?_ (by decide)
  have hname : Closed ['\n'] ('#' :: "heading(level: ".toList) :=
    .hash (by decide) (by decide) (by decide)
  have hclose : Closed ['\n'] [')'] := .plain (by decide)
  simpa using hname.append ((Closed.plain (plain_numeral level)).append hclose)

theorem TextAlign.closed_wrap (hm : Closed ['\n'] ('#' :: m)) :
    ∀ a : Option TextAlign, ∃ body, wrap a ('#' :: m) = '#' :: body ∧ Closed ['\n'] ('#' :: body)
  | some .center | some .right =>
    ⟨_, rfl, (hm.mono (List.nil_subset _)).commandWith (.hash (by decide) (by decide) (by decide))
      (by decide)⟩
  | some .left | some .justify | none => ⟨m, rfl, hm⟩

theorem Heading.line_wrap (h : Heading) (hm : Closed [] m) : Line (h.wrap m) := by
  obtain ⟨body, hbody, hclosed⟩ := TextAlign.closed_wrap (closed_command h.level.toNat hm) h.align
  exact ⟨body, congrArg (· ++ ['\n']) hbody, hclosed⟩

theorem ItemBlock.line_render {b : ItemBlock} (hb : Quotable b.hrefs)
    (hm : b.render format data = .ok m) : Line m := by
  cases b with
  | heading h =>
    obtain ⟨body, hbody, rfl⟩ := map_eq_ok_iff.1 hm
    exact h.line_wrap (closed_renderInlines hb hbody)
  | paragraph p =>
    obtain ⟨body, hbody, rfl⟩ := map_eq_ok_iff.1 hm
    exact Paragraph.line_wrap (closed_renderInlines hb hbody)

/-- An item is a group in brackets. -/
theorem closed_renderItem {content : List ItemBlock}
    (hcontent : Quotable (content.flatMap ItemBlock.hrefs))
    (hm : renderItem format data content = .ok m) :
    ∃ body, m = .bracketed body ∧ Closed [] body := by
  unfold renderItem at hm
  split at hm
  · obtain ⟨body, hbody, rfl⟩ := map_eq_ok_iff.1 hm
    exact ⟨body, rfl, closed_renderInlines (hcontent.of_mem (List.mem_singleton_self _)) hbody⟩
  · obtain ⟨body, hbody, rfl⟩ := map_eq_ok_iff.1 hm
    refine ⟨body, rfl, closed_concatM (fun b hb m hm => ?_) hbody⟩
    exact (ItemBlock.line_render (hcontent.of_mem hb) hm).closed

/-! ## Lists -/

/-- A list command with `inner` in its parentheses. -/
def ListStyle.around (style : ListStyle) (inner : Markup) : Markup :=
  '#' :: (style.command.toList ++ '(' :: (inner ++ ")\n".toList))

theorem ListStyle.wrap_eq_around (style : ListStyle) {ms : List Markup} (h : ms ≠ []) :
    style.wrap ms = style.around ([','].intercalate ms) := by
  cases ms with
  | nil => exact absurd rfl h
  | cons m ms => rfl

theorem ListStyle.around_inj {style style' : ListStyle} {inner inner' : Markup}
    (h : style.around inner = style'.around inner') : style = style' ∧ inner = inner' := by
  cases style <;> cases style' <;> simp [around, command] at h ⊢ <;> exact h

theorem closed_intercalate {stops : List Char} {ms : List Markup} (h : ∀ m ∈ ms, Closed stops m)
    (hcomma : Closed stops [',']) : Closed stops ([','].intercalate ms) := by
  induction ms with
  | nil => exact .nil
  | cons m ms ih =>
    have ih := ih fun n hn => h n (by simp [hn])
    cases ms with
    | nil => simpa using h m (by simp)
    | cons n ms => simpa using (h m (by simp)).append (hcomma.append ih)

theorem ListStyle.line_around (style : ListStyle) {inner : Markup} (h : Closed ['\n'] inner) :
    Line (style.around inner) := by
  have hname : Closed ['\n'] ('#' :: (style.command.toList ++ ['('])) := by
    cases style <;> exact .hash (by decide) (by decide) (by decide)
  have hclose : Closed ['\n'] [')'] := .plain (by decide)
  refine ⟨style.command.toList ++ '(' :: (inner ++ [')']), by simp [around], ?_⟩
  simpa using hname.append (h.append hclose)

/-! ## Segments -/

variable {ctx : Context} {b : Block} {style : ListStyle} {items : List (Data × List ItemBlock)}

/-- If there is an item, `m` is a list command; and if `m` is one, then each item has a group in
brackets of its own between the commas that stand at depth 0, in order. -/
def Block.Itemized (format : Formatter) (ctx : Context) (b : Block) (m : Markup) : Prop :=
  (∀ style items, b.items? ctx = some (style, items) → items ≠ [] → ∃ inner, m = style.around inner) ∧
  ∀ style inner, m = style.around inner → ∃ items, b.items? ctx = some (style, items) ∧
    List.Forall₂ (fun item group => renderItem format item.1 item.2 = .ok group ∧
      ∃ body, group = .bracketed body ∧ WellNested body) items (Markup.items inner)

theorem Block.quotable_items (hb : Quotable b.hrefs) (h : b.items? ctx = some (style, items))
    {item : Data × List ItemBlock} (hitem : item ∈ items) :
    Quotable (item.2.flatMap ItemBlock.hrefs) := by
  match b, h with
  | .list _ written, h =>
    cases h
    obtain ⟨w, hw, rfl⟩ := List.mem_map.1 hitem
    exact hb.of_mem hw
  | .rows _ repeated, h =>
    cases h
    unfold RowList.items at hitem
    split at hitem
    · cases hitem
    · obtain ⟨row, -, rfl⟩ := List.mem_map.1 hitem
      exact hb

theorem ItemBlock.render_ne_around {b : ItemBlock} (hm : b.render format data = .ok m)
    (style : ListStyle) (inner : Markup) : m ≠ style.around inner := by
  cases b with
  | heading h =>
    obtain ⟨body, -, rfl⟩ := map_eq_ok_iff.1 hm
    unfold Heading.wrap TextAlign.wrap ListStyle.around
    cases style <;> rcases h.align with _ | (_ | _ | _ | _) <;>
      simp [Markup.commandWith, ListStyle.command]
  | paragraph p =>
    obtain ⟨body, -, rfl⟩ := map_eq_ok_iff.1 hm
    unfold Paragraph.wrap ListStyle.around
    cases style <;> simp [Markup.command, ListStyle.command]

theorem Block.segment_wrap (hb : b.items? ctx = some (style, items)) {ms : List Markup}
    (hms : List.Forall₂ (fun item group => renderItem format item.1 item.2 = .ok group ∧
      ∃ body, group = .bracketed body ∧ Closed [] body) items ms) :
    (style.wrap ms = [] ∨ Line (style.wrap ms)) ∧ b.Itemized format ctx (style.wrap ms) := by
  by_cases hne : ms = []
  · subst hne
    cases hms
    refine ⟨.inl rfl, fun _ items' h hne => ?_, fun style' inner h => ?_⟩
    · rw [hb] at h; cases h; exact absurd rfl hne
    · cases h
  have hclosed (stops : List Char) (hstops : '[' ∉ stops) : ∀ g ∈ ms, Closed stops g := by
    intro g hg
    obtain ⟨-, -, -, body, rfl, h⟩ := exists_of_mem_right hms hg
    exact h.bracketed hstops
  rw [style.wrap_eq_around hne]
  refine ⟨.inr ?_, fun style' items' h _ => ?_, fun style' inner h => ?_⟩
  · exact style.line_around (closed_intercalate (hclosed _ (by decide)) (.plain (by decide)))
  · rw [hb] at h; cases h; exact ⟨_, rfl⟩
  · obtain ⟨rfl, rfl⟩ := ListStyle.around_inj h
    refine ⟨items, hb, ?_⟩
    rw [Markup.items_intercalate hne (hclosed _ (by decide))]
    exact hms.imp fun _ _ ⟨hr, body, hg, h⟩ => ⟨hr, body, hg, h.wellNested⟩

theorem Block.segment_render (h : AllDecided (b.reached ctx)) (hb : Quotable b.hrefs)
    (hm : b.render format ctx = .ok m) : (m = [] ∨ Line m) ∧ b.Itemized format ctx m := by
  cases hitems : b.items? ctx with
  | none =>
    match b, hitems with
    | .item b, _ =>
      have hm := orAbort_eq_ok_iff.1 hm
      refine ⟨.inr (b.line_render hb hm), ?_, fun style inner h => ?_⟩
      · rintro _ _ ⟨⟩
      · exact absurd h (b.render_ne_around hm style inner)
  | some found =>
    obtain ⟨style, items⟩ := found
    rw [render_eq_items h hitems] at hm
    obtain ⟨ms, hms, rfl⟩ := map_eq_ok_iff.1 hm
    have hms := mapM_eq_ok_iff.1 (orAbort_eq_ok_iff.1 hms)
    have hquotable : ∀ item ∈ items, Quotable (item.2.flatMap ItemBlock.hrefs) :=
      fun item hitem => quotable_items hb hitems hitem
    exact segment_wrap hitems (((List.forall₂_and_left _ _).2 ⟨hquotable, hms⟩).imp
      fun item group ⟨hq, hr⟩ => ⟨hr, closed_renderItem hq hr⟩)

/-! ## Documents -/

/-- The lines before the first node: two, and one for the language if there is one. -/
def Document.openingLines (doc : Document) : List Markup :=
  Markup.linkStyleLine :: (doc.language.toList.map Markup.languageLine ++
    [Markup.titleLine (Markup.escape doc.title.toList)])

theorem Document.flatten_openingLines (doc : Document) : doc.openingLines.flatten = doc.opening := by
  unfold openingLines opening
  cases doc.language <;> simp

theorem Document.line_of_mem_openingLines {doc : Document}
    (hlanguage : Quotable doc.language.toList) : ∀ l ∈ doc.openingLines, Line l := by
  intro l hl
  simp only [openingLines, List.mem_cons, List.mem_append, List.mem_map, List.not_mem_nil,
    or_false] at hl
  have hclose : Closed ['\n'] [')'] := .plain (by decide)
  -- The end is split off by `change`: to rewrite with the literal takes it apart each time.
  rcases hl with rfl | ⟨language, hl, rfl⟩ | rfl
  · exact ⟨"show link: set text(fill: blue)".toList, rfl, .hash (by decide) (by decide) (by decide)⟩
  · have hquoted : Closed ['\n'] ("#set text(lang: ".toList ++ Markup.quoted language) :=
      .quoted (by decide) (hlanguage language hl) (by decide)
    change Line (_ ++ ([')'] ++ ['\n']))
    rw [← List.append_assoc]
    exact (hquoted.append hclose).line rfl
  · have hname : Closed ['\n'] "#set document(title: ".toList :=
      .hash (by decide) (by decide) (by decide)
    have htitle : Closed ['\n'] (.bracketed (Markup.escape doc.title.toList)) :=
      (Closed.escape doc.title.toList).bracketed (by decide)
    change Line (_ ++ ([')'] ++ ['\n']))
    rw [← List.append_assoc]
    exact ((hname.append htitle).append hclose).line rfl

theorem Document.quotable_of_shown {doc : Document} (h : Quotable doc.hrefs)
    (hb : b ∈ doc.shown ctx) : Quotable b.hrefs := by
  obtain ⟨n, hn, hb⟩ := List.mem_flatMap.1 hb
  have hn : Quotable n.hrefs := h.of_mem hn
  cases n with
  | block b' =>
    obtain rfl : b = b' := by simpa [Node.shown] using hb
    exact hn
  | conditional c blocks =>
    have hb : b ∈ blocks := by
      rw [Node.shown] at hb
      split at hb
      · exact hb
      · cases hb
    exact hn.of_mem hb

/-- **Compiled markup is well nested, and falls into its lines.** These are the opening lines and the
segments of the blocks that are shown, but for the empty ones; each starts with a command, and a segment
that is a list has one group in brackets for each item. -/
theorem Document.lines_compileWith (format : Formatter) (doc : Document) (ctx : Context)
    (hhrefs : Quotable doc.hrefs) (hlanguage : Quotable doc.language.toList) {text : String}
    (h : doc.compileWith format ctx = .ok text) :
    WellNested text.toList ∧
      ∃ segments, List.Forall₂ (fun b m => b.render format ctx = .ok m ∧ b.Itemized format ctx m)
          (doc.shown ctx) segments ∧
        Markup.lines text.toList = doc.openingLines ++ segments.filter (· ≠ []) ∧
        ∀ l ∈ Markup.lines text.toList, ∃ rest, l = '#' :: rest := by
  have hdecided := (doc.follows_compileWith format ctx).allDecided h
  obtain ⟨segments, hsegments, htext⟩ := exists_segments h
  have hshown : List.Forall₂ (fun b m => b.render format ctx = .ok m ∧
      (m = [] ∨ Line m) ∧ b.Itemized format ctx m) (doc.shown ctx) segments := by
    refine ((List.forall₂_and_left _ _).2 ⟨fun b hb => hb, hsegments⟩).imp ?_
    rintro b m ⟨hb, hr⟩
    exact ⟨hr, Block.segment_render (allDecided_of_shown hdecided hb) (quotable_of_shown hhrefs hb) hr⟩
  have hlines : ∀ l ∈ doc.openingLines ++ segments.filter (· ≠ []), Line l := by
    intro l hl
    rcases List.mem_append.1 hl with hl | hl
    · exact line_of_mem_openingLines hlanguage l hl
    · obtain ⟨hmem, hne⟩ := List.mem_filter.1 hl
      obtain ⟨-, -, -, hempty | hline, -⟩ := exists_of_mem_right hshown hmem
      · simp [hempty] at hne
      · exact hline
  have htext : text.toList = (doc.openingLines ++ segments.filter (· ≠ [])).flatten := by
    rw [htext, List.flatten_append, doc.flatten_openingLines, List.flatten_filter_ne_nil]
  rw [htext, Markup.lines_flatten hlines]
  refine ⟨(Closed.flatten fun l hl => (hlines l hl).closed).wellNested, segments,
    hshown.imp fun _ _ ⟨hr, _, hi⟩ => ⟨hr, hi⟩, rfl, fun l hl => ?_⟩
  obtain ⟨rest, rfl, -⟩ := hlines l hl
  exact ⟨_, rfl⟩

/-- Brackets, commas and newlines in every text, and a value that looks like a link. -/
def receipt : Document :=
  ⟨"],[\n\\", some "en", [
    .conditional (.all []) [
      .item (.paragraph ⟨none, [.text "a],[\n" [.link "x\\" none none], .placeholder "note" []]⟩),
      .list .ordered [⟨[.heading ⟨2, some .right, [.text "," []]⟩, .paragraph ⟨none, []⟩]⟩, ⟨[]⟩]],
    .block (.rows .bullet ⟨"goods", none, [.paragraph ⟨none, [.placeholder "name" []]⟩]⟩)]⟩

def receiptContext : Context :=
  ⟨FieldMap.empty.insert "note" (.text "]#link(\"["), some (FieldMap.empty.insert "goods"
    [FieldMap.empty.insert "name" (.text "],["), .empty])⟩

theorem lines_receipt :
    Quotable receipt.hrefs ∧ Quotable receipt.language.toList ∧
      ∃ text, receipt.compile {} receiptContext = .ok text ∧ WellNested text.toList ∧
        ∃ segments, List.Forall₂ (fun b m => b.render (Labels.display {}) receiptContext = .ok m ∧
            b.Itemized (Labels.display {}) receiptContext m) (receipt.shown receiptContext) segments ∧
          Markup.lines text.toList = receipt.openingLines ++ segments.filter (· ≠ []) ∧
          ∀ l ∈ Markup.lines text.toList, ∃ rest, l = '#' :: rest := by
  have hhrefs : Quotable receipt.hrefs := by decide
  have hlanguage : Quotable receipt.language.toList := by decide
  obtain ⟨text, h⟩ : ∃ text, receipt.compile {} receiptContext = .ok text := ⟨_, rfl⟩
  exact ⟨hhrefs, hlanguage, text, h,
    receipt.lines_compileWith (Labels.display {}) receiptContext hhrefs hlanguage h⟩

end FormPress
