import FormPress.Proofs.Decided
import FormPress.Proofs.Skeleton
/-!
# Texts and values add no markup

Two documents that differ in their texts alone, compiled against whatever values and formatters, have
markup of one skeleton: it is settled by the documents' structure, the verdicts of their conditions
and the number of rows.
-/
namespace FormPress

open Markup (Same)

/-! ## Documents without their texts -/

def Inline.eraseText : Inline → Inline
  | .text _ marks => .text "" marks
  | .placeholder id marks => .placeholder id marks

def ItemBlock.eraseText : ItemBlock → ItemBlock
  | .heading h => .heading { h with content := h.content.map Inline.eraseText }
  | .paragraph p => .paragraph { p with content := p.content.map Inline.eraseText }

def ListItem.eraseText (item : ListItem) : ListItem := ⟨item.content.map ItemBlock.eraseText⟩

def RowList.eraseText (rows : RowList) : RowList :=
  { rows with template := rows.template.map ItemBlock.eraseText }

def Block.eraseText : Block → Block
  | .item b => .item b.eraseText
  | .list style items => .list style (items.map ListItem.eraseText)
  | .rows style repeated => .rows style repeated.eraseText

def Node.eraseText : Node → Node
  | .block b => .block b.eraseText
  | .conditional c blocks => .conditional c (blocks.map Block.eraseText)

/-- The document with its title and all of its texts emptied: what else it is made of stays. -/
def Document.eraseText (doc : Document) : Document :=
  { doc with title := "", content := doc.content.map Node.eraseText }

/-! ## Contexts that agree -/

/-- The condition has a verdict on both, and it is the same. -/
def Condition.Agrees (c : Condition) (data data' : Data) : Prop :=
  ∃ b, c.evaluate data = .ok b ∧ c.evaluate data' = .ok b

/-- Both have as many rows for the list, or both have none under its id, and the filter agrees on
each pair of rows. -/
def RowList.Agrees (rows : RowList) (ctx ctx' : Context) : Prop :=
  Option.Rel (List.Forall₂ fun row row' => ∀ filter ∈ rows.filter, filter.Agrees row row')
    (ctx.rows? rows.id) (ctx'.rows? rows.id)

def Block.Agrees (ctx ctx' : Context) : Block → Prop
  | .item _ | .list _ _ => True
  | .rows _ repeated => repeated.Agrees ctx ctx'

def Node.Agrees (ctx ctx' : Context) : Node → Prop
  | .block b => b.Agrees ctx ctx'
  | .conditional c blocks => c.Agrees ctx.data ctx'.data ∧ ∀ b ∈ blocks, b.Agrees ctx ctx'

/-- The contexts are alike in what can change the structure of the compiled document; the values
themselves do not matter, nor which of them are there. -/
def Document.Agrees (doc : Document) (ctx ctx' : Context) : Prop :=
  ∀ n ∈ doc.content, n.Agrees ctx ctx'

/-! ## Two renderings side by side -/

variable {format format' : Formatter}

theorem BothUnless.concatM {ε α β : Type} {P : ε → Prop} {f : α → β}
    {render render' : α → Except ε Markup} {l l' : List α} (hl : l.map f = l'.map f)
    (h : ∀ a ∈ l, ∀ b, f a = f b → BothUnless P Same (render a) (render' b)) :
    BothUnless P Same (concatM render l) (concatM render' l') := by
  rw [concatM_eq_mapM, concatM_eq_mapM]
  exact (BothUnless.mapM hl h).map fun ms ms' hms => .flatten hms

theorem Inline.render_placeholder (format : Formatter) (data : Data) (id : String) (marks : List Mark) :
    (∃ a, render format data (.placeholder id marks) = .error a) ∨
      ∃ s, render format data (.placeholder id marks) = .ok (Markup.escape s) := by
  rw [render]
  split
  · exact .inr ⟨[], rfl⟩
  · rename_i v _
    cases format v with
    | error a => exact .inl ⟨a, rfl⟩
    | ok s => exact .inr ⟨s.toList, rfl⟩

theorem Inline.same_render {i i' : Inline} (h : i.eraseText = i'.eraseText) (data data' : Data) :
    BothUnless (fun _ => True) Same (i.render format data) (i'.render format' data') := by
  match i, i', h with
  | .text s marks, .text s' _, h =>
    obtain ⟨-, rfl⟩ := Inline.text.inj h
    exact .both (Mark.same_foldl_apply marks (.escape _ _))
  | .placeholder id marks, .placeholder id' marks', _ =>
    rcases render_placeholder format data id marks with ⟨a, ha⟩ | ⟨s, hs⟩
    · rw [ha]; exact .left trivial _
    rcases render_placeholder format' data' id' marks' with ⟨a, ha⟩ | ⟨s', hs'⟩
    · rw [ha]; exact .right _ trivial
    rw [hs, hs']
    exact .both (.escape s s')

theorem same_renderInlines {is is' : List Inline}
    (h : is.map Inline.eraseText = is'.map Inline.eraseText) (data data' : Data) :
    BothUnless (fun _ => True) Same (renderInlines format data is) (renderInlines format' data' is') :=
  .concatM h fun _ _ _ hi => Inline.same_render hi data data'

theorem ItemBlock.same_render {b b' : ItemBlock} (h : b.eraseText = b'.eraseText)
    (data data' : Data) :
    BothUnless (fun _ => True) Same (b.render format data) (b'.render format' data') := by
  match b, b', h with
  | .heading ⟨level, align, is⟩, .heading ⟨_, _, is'⟩, h =>
    simp only [eraseText, heading.injEq, Heading.mk.injEq] at h
    obtain ⟨rfl, rfl, h⟩ := h
    exact (same_renderInlines h data data').map fun m m' hm => Heading.same_wrap _ hm
  | .paragraph ⟨_, is⟩, .paragraph ⟨_, is'⟩, h =>
    simp only [eraseText, paragraph.injEq, Paragraph.mk.injEq] at h
    exact (same_renderInlines h.2 data data').map fun m m' hm => Paragraph.same_wrap hm

/-- Whether an item is a paragraph alone does not hang on its texts. -/
theorem eq_paragraph_of_eraseText {p : Paragraph} {content : List ItemBlock}
    (h : content.map ItemBlock.eraseText = [ItemBlock.paragraph p].map ItemBlock.eraseText) :
    ∃ p', content = [.paragraph p'] ∧
      p'.content.map Inline.eraseText = p.content.map Inline.eraseText := by
  obtain ⟨b, rfl, hb⟩ := List.map_eq_singleton_iff.1 h
  cases b with
  | heading _ => cases hb
  | paragraph p' =>
    simp only [ItemBlock.eraseText, ItemBlock.paragraph.injEq, Paragraph.mk.injEq] at hb
    exact ⟨p', rfl, hb.2⟩

theorem same_renderItem {content content' : List ItemBlock}
    (h : content.map ItemBlock.eraseText = content'.map ItemBlock.eraseText) (data data' : Data) :
    BothUnless (fun _ => True) Same (renderItem format data content)
      (renderItem format' data' content') := by
  -- A paragraph alone loses its command, so on both sides there has to be one, or on neither.
  by_cases hp : ∃ p, content = [.paragraph p]
  · obtain ⟨p, rfl⟩ := hp
    obtain ⟨p', rfl, hp'⟩ := eq_paragraph_of_eraseText h.symm
    exact (same_renderInlines hp'.symm data data').map fun m m' hm => hm.bracketed
  · have hp' : ∀ p, content' ≠ [.paragraph p] := by
      rintro p rfl
      obtain ⟨q, hq, -⟩ := eq_paragraph_of_eraseText h
      exact hp ⟨q, hq⟩
    rw [renderItem_eq_concatM fun p hc => hp ⟨p, hc⟩, renderItem_eq_concatM hp']
    refine BothUnless.map (BothUnless.concatM h fun b _ b' hb => ?_) fun m m' hm => hm.bracketed
    exact ItemBlock.same_render hb data data'

/-- Kept on the one side, a row is kept on the other. -/
theorem RowList.keeps_of_agrees {rows rows' : RowList} (hrows : rows.filter = rows'.filter)
    {row row' : Data} (h : ∀ filter ∈ rows.filter, filter.Agrees row row') :
    ∃ b, rows.keeps row = .ok b ∧ rows'.keeps row' = .ok b := by
  unfold keeps
  rw [← hrows]
  cases hf : rows.filter with
  | none => exact ⟨true, rfl, rfl⟩
  | some filter =>
    obtain ⟨b, hb, hb'⟩ := h filter hf
    exact ⟨b, blame_eq_ok_iff.2 hb, blame_eq_ok_iff.2 hb'⟩

theorem RowList.same_renderRows {rows rows' : RowList} (h : rows.eraseText = rows'.eraseText)
    {data data' : List Data}
    (hdata : List.Forall₂ (fun row row' => ∀ filter ∈ rows.filter, filter.Agrees row row') data data') :
    BothUnless Failure.IsAbort (List.Forall₂ Same) (rows.renderRows format data)
      (rows'.renderRows format' data') := by
  obtain ⟨-, hfilter, htemplate⟩ := RowList.mk.inj h
  induction hdata with
  | nil => exact .both .nil
  | cons hrow _ ih =>
    obtain ⟨b, hb, hb'⟩ := keeps_of_agrees hfilter hrow
    rw [renderRows, renderRows, hb, hb', ok_bind, ok_bind]
    cases b with
    | false => exact ih
    | true =>
      refine (same_renderItem htemplate _ _).orAbort.bind fun m m' hm => ?_
      exact ih.map fun ms ms' hms => .cons hm hms

theorem RowList.same_render {rows rows' : RowList} (h : rows.eraseText = rows'.eraseText)
    {ctx ctx' : Context} (hctx : rows.Agrees ctx ctx') (style : ListStyle) :
    BothUnless Failure.IsAbort Same (rows.render format ctx style) (rows'.render format' ctx' style) := by
  obtain ⟨hid, -, htemplate⟩ := RowList.mk.inj h
  unfold Agrees Context.rows? at hctx
  unfold render
  rw [← hid]
  generalize ctx.subData.bind (·.get? rows.id) = data? at hctx ⊢
  generalize ctx'.subData.bind (·.get? rows.id) = data?' at hctx ⊢
  cases hctx with
  | none => exact .both .nil
  | some hdata =>
    cases ht : rows.template with
    | nil =>
      rw [ht, List.map_nil, eq_comm, List.map_eq_nil_iff] at htemplate
      rw [htemplate]
      exact .both .nil
    | cons t ts =>
      cases ht' : rows'.template with
      | nil => rw [ht, ht'] at htemplate; cases htemplate
      | cons t' ts' => exact (same_renderRows h hdata).map fun ms ms' hms => style.same_wrap hms

theorem Block.same_render {b b' : Block} (h : b.eraseText = b'.eraseText) {ctx ctx' : Context}
    (hctx : b.Agrees ctx ctx') :
    BothUnless Failure.IsAbort Same (b.render format ctx) (b'.render format' ctx') := by
  match b, b', h with
  | .item b, .item b', h => exact (ItemBlock.same_render (Block.item.inj h) _ _).orAbort
  | .list style items, .list _ items', h =>
    obtain ⟨rfl, hitems⟩ := Block.list.inj h
    refine BothUnless.orAbort (BothUnless.map ?_ fun ms ms' hms => style.same_wrap hms)
    refine .mapM hitems fun item _ item' hitem => ?_
    exact same_renderItem (ListItem.mk.inj hitem) ctx.data ctx'.data
  | .rows style repeated, .rows _ repeated', h =>
    obtain ⟨rfl, hrows⟩ := Block.rows.inj h
    exact RowList.same_render hrows hctx style

theorem same_renderBlocks {blocks blocks' : List Block}
    (h : blocks.map Block.eraseText = blocks'.map Block.eraseText) {ctx ctx' : Context}
    (hctx : ∀ b ∈ blocks, b.Agrees ctx ctx') :
    BothUnless Failure.IsAbort Same (concatM (Block.render format ctx) blocks)
      (concatM (Block.render format' ctx') blocks') :=
  .concatM h fun b hb _ he => Block.same_render he (hctx b hb)

theorem Node.same_render {n n' : Node} (h : n.eraseText = n'.eraseText) {ctx ctx' : Context}
    (hctx : n.Agrees ctx ctx') :
    BothUnless Failure.IsAbort Same (n.render format ctx) (n'.render format' ctx') := by
  match n, n', h with
  | .block b, .block b', h => exact Block.same_render (Node.block.inj h) hctx
  | .conditional c blocks, .conditional _ blocks', h =>
    obtain ⟨rfl, hblocks⟩ := Node.conditional.inj h
    obtain ⟨⟨b, hb, hb'⟩, hctx⟩ := hctx
    rw [render, render, blame_eq_ok_iff.2 hb, blame_eq_ok_iff.2 hb', ok_bind, ok_bind]
    cases b with
    | false => exact .both .nil
    | true => exact same_renderBlocks hblocks hctx

theorem Document.same_opening {doc doc' : Document} (h : doc.language = doc'.language) :
    Same doc.opening doc'.opening := by
  have hlanguage : Same (doc.language.elim [] Markup.languageLine)
      (doc'.language.elim [] Markup.languageLine) := by
    rw [h]
    cases doc'.language with
    | none => exact .nil
    | some l => exact ((Same.of_notMem (by decide)).append (.quoted l)).append (.of_notMem (by decide))
  have htitle := (Same.escape doc.title.toList doc'.title.toList).bracketed
  refine ((Same.of_notMem (by decide)).append hlanguage).append ?_
  exact ((Same.of_notMem (by decide)).append htitle).append (.of_notMem (by decide))

theorem Document.same_render {doc doc' : Document} (h : doc.eraseText = doc'.eraseText)
    {ctx ctx' : Context} (hctx : doc.Agrees ctx ctx') :
    BothUnless Failure.IsAbort Same (doc.render format ctx) (doc'.render format' ctx') := by
  obtain ⟨-, hlanguage, hcontent⟩ := Document.mk.inj h
  have hnodes : BothUnless Failure.IsAbort Same (concatM (Node.render format ctx) doc.content)
      (concatM (Node.render format' ctx') doc'.content) :=
    .concatM hcontent fun n hn _ he => Node.same_render he (hctx n hn)
  exact hnodes.map fun m m' hm => (same_opening hlanguage).append hm

/-- **Texts and values add no markup.** Two documents that differ in their texts alone, compiled
against contexts that agree on the conditions and the numbers of rows, both compile, unless a text
breaks off the reading, and what they compile to has one skeleton, whatever the values and
formatters. -/
theorem Document.skeleton_compileWith (doc doc' : Document) (format format' : Formatter)
    (ctx ctx' : Context) (hdoc : doc.eraseText = doc'.eraseText) (hctx : doc.Agrees ctx ctx')
    (hpanic : ∀ a, doc.compileWith format ctx ≠ .error (.abort a))
    (hpanic' : ∀ a, doc'.compileWith format' ctx' ≠ .error (.abort a)) :
    ∃ text text', doc.compileWith format ctx = .ok text ∧ doc'.compileWith format' ctx' = .ok text' ∧
      Markup.skeleton text.toList = Markup.skeleton text'.toList := by
  have hboth : BothUnless Failure.IsAbort Same (doc.render format ctx) (doc'.render format' ctx') :=
    same_render hdoc hctx
  unfold compileWith at hpanic hpanic' ⊢
  generalize doc.render format ctx = x at *
  generalize doc'.render format' ctx' = x' at *
  cases hboth with
  | left h _ => obtain ⟨a, rfl⟩ := h; exact absurd rfl (hpanic a)
  | right _ h => obtain ⟨a, rfl⟩ := h; exact absurd rfl (hpanic' a)
  | both h =>
    refine ⟨_, _, rfl, rfl, ?_⟩
    simpa using h.skeleton_eq

/-- A link whose target ends in a backslash, in a section; and the names of the guests. -/
def invitation (title text : String) : Document :=
  ⟨title, some "en", [
    .conditional (.single ⟨"host", .ne, .text ""⟩) [
      .item (.paragraph ⟨none, [.text text [.link "a]\\" none none, .bold], .placeholder "host" []]⟩)],
    .block (.rows .bullet ⟨"guests", some (.single ⟨"seats", .gt, .number 1⟩),
      [.paragraph ⟨none, [.placeholder "name" []]⟩]⟩)]⟩

/-- One guest who is kept, under the given names. -/
def hosted (host guest : String) : Context :=
  ⟨FieldMap.empty.insert "host" (.text host), some (FieldMap.empty.insert "guests"
    [(FieldMap.empty.insert "seats" (.number 2)).insert "name" (.text guest)])⟩

theorem skeleton_invitation :
    ∃ text text',
      (invitation "#" "](\\").compile {} (hosted "]],[" "\\") = .ok text ∧
      (invitation "" "").compile {} (hosted "A" "B") = .ok text' ∧
      Markup.skeleton text.toList = Markup.skeleton text'.toList := by
  refine Document.skeleton_compileWith _ _ (Labels.display {}) (Labels.display {}) _ _ rfl ?_ ?_ ?_
  · rintro n hn
    simp [invitation] at hn
    rcases hn with rfl | rfl
    · exact ⟨⟨true, rfl, rfl⟩, by simp [Block.Agrees]⟩
    · exact .some (.cons (fun f hf => by cases hf; exact ⟨true, rfl, rfl⟩) .nil)
  · rintro a h; cases h
  · rintro a h; cases h

end FormPress
