import FormPress.Proofs.Decided
import Mathlib.Logic.Relation
/-!
# Edits that leave no trace

An editor keeps more of a document than is rendered, and writes the same content in more than one way. An
edit of this kind exchanges one stretch of one list of the document (`Somewhere`); the relations
`Mark.Unseen`, `Inline.Unseen`, `Block.Unseen` and `Node.Unseen` say which stretches may be exchanged at
their levels. Whatever the formatter and the context, and however many edits are made or taken back, the
document compiles to the same, or fails in the same way (`Document.compileWith_unseen`).
-/
namespace FormPress

/-! ## The edits -/

section Lists

variable {α : Type}

/-- Somewhere in a list a stretch is exchanged for another. -/
inductive Somewhere (R : List α → List α → Prop) : List α → List α → Prop
  | intro (before after : List α) {l l' : List α} (h : R l l') :
      Somewhere R (before ++ (l ++ after)) (before ++ (l' ++ after))

/-- One member is exchanged for another. -/
inductive Member (R : α → α → Prop) : List α → List α → Prop
  | intro {a a' : α} (h : R a a') : Member R [a] [a']

end Lists

/-- Of a text style nothing is written, and of a link only its address. -/
inductive Mark.Unseen : List Mark → List Mark → Prop
  | textStyle (color : Option String) : Mark.Unseen [] [.textStyle color]
  | link (href : String) (rel target rel' target' : Option String) :
      Mark.Unseen [.link href rel target] [.link href rel' target']

/-- A place is written without its marks, and a text without marks character by character. -/
inductive Inline.Unseen : List Inline → List Inline → Prop
  | placeholder (id : String) (marks marks' : List Mark) :
      Inline.Unseen [.placeholder id marks] [.placeholder id marks']
  | marks (s : String) {marks marks' : List Mark} (h : Somewhere Mark.Unseen marks marks') :
      Inline.Unseen [.text s marks] [.text s marks']
  | empty : Inline.Unseen [] [.text "" []]
  | split (s t : String) : Inline.Unseen [.text (s ++ t) []] [.text s [], .text t []]

/-- The alignments of headings for which nothing is written. -/
def TextAlign.unwritten : List (Option TextAlign) := [none, some .left, some .justify]

/-- The block stays a heading or a paragraph, and a heading keeps its level. -/
inductive ItemBlock.Unseen : ItemBlock → ItemBlock → Prop
  | headingAlign (level : UInt8) (content : List Inline) {align align' : Option TextAlign}
      (h : align ∈ TextAlign.unwritten) (h' : align' ∈ TextAlign.unwritten) :
      ItemBlock.Unseen (.heading ⟨level, align, content⟩) (.heading ⟨level, align', content⟩)
  | heading (level : UInt8) (align : Option TextAlign) {content content' : List Inline}
      (h : Somewhere Inline.Unseen content content') :
      ItemBlock.Unseen (.heading ⟨level, align, content⟩) (.heading ⟨level, align, content'⟩)
  | paragraphAlign (content : List Inline) (align align' : Option TextAlign) :
      ItemBlock.Unseen (.paragraph ⟨align, content⟩) (.paragraph ⟨align', content⟩)
  | paragraph (align : Option TextAlign) {content content' : List Inline}
      (h : Somewhere Inline.Unseen content content') :
      ItemBlock.Unseen (.paragraph ⟨align, content⟩) (.paragraph ⟨align, content'⟩)

/-- One of the blocks that an item holds is edited; their number stays, on which the form of the item
depends. -/
def ListItem.Unseen (item item' : ListItem) : Prop :=
  Somewhere (Member ItemBlock.Unseen) item.content item'.content

/-- The edits of the blocks of a section, which are those of the blocks at the top as well. -/
inductive Block.Unseen : List Block → List Block → Prop
  | item {b b' : ItemBlock} (h : b.Unseen b') : Block.Unseen [.item b] [.item b']
  | list (style : ListStyle) {items items' : List ListItem}
      (h : Somewhere (Member ListItem.Unseen) items items') :
      Block.Unseen [.list style items] [.list style items']
  | template (style : ListStyle) (id : String) (filter : Option Condition)
      {template template' : List ItemBlock}
      (h : Somewhere (Member ItemBlock.Unseen) template template') :
      Block.Unseen [.rows style ⟨id, filter, template⟩] [.rows style ⟨id, filter, template'⟩]
  | emptyList (style : ListStyle) : Block.Unseen [] [.list style []]
  | emptyTemplate (style : ListStyle) (id : String) (filter : Option Condition) :
      Block.Unseen [] [.rows style ⟨id, filter, []⟩]

/-- The condition `all []` holds of every context and `any []` of none. -/
inductive Node.Unseen : List Node → List Node → Prop
  | blocks {blocks blocks' : List Block} (h : Block.Unseen blocks blocks') :
      Node.Unseen (blocks.map .block) (blocks'.map .block)
  | conditional (condition : Condition) {blocks blocks' : List Block}
      (h : Somewhere Block.Unseen blocks blocks') :
      Node.Unseen [.conditional condition blocks] [.conditional condition blocks']
  | always (blocks : List Block) :
      Node.Unseen (blocks.map .block) [.conditional (.all []) blocks]
  | never (blocks : List Block) : Node.Unseen [] [.conditional (.any []) blocks]

/-- One edit, at any depth of the content. -/
inductive Document.Unseen : Document → Document → Prop
  | content (title : String) (language : Option String) {nodes nodes' : List Node}
      (h : Somewhere Node.Unseen nodes nodes') :
      Document.Unseen ⟨title, language, nodes⟩ ⟨title, language, nodes'⟩

/-! ## Stretches of joined renderings -/

section Joined

variable {ε α : Type} {render : α → Except ε Markup} {l l' : List α}

/-- Stretches that render alike may be exchanged anywhere. -/
theorem Somewhere.concatM_eq {R : List α → List α → Prop}
    (hR : ∀ l l', R l l' → concatM render l = concatM render l') (h : Somewhere R l l') :
    concatM render l = concatM render l' := by
  cases h with
  | intro before after h => simp only [concatM_append, hR _ _ h]

theorem Member.concatM_eq {R : α → α → Prop} (hR : ∀ a a', R a a' → render a = render a')
    (h : Member R l l') : concatM render l = concatM render l' := by
  cases h with
  | intro h => rw [concatM_singleton, concatM_singleton, hR _ _ h]

/-- Members of which `f` gives the same may be exchanged anywhere. -/
theorem Somewhere.mapM_eq {β : Type} {f : α → Except ε β} {R : α → α → Prop}
    (hR : ∀ a a', R a a' → f a = f a') (h : Somewhere (Member R) l l') : l.mapM f = l'.mapM f := by
  cases h with
  | intro before after h =>
    cases h with
    | intro h => simp only [List.mapM_append, List.mapM_cons, hR _ _ h]

/-- The member that is exchanged is the only one, or there are others beside it, before and after. -/
theorem Somewhere.alone_or {R : α → α → Prop} (h : Somewhere (Member R) l l') :
    (∃ a a', R a a' ∧ l = [a] ∧ l' = [a']) ∨ ∀ b, l ≠ [b] ∧ l' ≠ [b] := by
  cases h with
  | intro before after h =>
    cases h with
    | @intro a a' h =>
      by_cases halone : before = [] ∧ after = []
      · obtain ⟨rfl, rfl⟩ := halone
        exact .inl ⟨a, a', h, rfl, rfl⟩
      · have hmore (a b : α) : before ++ ([a] ++ after) ≠ [b] := by
          simp only [ne_eq, List.append_eq_singleton_iff, List.append_eq_nil_iff, List.cons_ne_nil]
          tauto
        exact .inr fun b => ⟨hmore a b, hmore a' b⟩

end Joined

/-! ## Inline content -/

variable {format : Formatter} {data : Data} {ctx : Context}

theorem Mark.foldl_apply_of_unseen {marks marks' : List Mark} (h : Somewhere Mark.Unseen marks marks')
    (body : Markup) : marks.foldl Mark.apply body = marks'.foldl Mark.apply body := by
  cases h with
  | intro before after h =>
    simp only [List.foldl_append]
    cases h with
    | textStyle color => rfl
    | link href rel target rel' target' => rfl

theorem Inline.renderInlines_of_unseen {content content' : List Inline}
    (h : Inline.Unseen content content') :
    renderInlines format data content = renderInlines format data content' := by
  unfold renderInlines
  cases h with
  | placeholder id marks marks' => rfl
  | marks s h =>
    simp only [concatM_singleton, render]
    rw [Mark.foldl_apply_of_unseen h]
  | empty => rfl
  | split s t => simp [concatM, render, Markup.escape_append]

theorem renderInlines_of_somewhere {content content' : List Inline}
    (h : Somewhere Inline.Unseen content content') :
    renderInlines format data content = renderInlines format data content' :=
  h.concatM_eq fun _ _ => Inline.renderInlines_of_unseen

/-! ## Blocks -/

theorem TextAlign.wrap_of_unwritten {align : Option TextAlign} (h : align ∈ TextAlign.unwritten)
    (body : Markup) : TextAlign.wrap align body = body := by
  simp only [unwritten, List.mem_cons, List.not_mem_nil, or_false] at h
  obtain rfl | rfl | rfl := h <;> rfl

theorem ItemBlock.render_of_unseen {b b' : ItemBlock} (h : b.Unseen b') :
    b.render format data = b'.render format data := by
  cases h with
  | headingAlign level content h h' =>
    have halign := TextAlign.wrap_of_unwritten h
    have halign' := TextAlign.wrap_of_unwritten h'
    simp only [render, Heading.render, Heading.wrap, halign, halign']
  | heading level align h =>
    simp only [render, Heading.render, renderInlines_of_somewhere h]
    rfl
  | paragraphAlign content align align' => rfl
  | paragraph align h => simp only [render, Paragraph.render, renderInlines_of_somewhere h]

theorem renderItem_of_unseen {content content' : List ItemBlock}
    (h : Somewhere (Member ItemBlock.Unseen) content content') :
    renderItem format data content = renderItem format data content' := by
  have hjoined : concatM (ItemBlock.render format data) content =
      concatM (ItemBlock.render format data) content' :=
    h.concatM_eq fun _ _ => Member.concatM_eq fun _ _ => ItemBlock.render_of_unseen
  obtain ⟨b, b', hb, rfl, rfl⟩ | hmore := h.alone_or
  · -- A paragraph alone is written without its command, before it is edited and after.
    cases hb with
    | headingAlign level content halign halign' =>
      rw [renderItem_eq_concatM (by simp), renderItem_eq_concatM (by simp), hjoined]
    | heading level align hcontent =>
      rw [renderItem_eq_concatM (by simp), renderItem_eq_concatM (by simp), hjoined]
    | paragraphAlign content align align' => rfl
    | paragraph align hcontent =>
      rw [renderItem, renderItem, renderInlines_of_somewhere hcontent]
  · rw [renderItem_eq_concatM fun p => (hmore _).1, renderItem_eq_concatM fun p => (hmore _).2,
      hjoined]

theorem ListItem.mapM_of_unseen {items items' : List ListItem}
    (h : Somewhere (Member ListItem.Unseen) items items') :
    (items.mapM fun item => renderItem format data item.content) =
      items'.mapM fun item => renderItem format data item.content :=
  h.mapM_eq fun item item' (h : item.Unseen item') => renderItem_of_unseen h

theorem RowList.renderRows_of_unseen {id : String} {filter : Option Condition}
    {template template' : List ItemBlock}
    (h : Somewhere (Member ItemBlock.Unseen) template template') :
    ∀ data : List Data,
      renderRows format ⟨id, filter, template⟩ data =
        renderRows format ⟨id, filter, template'⟩ data
  | [] => rfl
  | row :: more => by
    rw [renderRows, renderRows, renderRows_of_unseen h more, renderItem_of_unseen h]
    rfl

theorem RowList.render_of_unseen {id : String} {filter : Option Condition}
    {template template' : List ItemBlock} (style : ListStyle)
    (h : Somewhere (Member ItemBlock.Unseen) template template') :
    render format ctx style ⟨id, filter, template⟩ =
      render format ctx style ⟨id, filter, template'⟩ := by
  unfold render
  rw [funext (renderRows_of_unseen h)]
  cases ctx.subData.bind (·.get? id) with
  | none => rfl
  | some data =>
    cases h with
    | intro before after h =>
      cases h
      cases before <;> rfl

theorem Block.concatM_of_unseen {blocks blocks' : List Block} (h : Block.Unseen blocks blocks') :
    concatM (Block.render format ctx) blocks = concatM (Block.render format ctx) blocks' := by
  cases h with
  | item h => simp only [concatM_singleton, render, ItemBlock.render_of_unseen h]
  | list style h =>
    simp only [concatM_singleton, render, ListItem.mapM_of_unseen h]
  | template style id filter h =>
    rw [concatM_singleton, concatM_singleton]
    exact RowList.render_of_unseen style h
  | emptyList style => rfl
  | emptyTemplate style id filter =>
    rw [concatM_singleton, render, RowList.render]
    cases ctx.subData.bind (·.get? id) <;> rfl

/-! ## Documents -/

theorem Node.concatM_of_unseen {nodes nodes' : List Node} (h : Node.Unseen nodes nodes') :
    concatM (Node.render format ctx) nodes = concatM (Node.render format ctx) nodes' := by
  cases h with
  | blocks h =>
    rw [concatM_map, concatM_map]
    exact Block.concatM_of_unseen h
  | conditional condition h =>
    simp only [concatM_singleton, render, h.concatM_eq fun _ _ => Block.concatM_of_unseen]
  | always blocks =>
    rw [concatM_map, concatM_singleton]
    rfl
  | never blocks => rfl

theorem Document.compileWith_of_unseen {doc doc' : Document} (h : doc.Unseen doc') :
    doc.compileWith format ctx = doc'.compileWith format ctx := by
  cases h with
  | content title language h =>
    unfold compileWith render
    rw [h.concatM_eq fun _ _ => Node.concatM_of_unseen]
    rfl

/-- Any number of edits, made or taken back, leave the result as it is, with the formatter of labels and
with any other. -/
theorem Document.compileWith_unseen :
    (∀ labels : Labels, Document.compileWith labels.display = Document.compile labels) ∧
      ∀ (format : Formatter) (doc doc' : Document) (ctx : Context),
        Relation.EqvGen Document.Unseen doc doc' →
          doc.compileWith format ctx = doc'.compileWith format ctx := by
  refine ⟨fun labels => rfl, fun format doc doc' ctx h => ?_⟩
  induction h with
  | rel doc doc' h => exact compileWith_of_unseen h
  | refl doc => rfl
  | symm doc doc' _ ih => exact ih.symm
  | trans doc doc' doc'' _ _ ih ih' => exact ih.trans ih'

/-- An empty list is taken away, the text behind it cut in two, and a section that is always shown put
around it. -/
theorem Document.compileWith_unseen_section :
    Relation.EqvGen Document.Unseen
        ⟨"T", none, [.block (.list .ordered []), .block (.item (.paragraph ⟨none, [.text "ab" []]⟩))]⟩
        ⟨"T", none, [.conditional (.all [])
          [.item (.paragraph ⟨none, [.text "a" [], .text "b" []]⟩)]]⟩ ∧
      Document.compileWith (Labels.display {})
          ⟨"T", none, [.block (.list .ordered []), .block (.item (.paragraph ⟨none, [.text "ab" []]⟩))]⟩
          ⟨.empty, none⟩ =
        Document.compileWith (Labels.display {})
          ⟨"T", none, [.conditional (.all [])
            [.item (.paragraph ⟨none, [.text "a" [], .text "b" []]⟩)]]⟩ ⟨.empty, none⟩ := by
  have hlist : Document.Unseen
      ⟨"T", none, [.block (.item (.paragraph ⟨none, [.text "ab" []]⟩))]⟩
      ⟨"T", none, [.block (.list .ordered []), .block (.item (.paragraph ⟨none, [.text "ab" []]⟩))]⟩ :=
    .content _ _ (.intro [] [_] (Node.Unseen.blocks (.emptyList .ordered)))
  have hcut : Document.Unseen
      ⟨"T", none, [.block (.item (.paragraph ⟨none, [.text "ab" []]⟩))]⟩
      ⟨"T", none, [.block (.item (.paragraph ⟨none, [.text "a" [], .text "b" []]⟩))]⟩ :=
    .content _ _ (.intro [] [] (Node.Unseen.blocks (.item (.paragraph _
      (.intro [] [] (Inline.Unseen.split "a" "b"))))))
  have hsection : Document.Unseen
      ⟨"T", none, [.block (.item (.paragraph ⟨none, [.text "a" [], .text "b" []]⟩))]⟩
      ⟨"T", none, [.conditional (.all [])
        [.item (.paragraph ⟨none, [.text "a" [], .text "b" []]⟩)]]⟩ :=
    .content _ _ (.intro [] [] (Node.Unseen.always [_]))
  have hedits := ((Relation.EqvGen.rel _ _ hlist).symm.trans _ _ _ (.rel _ _ hcut)).trans _ _ _
    (.rel _ _ hsection)
  exact ⟨hedits, compileWith_unseen.2 _ _ _ _ hedits⟩

end FormPress
