import FormPress.Proofs.Decided
/-!
# What a document depends on

All that a document learns of its context is what its places show and how its conditions come out. Two
contexts that agree in this, wherever the document looks, make it compile to the same, or fail in the
same way (`Document.compileWith_of_indistinct`).

A document names fields of the data, in its places and in the conditions of its sections, and each of its
placeholder lists names fields of a row, in its template and in its filter. What a document compiles to
depends on these fields alone, and on a row only through that row (`Document.compileWith_congr`).
-/
namespace FormPress

/-! ## Contexts that a document cannot tell apart -/

variable {data data' : Data} {ctx ctx' : Context} {format : Formatter}

/-- A condition comes out on two rows alike if each of its members does. -/
theorem Condition.evaluate_congr {c : Condition}
    (h : ∀ m ∈ c.members, m.evaluate data = m.evaluate data') :
    c.evaluate data = c.evaluate data' :=
  evaluate_of_forall₂ rfl (List.forall₂_same.2 h)

/-! ### Content -/

def ItemBlock.inlines : ItemBlock → List Inline
  | .heading h => h.content
  | .paragraph p => p.content

/-- Each inline of the content shows the same of both rows. -/
def ShowAlike (format : Formatter) (data data' : Data) (content : List ItemBlock) : Prop :=
  ∀ b ∈ content, ∀ i ∈ b.inlines, i.render format data = i.render format data'

theorem ItemBlock.render_congr {b : ItemBlock} (h : ShowAlike format data data' [b]) :
    b.render format data = b.render format data' := by
  have hb : renderInlines format data b.inlines = renderInlines format data' b.inlines :=
    concatM_congr (h b (by simp))
  cases b with
  | heading b =>
    rw [inlines] at hb
    rw [render, render, Heading.render, Heading.render, hb]
  | paragraph b =>
    rw [inlines] at hb
    rw [render, render, Paragraph.render, Paragraph.render, hb]

theorem renderItem_congr {content : List ItemBlock} (h : ShowAlike format data data' content) :
    renderItem format data content = renderItem format data' content := by
  by_cases hp : ∃ p, content = [.paragraph p]
  · obtain ⟨p, rfl⟩ := hp
    have hp : renderInlines format data p.content = renderInlines format data' p.content :=
      concatM_congr (h (.paragraph p) (by simp))
    rw [renderItem, renderItem, hp]
  · have hblocks : concatM (ItemBlock.render format data) content =
        concatM (ItemBlock.render format data') content :=
      concatM_congr fun b hb => ItemBlock.render_congr (by simpa [ShowAlike] using h b hb)
    rw [renderItem_eq_concatM fun p hc => hp ⟨p, hc⟩, renderItem_eq_concatM fun p hc => hp ⟨p, hc⟩,
      hblocks]

/-! ### Rows -/

/-- The filter comes out alike on both rows, and if it keeps them the template shows the same of both. -/
structure RowList.Indistinct (format : Formatter) (rows : RowList) (row row' : Data) : Prop where
  filter : ∀ c ∈ rows.filter, c.evaluate row = c.evaluate row'
  template : rows.holds row = true → ShowAlike format row row' rows.template

theorem RowList.Indistinct.keeps_eq {rows : RowList} {row row' : Data}
    (h : rows.Indistinct format row row') : rows.keeps row = rows.keeps row' := by
  unfold keeps
  cases hf : rows.filter with
  | none => rfl
  | some filter => simp only [h.filter filter hf]

theorem RowList.renderRows_congr {rows : RowList} {l l' : List Data}
    (h : List.Forall₂ (rows.Indistinct format) l l') :
    rows.renderRows format l = rows.renderRows format l' := by
  induction h with
  | nil => rfl
  | @cons row row' _ _ hrow _ ih =>
    rw [renderRows, renderRows, ← hrow.keeps_eq, ih]
    rcases hkeeps : rows.keeps row with e | kept
    · rfl
    · cases kept with
      | false => rfl
      | true => rw [renderItem_congr (hrow.template (holds_of_keeps hkeeps))]

/-- What relates the rows of two contexts, each with the one in its place, can be weakened. -/
theorem rows_imp {R S : Data → Data → Prop} (h : ∀ row row', R row row' → S row row')
    {data? data?' : Option (List Data)} (hrows : Option.Rel (List.Forall₂ R) data? data?') :
    Option.Rel (List.Forall₂ S) data? data?' := by
  cases hrows with
  | none => exact .none
  | some hdata => exact .some (hdata.imp h)

theorem RowList.render_congr {rows : RowList}
    (h : rows.template ≠ [] → Option.Rel (List.Forall₂ (rows.Indistinct format))
      (ctx.rows? rows.id) (ctx'.rows? rows.id)) (style : ListStyle) :
    rows.render format ctx style = rows.render format ctx' style := by
  unfold Context.rows? at h
  unfold render
  generalize ctx.subData.bind (·.get? rows.id) = data? at h ⊢
  generalize ctx'.subData.bind (·.get? rows.id) = data?' at h ⊢
  cases ht : rows.template with
  | nil => cases data? <;> cases data?' <;> rfl
  | cons t ts =>
    cases h (by simp [ht]) with
    | none => rfl
    | some hdata => simp only [renderRows_congr hdata]

/-! ### Documents -/

/-- The block looks at the same in both contexts. A placeholder list without a template looks at
nothing. -/
def Block.Indistinct (format : Formatter) (ctx ctx' : Context) : Block → Prop
  | .item b => ShowAlike format ctx.data ctx'.data [b]
  | .list _ items => ∀ item ∈ items, ShowAlike format ctx.data ctx'.data item.content
  | .rows _ repeated => repeated.template ≠ [] →
    Option.Rel (List.Forall₂ (repeated.Indistinct format)) (ctx.rows? repeated.id)
      (ctx'.rows? repeated.id)

/-- A section looks at its blocks only if its condition holds. -/
def Node.Indistinct (format : Formatter) (ctx ctx' : Context) : Node → Prop
  | .block b => b.Indistinct format ctx ctx'
  | .conditional c blocks => c.evaluate ctx.data = c.evaluate ctx'.data ∧
    (c.holds ctx.data = true → ∀ b ∈ blocks, b.Indistinct format ctx ctx')

theorem Block.Indistinct.render_eq {b : Block} (h : b.Indistinct format ctx ctx') :
    b.render format ctx = b.render format ctx' := by
  cases b with
  | item b => rw [render, render, ItemBlock.render_congr h]
  | list style items => rw [render, render, mapM_congr fun item hitem => renderItem_congr (h item hitem)]
  | rows style repeated => exact RowList.render_congr h style

theorem Node.Indistinct.render_eq {n : Node} (h : n.Indistinct format ctx ctx') :
    n.render format ctx = n.render format ctx' := by
  cases n with
  | block b => exact Block.Indistinct.render_eq h
  | conditional c blocks =>
    obtain ⟨hc, hblocks⟩ := h
    rw [render, render, ← hc]
    rcases hb : c.evaluate ctx.data with e | b
    · cases e <;> rfl
    · rw [blame_eq_ok_iff.2 rfl, ok_bind, ok_bind]
      cases b with
      | false => rfl
      | true =>
        have hblocks := hblocks (Condition.holds_of_evaluate hb)
        exact concatM_congr fun b hmem => (hblocks b hmem).render_eq

/-- Contexts that no node of a document can tell apart compile to the same. -/
theorem Document.compileWith_of_indistinct {doc : Document}
    (h : ∀ n ∈ doc.content, n.Indistinct format ctx ctx') :
    doc.compileWith format ctx = doc.compileWith format ctx' := by
  have hnodes : concatM (Node.render format ctx) doc.content =
      concatM (Node.render format ctx') doc.content :=
    concatM_congr fun n hn => (h n hn).render_eq
  rw [compileWith, compileWith, render, render, hnodes]

/-- It is enough that the conditions of the sections come out alike and that what is shown cannot be told
apart. -/
theorem Document.compileWith_of_shown {doc : Document}
    (hconditions : ∀ c blocks, .conditional c blocks ∈ doc.content →
      c.evaluate ctx.data = c.evaluate ctx'.data)
    (hshown : ∀ b ∈ doc.shown ctx, b.Indistinct format ctx ctx') :
    doc.compileWith format ctx = doc.compileWith format ctx' := by
  refine compileWith_of_indistinct fun n hn => ?_
  have hblocks : ∀ b ∈ n.shown ctx, b.Indistinct format ctx ctx' := fun b hb =>
    hshown b (List.mem_flatMap.2 ⟨n, hn, hb⟩)
  cases n with
  | block b => exact hblocks b (by simp [Node.shown])
  | conditional c blocks =>
    exact ⟨hconditions c blocks hn, fun hc => by simpa [Node.shown, hc] using hblocks⟩

/-! ## The fields a document names -/

def Inline.fields : Inline → List String
  | .text _ _ => []
  | .placeholder id _ => [id]

def ItemBlock.fields : ItemBlock → List String
  | .heading h => h.content.flatMap Inline.fields
  | .paragraph p => p.content.flatMap Inline.fields

def Condition.fields (c : Condition) : List String := c.members.map Comparison.field

/-- The fields of a row that the template and the filter name. -/
def RowList.fields (rows : RowList) : List String :=
  rows.template.flatMap ItemBlock.fields ++ rows.filter.elim [] Condition.fields

/-- The fields of the data that a block names; a placeholder list names fields of its rows only. -/
def Block.fields : Block → List String
  | .item b => b.fields
  | .list _ items => items.flatMap fun item => item.content.flatMap ItemBlock.fields
  | .rows _ _ => []

def Node.fields : Node → List String
  | .block b => b.fields
  | .conditional c blocks => c.fields ++ blocks.flatMap Block.fields

def Document.fields (doc : Document) : List String := doc.content.flatMap Node.fields

/-- The placeholder lists of a block: itself, if it is one. -/
def Block.rowLists : Block → List RowList
  | .rows _ repeated => [repeated]
  | .item _ | .list _ _ => []

def Node.rowLists : Node → List RowList
  | .block b => b.rowLists
  | .conditional _ blocks => blocks.flatMap Block.rowLists

/-- The placeholder lists of a document, in sections and outside of them. -/
def Document.rowLists (doc : Document) : List RowList := doc.content.flatMap Node.rowLists

/-! ### Agreement -/

/-- Both have the same value under each of the ids, or both have none. -/
def Data.AgreeOn (ids : List String) (data data' : Data) : Prop :=
  ∀ id ∈ ids, data.get? id = data'.get? id

namespace Data.AgreeOn

variable {ids ids' : List String}

theorem left (h : Data.AgreeOn (ids ++ ids') data data') : Data.AgreeOn ids data data' :=
  fun id hid => h id (by simp [hid])

theorem right (h : Data.AgreeOn (ids ++ ids') data data') : Data.AgreeOn ids' data data' :=
  fun id hid => h id (by simp [hid])

theorem of_mem {α : Type} {f : α → List String} {l : List α}
    (h : Data.AgreeOn (l.flatMap f) data data') {a : α} (ha : a ∈ l) : Data.AgreeOn (f a) data data' :=
  fun id hid => h id (List.mem_flatMap.2 ⟨a, ha, hid⟩)

end Data.AgreeOn

/-- Both have as many rows for the list, or both have none under its id, and the rows agree, each with
the one in its place, on the fields that the list names. -/
def RowList.SameRows (rows : RowList) (ctx ctx' : Context) : Prop :=
  Option.Rel (List.Forall₂ (Data.AgreeOn rows.fields)) (ctx.rows? rows.id) (ctx'.rows? rows.id)

/-! ### What agreement comes to -/

theorem Condition.evaluate_of_agreeOn {c : Condition} (h : Data.AgreeOn c.fields data data') :
    c.evaluate data = c.evaluate data' := by
  refine evaluate_congr fun m hm => ?_
  rw [Comparison.evaluate, Comparison.evaluate, h m.field (List.mem_map.2 ⟨m, hm, rfl⟩)]

theorem Inline.render_of_agreeOn (format : Formatter) {i : Inline} (h : Data.AgreeOn i.fields data data') :
    i.render format data = i.render format data' := by
  cases i with
  | text s marks => rfl
  | placeholder id marks => rw [render, render, h id (by simp [fields])]

theorem ItemBlock.fields_eq (b : ItemBlock) : b.fields = b.inlines.flatMap Inline.fields := by
  cases b <;> rfl

theorem showAlike_of_agreeOn (format : Formatter) {content : List ItemBlock}
    (h : Data.AgreeOn (content.flatMap ItemBlock.fields) data data') :
    ShowAlike format data data' content := by
  intro b hb i hi
  have hfields := h.of_mem hb
  rw [b.fields_eq] at hfields
  exact Inline.render_of_agreeOn format (hfields.of_mem hi)

theorem RowList.indistinct_of_agreeOn (format : Formatter) {rows : RowList} {row row' : Data}
    (h : Data.AgreeOn rows.fields row row') : rows.Indistinct format row row' := by
  refine ⟨fun filter hf => ?_, fun _ => showAlike_of_agreeOn format h.left⟩
  have hfilter := h.right
  rw [Option.mem_def.1 hf] at hfilter
  exact Condition.evaluate_of_agreeOn hfilter

theorem Block.indistinct_of_agreeOn (format : Formatter) {b : Block}
    (hdata : Data.AgreeOn b.fields ctx.data ctx'.data)
    (hrows : ∀ rows ∈ b.rowLists, rows.SameRows ctx ctx') : b.Indistinct format ctx ctx' := by
  cases b with
  | item b => exact showAlike_of_agreeOn format (by simpa [fields] using hdata)
  | list style items => exact fun item hitem => showAlike_of_agreeOn format (hdata.of_mem hitem)
  | rows style repeated =>
    intro _
    have hsame : repeated.SameRows ctx ctx' := hrows repeated (by simp [rowLists])
    exact rows_imp (fun _ _ => RowList.indistinct_of_agreeOn format) hsame

theorem Node.indistinct_of_agreeOn (format : Formatter) {n : Node}
    (hdata : Data.AgreeOn n.fields ctx.data ctx'.data)
    (hrows : ∀ rows ∈ n.rowLists, rows.SameRows ctx ctx') : n.Indistinct format ctx ctx' := by
  cases n with
  | block b => exact Block.indistinct_of_agreeOn format hdata hrows
  | conditional c blocks =>
    refine ⟨Condition.evaluate_of_agreeOn hdata.left, fun _ b hb => ?_⟩
    refine Block.indistinct_of_agreeOn format (hdata.right.of_mem hb) fun rows hr => ?_
    exact hrows rows (List.mem_flatMap.2 ⟨b, hb, hr⟩)

/-- **A compiled document depends on the fields it names.** If two contexts agree on the fields of the
data that a document names outside of its placeholder lists, and for each of these lists have as many
rows, which agree on the fields that the list names, the document compiles to the same in both, or
fails in the same way, whatever the formatter. The data matter to no row. -/
theorem Document.compileWith_congr (format : Formatter) (doc : Document) (ctx ctx' : Context)
    (hdata : Data.AgreeOn doc.fields ctx.data ctx'.data)
    (hrows : ∀ rows ∈ doc.rowLists, rows.SameRows ctx ctx') :
    doc.compileWith format ctx = doc.compileWith format ctx' := by
  refine compileWith_of_indistinct fun n hn => ?_
  refine Node.indistinct_of_agreeOn format (hdata.of_mem hn) fun rows hr => ?_
  exact hrows rows (List.mem_flatMap.2 ⟨n, hn, hr⟩)

/-- The rows have a field of the same name as one of the data, which only they show. -/
def guestList : Document :=
  ⟨"Guests", none, [
    .conditional (.single ⟨"open", .ne, .boolean false⟩) [
      .item (.paragraph ⟨none, [.placeholder "host" []]⟩),
      .rows .bullet ⟨"guests", some (.single ⟨"seats", .gt, .number 1⟩),
        [.paragraph ⟨none, [.placeholder "name" []]⟩]⟩]]⟩

/-- The name in the data and the note in the row are named nowhere in `guestList`. -/
def evening (name note : String) : Context :=
  ⟨(FieldMap.empty.insert "host" (.text "Ada")).insert "name" (.text name), some (FieldMap.empty.insert
    "guests" [((FieldMap.empty.insert "seats" (.number 2)).insert "name" (.text "Grace")).insert
      "note" (.text note)])⟩

/-- A formatter that shows of a value no more than its kind. -/
def showKind : Formatter := fun v => .ok v.kind.name

theorem compileWith_guestList :
    Data.AgreeOn guestList.fields (evening "x" "y").data (evening "#" "]").data ∧
      (∀ rows ∈ guestList.rowLists, rows.SameRows (evening "x" "y") (evening "#" "]")) ∧
      guestList.compileWith showKind (evening "x" "y") =
        guestList.compileWith showKind (evening "#" "]") := by
  have hdata : Data.AgreeOn guestList.fields (evening "x" "y").data (evening "#" "]").data := by
    intro id hid
    simp [guestList, Document.fields, Node.fields, Block.fields, ItemBlock.fields, Inline.fields,
      Condition.fields, Condition.members] at hid
    rcases hid with rfl | rfl <;> rfl
  have hrows : ∀ rows ∈ guestList.rowLists, rows.SameRows (evening "x" "y") (evening "#" "]") := by
    intro rows hr
    simp [guestList, Document.rowLists, Node.rowLists, Block.rowLists] at hr
    subst hr
    refine .some (.cons (fun id hid => ?_) .nil)
    simp [RowList.fields, ItemBlock.fields, Inline.fields, Condition.fields, Condition.members] at hid
    rcases hid with rfl | rfl <;> rfl
  exact ⟨hdata, hrows, guestList.compileWith_congr showKind _ _ hdata hrows⟩

end FormPress
