import FormPress.Proofs.Dependence
import FormPress.Proofs.History
/-!
# Values widened to text

A number and a boolean that have been widened to text are shown as they were before, as long as the labels
of the booleans are the words they are widened to (`Labels.display_of_cast`). So widening values changes
no compiled document, if no condition asks for them (`Document.compile_widened`).
-/
namespace FormPress

/-- The booleans are labelled with the words that they become as text. -/
structure Labels.AreStandard (labels : Labels) : Prop where
  trueLabel : labels.trueLabel = booleanWord true
  falseLabel : labels.falseLabel = booleanWord false

/-- A value and the text it is cast to are shown alike. -/
theorem Labels.display_of_cast {labels : Labels} (h : labels.AreStandard) {v w : Value}
    (hw : v.cast .text = some w) : labels.display w = labels.display v := by
  rcases Value.cast_eq_some_iff.1 hw with ⟨-, rfl⟩ | ⟨-, s, hs, rfl⟩
  · rfl
  · cases v with
    | number n =>
      obtain rfl : numberWord n = s := Option.some.inj hs
      rfl
    | boolean b =>
      obtain rfl : booleanWord b = s := Option.some.inj hs
      cases b with
      | false => simp [display, h.falseLabel]
      | true => simp [display, h.trueLabel]
    | text _ | date _ | datetime _ | choice _ | choiceList _ | file _ => cases hs

/-! ## Widened rows -/

/-- The second row is the first with some of its values replaced by the texts they are cast to, none of
them under an id of `kept`. -/
def Data.Widened (kept : List String) (data data' : Data) : Prop :=
  ∀ id, data'.get? id = data.get? id ∨
    id ∉ kept ∧ ∃ v w, data.get? id = some v ∧ v.cast .text = some w ∧ data'.get? id = some w

namespace Data.Widened

variable {kept : List String} {data data' : Data}

theorem agreeOn (h : Data.Widened kept data data') : Data.AgreeOn kept data data' := by
  intro id hid
  rcases h id with heq | ⟨hkept, -⟩
  · exact heq.symm
  · exact absurd hid hkept

theorem refl (kept : List String) (data : Data) : Data.Widened kept data data := fun _ => .inl rfl

/-- The same value is put into both rows, or the text it is cast to into the second. -/
theorem insert (h : Data.Widened kept data data') (id : String) {v w : Value}
    (hw : w = v ∨ id ∉ kept ∧ v.cast .text = some w) :
    Data.Widened kept (data.insert id v) (data'.insert id w) := by
  intro k
  rw [FieldMap.get?_insert, FieldMap.get?_insert]
  by_cases hk : k = id
  · subst hk
    simp only [if_true]
    rcases hw with rfl | ⟨hid, hcast⟩
    · exact .inl rfl
    · exact .inr ⟨hid, v, w, rfl, hcast, rfl⟩
  · rw [if_neg hk, if_neg hk]
    exact h k

/-- A place shows of a widened row what it shows of the row. -/
theorem render_eq (h : Data.Widened kept data data') {labels : Labels} (hlabels : labels.AreStandard)
    (i : Inline) : i.render labels.display data = i.render labels.display data' := by
  cases i with
  | text s marks => rfl
  | placeholder id marks =>
    rcases h id with heq | ⟨-, v, w, hv, hcast, hw⟩
    · rw [Inline.render, Inline.render, heq]
    · rw [Inline.render, Inline.render, hv, hw]
      simp only [Labels.display_of_cast hlabels hcast]

theorem showAlike (h : Data.Widened kept data data') {labels : Labels} (hlabels : labels.AreStandard)
    (content : List ItemBlock) : ShowAlike labels.display data data' content :=
  fun _ _ i _ => h.render_eq hlabels i

end Data.Widened

/-! ## Widened contexts -/

/-- The fields of the data that the condition of a section names. -/
def Node.conditionFields : Node → List String
  | .block _ => []
  | .conditional c _ => c.fields

def Document.conditionFields (doc : Document) : List String := doc.content.flatMap Node.conditionFields

def RowList.filterFields (rows : RowList) : List String := rows.filter.elim [] Condition.fields

/-- The placeholder lists that read their rows: those that are shown and have a template. -/
def Document.readers (ctx : Context) (doc : Document) : List RowList :=
  (doc.shown ctx).flatMap fun b => b.rowLists.filter fun rows => !rows.template.isEmpty

/-- The second context is the first with some values of the data and of the rows widened to text: none
that a condition of a section names, and none in a row that a filter names on reading it. -/
structure Document.Widened (doc : Document) (ctx ctx' : Context) : Prop where
  data : Data.Widened doc.conditionFields ctx.data ctx'.data
  rows : ∀ rows ∈ doc.readers ctx, Option.Rel (List.Forall₂ (Data.Widened rows.filterFields))
    (ctx.rows? rows.id) (ctx'.rows? rows.id)

section

variable {labels : Labels} {doc : Document} {ctx ctx' : Context}

theorem RowList.indistinct_of_widened (hlabels : labels.AreStandard) {rows : RowList} {row row' : Data}
    (h : Data.Widened rows.filterFields row row') : rows.Indistinct labels.display row row' := by
  refine ⟨fun filter hf => ?_, fun _ => h.showAlike hlabels rows.template⟩
  have hkept := h.agreeOn
  rw [filterFields, Option.mem_def.1 hf] at hkept
  exact Condition.evaluate_of_agreeOn hkept

theorem Document.Widened.block_indistinct (h : doc.Widened ctx ctx') (hlabels : labels.AreStandard)
    {b : Block} (hb : b ∈ doc.shown ctx) : b.Indistinct labels.display ctx ctx' := by
  cases b with
  | item b => exact h.data.showAlike hlabels [b]
  | list style items => exact fun item _ => h.data.showAlike hlabels item.content
  | rows style repeated =>
    intro htemplate
    have hread : repeated ∈ doc.readers ctx :=
      List.mem_flatMap.2 ⟨_, hb, by simpa [Block.rowLists] using htemplate⟩
    exact rows_imp (fun _ _ => RowList.indistinct_of_widened hlabels) (h.rows repeated hread)

theorem Document.Widened.compile_eq (h : doc.Widened ctx ctx') (hlabels : labels.AreStandard) :
    doc.compile labels ctx = doc.compile labels ctx' := by
  refine compileWith_of_shown (fun c blocks hn => ?_) fun b hb => h.block_indistinct hlabels hb
  exact Condition.evaluate_of_agreeOn (h.data.agreeOn.of_mem (f := Node.conditionFields) hn)

end

/-- **Widening to text is invisible.** With the standard labels for booleans, a value is shown as the text
it is cast to; and a document compiles to the same, or fails in the same way, after some values of the
data and of the rows have been cast to text, unless a condition or a filter asks for one of them. -/
theorem Document.compile_widened (labels : Labels) (hlabels : labels.AreStandard) :
    (∀ v w : Value, v.cast .text = some w → labels.display w = labels.display v) ∧
      ∀ (doc : Document) (ctx ctx' : Context), doc.Widened ctx ctx' →
        doc.compile labels ctx = doc.compile labels ctx' := by
  exact ⟨fun v w hw => Labels.display_of_cast hlabels hw, fun doc ctx ctx' h => h.compile_eq hlabels⟩

/-- A section that asks whether the shop is open, with a list that asks how much is left. -/
def stockList : Document :=
  ⟨"Stock", none, [
    .conditional (.single ⟨"open", .eq, .boolean true⟩) [
      .item (.paragraph ⟨none, [.placeholder "open" [], .placeholder "articles" []]⟩),
      .rows .bullet ⟨"stock", some (.single ⟨"left", .gt, .number 0⟩),
        [.paragraph ⟨none, [.placeholder "left" [], .placeholder "sale" []]⟩]⟩]]⟩

def stocked (articles sale : Value) : Context :=
  ⟨(FieldMap.empty.insert "open" (.boolean true)).insert "articles" articles, some (FieldMap.empty.insert
    "stock" [(FieldMap.empty.insert "left" (.number 3)).insert "sale" sale])⟩

/-- The number of articles and the mark of a sale are widened, what is asked for is not. -/
theorem compile_stockList :
    (Labels.AreStandard { separator := " / " }) ∧
      stockList.Widened (stocked (.number (-12)) (.boolean false)) (stocked (.text "-12") (.text "No")) ∧
      stockList.compile { separator := " / " } (stocked (.number (-12)) (.boolean false)) =
        stockList.compile { separator := " / " } (stocked (.text "-12") (.text "No")) := by
  have hlabels : Labels.AreStandard { separator := " / " } := ⟨rfl, rfl⟩
  have hwidened : stockList.Widened (stocked (.number (-12)) (.boolean false))
      (stocked (.text "-12") (.text "No")) := by
    constructor
    · exact ((Data.Widened.refl _ .empty).insert "open" (.inl rfl)).insert "articles"
        (.inr ⟨by decide, by decide⟩)
    · intro rows hr
      obtain rfl : rows = _ := List.mem_singleton.1 hr
      refine .some (.cons ?_ .nil)
      exact ((Data.Widened.refl _ .empty).insert "left" (.inl rfl)).insert "sale"
        (.inr ⟨by decide, by decide⟩)
  exact ⟨hlabels, hwidened, (Document.compile_widened _ hlabels).2 stockList _ _ hwidened⟩

end FormPress
