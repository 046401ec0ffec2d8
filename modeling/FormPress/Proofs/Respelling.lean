import FormPress.Proofs.Chronology
import FormPress.Proofs.Widening
/-!
# Respelled date-times

One moment can be written in many ways: padded or not, with another mark before the clock, in another
offset, with blanks around it. To a comparison all of them are the same (`Operator.between_respelled`), so
respelling the date-times of conditions and of values changes no verdict and no error; and it changes no
compiled document, as long as the respelled values are not shown (`Document.compileWith_respelled`).
-/
namespace FormPress

/-- Both texts are date-times, and as much time has elapsed at the one as at the other. -/
def SameMoment (s s' : String) : Prop :=
  ∃ t t', DateTime.parse s = .ok (some t) ∧ DateTime.parse s' = .ok (some t') ∧ t.elapsed = t'.elapsed

/-- The second value is the first, or spells the moment of the first. -/
inductive Value.Respelled : Value → Value → Prop
  | same (v : Value) : Respelled v v
  | datetime {s s' : String} (h : SameMoment s s') : Respelled (.datetime s) (.datetime s')

/-! ## Comparisons -/

/-- The moment of an operand, or the failure to read it. -/
def DateTime.moment (written : String) : Except (Failure ConditionError) Int := do
  return (← DateTime.operand written).instant

theorem SameMoment.of_instant {s s' : String} {t t' : DateTime} (hs : DateTime.parse s = .ok (some t))
    (hs' : DateTime.parse s' = .ok (some t')) (h : t.instant = t'.instant) : SameMoment s s' := by
  refine ⟨t, t', hs, hs', ?_⟩
  rw [← t.instant_eq_elapsed, ← t'.instant_eq_elapsed, h]

theorem SameMoment.moment_eq {s s' : String} (h : SameMoment s s') :
    DateTime.moment s = DateTime.moment s' := by
  obtain ⟨t, t', hs, hs', helapsed⟩ := h
  rw [← t.instant_eq_elapsed, ← t'.instant_eq_elapsed] at helapsed
  unfold DateTime.moment
  rw [DateTime.operand_ok_iff.2 hs, DateTime.operand_ok_iff.2 hs', ok_bind, ok_bind, helapsed]

/-- Of two date-times a comparison learns their moments, or the first failure to read one. -/
theorem Operator.betweenAlike_datetime (op : Operator) (l r : String) :
    op.betweenAlike (.datetime l) (.datetime r) =
      DateTime.moment l >>= fun a => DateTime.moment r >>= fun b => .ok (op.holds (compare a b)) := by
  simp only [betweenAlike, DateTime.moment, bind_assoc, pure_eq_ok, ok_bind]

namespace Value.Respelled

variable {v v' : Value}

theorem kind_eq (h : v.Respelled v') : v.kind = v'.kind := by
  cases h <;> rfl

/-- Only date-times are respelled. -/
theorem eq_of_kind (h : v.Respelled v') (hkind : v.kind ≠ .datetime) : v' = v := by
  cases h with
  | same => rfl
  | datetime h => exact absurd rfl hkind

theorem exists_datetime (h : v.Respelled v') (hkind : v.kind = .datetime) :
    ∃ s s', v = .datetime s ∧ v' = .datetime s' ∧ DateTime.moment s = DateTime.moment s' := by
  cases h with
  | same =>
    cases v <;> cases hkind
    exact ⟨_, _, rfl, rfl, rfl⟩
  | datetime h => exact ⟨_, _, rfl, rfl, h.moment_eq⟩

end Value.Respelled

/-- No operator can tell a date-time from another spelling of it, on either side. -/
theorem Operator.between_respelled (op : Operator) {l l' : Option Value} {r r' : Value}
    (hl : Option.Rel Value.Respelled l l') (hr : r.Respelled r') : op.between l r = op.between l' r' := by
  cases hl with
  | none => rfl
  | @some v v' hv =>
    have hkinds : v'.kind = r'.kind ↔ v.kind = r.kind := by rw [hv.kind_eq, hr.kind_eq]
    rw [between, between]
    by_cases hkind : v.kind = r.kind
    · rw [if_pos hkind, if_pos (hkinds.2 hkind)]
      by_cases hdatetime : r.kind = .datetime
      · obtain ⟨s, s', rfl, rfl, hs⟩ := hv.exists_datetime (hkind.trans hdatetime)
        obtain ⟨u, u', rfl, rfl, hu⟩ := hr.exists_datetime hdatetime
        rw [betweenAlike_datetime, betweenAlike_datetime, hs, hu]
      · rw [hr.eq_of_kind hdatetime, hv.eq_of_kind (hkind ▸ hdatetime)]
    · rw [if_neg hkind, if_neg (mt hkinds.1 hkind)]

/-! ## Conditions and rows -/

structure Comparison.Respelled (c c' : Comparison) : Prop where
  field : c.field = c'.field
  operator : c.operator = c'.operator
  literal : c.literal.Respelled c'.literal

/-- The members of the second condition are those of the first, in the same order, with literals
respelled. -/
inductive Condition.Respelled : Condition → Condition → Prop
  | single {c c' : Comparison} (h : c.Respelled c') : Respelled (.single c) (.single c')
  | all {cs cs' : List Comparison} (h : List.Forall₂ Comparison.Respelled cs cs') :
    Respelled (.all cs) (.all cs')
  | any {cs cs' : List Comparison} (h : List.Forall₂ Comparison.Respelled cs cs') :
    Respelled (.any cs) (.any cs')

/-- The second row is the first with some of its date-times respelled, none of them under an id of
`shown`. -/
structure Data.Respelled (shown : List String) (data data' : Data) : Prop where
  values : ∀ id, Option.Rel Value.Respelled (data.get? id) (data'.get? id)
  agreeOn : Data.AgreeOn shown data data'

theorem Comparison.Respelled.refl (c : Comparison) : c.Respelled c := ⟨rfl, rfl, .same _⟩

theorem Condition.Respelled.refl (c : Condition) : c.Respelled c := by
  cases c with
  | single c => exact .single (.refl c)
  | all cs => exact .all (List.forall₂_same.2 fun c _ => .refl c)
  | any cs => exact .any (List.forall₂_same.2 fun c _ => .refl c)

namespace Data.Respelled

variable {shown : List String} {data data' : Data}

theorem refl (shown : List String) (data : Data) : Data.Respelled shown data data := by
  refine ⟨fun id => ?_, fun _ _ => rfl⟩
  cases data.get? id with
  | none => exact .none
  | some v => exact .some (.same v)

/-- Both rows get a value under an id, or two spellings of one moment. -/
theorem insert (h : Data.Respelled shown data data') {id : String} {v v' : Value} (hv : v.Respelled v')
    (hshown : id ∈ shown → v = v') : Data.Respelled shown (data.insert id v) (data'.insert id v') := by
  constructor
  · intro k
    rw [FieldMap.get?_insert, FieldMap.get?_insert]
    by_cases hk : k = id
    · simp only [hk, if_true]
      exact .some hv
    · simp only [hk, if_false]
      exact h.values k
  · intro k hmem
    rw [FieldMap.get?_insert, FieldMap.get?_insert]
    by_cases hk : k = id
    · subst hk
      rw [if_pos rfl, if_pos rfl, hshown hmem]
    · rw [if_neg hk, if_neg hk, h.agreeOn k hmem]

theorem evaluate_comparison (h : Data.Respelled shown data data') {c c' : Comparison}
    (hc : c.Respelled c') : c.evaluate data = c'.evaluate data' := by
  unfold Comparison.evaluate
  rw [← hc.field, ← hc.operator]
  exact c.operator.between_respelled (h.values c.field) hc.literal

/-- A respelled condition comes out on a respelled row as the condition does on the row. -/
theorem evaluate_eq (h : Data.Respelled shown data data') {c c' : Condition} (hc : c.Respelled c') :
    c.evaluate data = c'.evaluate data' := by
  cases hc with
  | single hc => exact h.evaluate_comparison hc
  | all hcs | any hcs =>
    exact Condition.evaluate_of_forall₂ rfl (hcs.imp fun _ _ hc => h.evaluate_comparison hc)

end Data.Respelled

/-! ## Contexts -/

/-- The fields of the data that are shown. -/
def Document.shownFields (ctx : Context) (doc : Document) : List String :=
  (doc.shown ctx).flatMap Block.fields

/-- The fields of a row that are shown: those in the template, if the filter keeps the row. -/
def RowList.shownFields (rows : RowList) (row : Data) : List String :=
  if rows.holds row then rows.template.flatMap ItemBlock.fields else []

/-- The second context is the first with some date-times of the data and of the rows respelled, none of
them where a place shows it. -/
structure Document.RespelledContext (doc : Document) (ctx ctx' : Context) : Prop where
  data : Data.Respelled (doc.shownFields ctx) ctx.data ctx'.data
  rows : ∀ rows ∈ doc.readers ctx,
    Option.Rel (List.Forall₂ fun row row' => Data.Respelled (rows.shownFields row) row row')
      (ctx.rows? rows.id) (ctx'.rows? rows.id)

section

variable (format : Formatter) {doc : Document} {ctx ctx' : Context}

theorem RowList.indistinct_of_respelled {rows : RowList} {row row' : Data}
    (h : Data.Respelled (rows.shownFields row) row row') : rows.Indistinct format row row' := by
  refine ⟨fun filter _ => h.evaluate_eq (.refl filter), fun hholds => ?_⟩
  have hagree := h.agreeOn
  rw [shownFields, if_pos hholds] at hagree
  exact showAlike_of_agreeOn format hagree

theorem Document.RespelledContext.block_indistinct (h : doc.RespelledContext ctx ctx') {b : Block}
    (hb : b ∈ doc.shown ctx) : b.Indistinct format ctx ctx' := by
  have hfields : Data.AgreeOn b.fields ctx.data ctx'.data := h.data.agreeOn.of_mem hb
  cases b with
  | item b => exact showAlike_of_agreeOn format (by simpa [Block.fields] using hfields)
  | list style items => exact fun item hitem => showAlike_of_agreeOn format (hfields.of_mem hitem)
  | rows style repeated =>
    intro htemplate
    have hread : repeated ∈ doc.readers ctx :=
      List.mem_flatMap.2 ⟨_, hb, by simpa [Block.rowLists] using htemplate⟩
    exact rows_imp (fun _ _ => RowList.indistinct_of_respelled format) (h.rows repeated hread)

/-- A document cannot tell a context from one in which what it does not show is respelled. -/
theorem Document.RespelledContext.compile_eq (h : doc.RespelledContext ctx ctx') :
    doc.compileWith format ctx = doc.compileWith format ctx' := by
  refine compileWith_of_shown (fun c blocks _ => h.data.evaluate_eq (.refl c)) fun b hb => ?_
  exact h.block_indistinct format hb

end

/-! ## Documents -/

structure RowList.Respelled (rows rows' : RowList) : Prop where
  id : rows.id = rows'.id
  filter : Option.Rel Condition.Respelled rows.filter rows'.filter
  template : rows.template = rows'.template

inductive Block.Respelled : Block → Block → Prop
  | same (b : Block) : Respelled b b
  | rows (style : ListStyle) {rows rows' : RowList} (h : rows.Respelled rows') :
    Respelled (.rows style rows) (.rows style rows')

inductive Node.Respelled : Node → Node → Prop
  | block {b b' : Block} (h : b.Respelled b') : Respelled (.block b) (.block b')
  | conditional {c c' : Condition} {blocks blocks' : List Block} (hc : c.Respelled c')
    (hblocks : List.Forall₂ Block.Respelled blocks blocks') :
    Respelled (.conditional c blocks) (.conditional c' blocks')

/-- The second document is the first with literals respelled in the conditions of its sections and in the
filters of its placeholder lists. -/
structure Document.Respelled (doc doc' : Document) : Prop where
  title : doc.title = doc'.title
  language : doc.language = doc'.language
  content : List.Forall₂ Node.Respelled doc.content doc'.content

section

variable (format : Formatter) (ctx : Context)

theorem RowList.Respelled.keeps_eq {rows rows' : RowList} (h : rows.Respelled rows') (row : Data) :
    rows.keeps row = rows'.keeps row := by
  obtain ⟨hid, hfilter, -⟩ := h
  unfold keeps
  rw [← hid]
  generalize rows.filter = filter? at hfilter ⊢
  generalize rows'.filter = filter?' at hfilter ⊢
  cases hfilter with
  | none => rfl
  | some hc => simp only [(Data.Respelled.refl [] row).evaluate_eq hc]

theorem RowList.Respelled.renderRows_eq {rows rows' : RowList} (h : rows.Respelled rows')
    (data : List Data) : rows.renderRows format data = rows'.renderRows format data := by
  induction data with
  | nil => rfl
  | cons row more ih => rw [renderRows, renderRows, h.keeps_eq, h.template, ih]

theorem Block.Respelled.render_eq {b b' : Block} (h : b.Respelled b') :
    b.render format ctx = b'.render format ctx := by
  cases h with
  | same => rfl
  | rows style h =>
    rw [render, render, RowList.render, RowList.render, ← h.id, ← h.template]
    simp only [h.renderRows_eq format]

theorem Node.Respelled.render_eq {n n' : Node} (h : n.Respelled n') :
    n.render format ctx = n'.render format ctx := by
  cases h with
  | block h => exact h.render_eq format ctx
  | conditional hc hblocks =>
    have hbody := concatM_forall₂ (hblocks.imp fun _ _ h => h.render_eq format ctx)
    rw [render, render, (Data.Respelled.refl [] ctx.data).evaluate_eq hc, hbody]

theorem Document.Respelled.compile_eq {doc doc' : Document} (h : doc.Respelled doc') :
    doc.compileWith format ctx = doc'.compileWith format ctx := by
  have hbody := concatM_forall₂ (h.content.imp fun _ _ h => h.render_eq format ctx)
  rw [compileWith, compileWith, render, render, opening, opening, h.title, h.language, hbody]

end

/-- **Only the moment of a date-time matters.** A respelled condition comes out on a respelled row as
before, with the same verdict or the same error. So a document compiles to the same, or fails in the same
way, after date-times have been respelled in its conditions and filters, and in the data and the rows
wherever they are not shown. -/
theorem Document.compileWith_respelled :
    (∀ (c c' : Condition) (data data' : Data), c.Respelled c' → Data.Respelled [] data data' →
      c.evaluate data = c'.evaluate data') ∧
    ∀ (format : Formatter) (doc doc' : Document) (ctx ctx' : Context), doc.Respelled doc' →
      doc.RespelledContext ctx ctx' → doc.compileWith format ctx = doc'.compileWith format ctx' := by
  refine ⟨fun c c' data data' hc hdata => hdata.evaluate_eq hc, ?_⟩
  intro format doc doc' ctx ctx' hdoc hctx
  calc doc.compileWith format ctx
      = doc.compileWith format ctx' := hctx.compile_eq format
    _ = doc'.compileWith format ctx' := hdoc.compile_eq format ctx'

/-- A text that is no date-time stands behind the deadline. -/
def isLate (deadline : String) : Condition :=
  .all [⟨"due", .gte, .datetime deadline⟩, ⟨"paid", .ne, .datetime "never"⟩]

/-- The payments before the deadline are listed, with the time of each. -/
def reminder (deadline : String) : Document :=
  ⟨"Reminder", none, [
    .conditional (.single ⟨"due", .lte, .datetime deadline⟩) [
      .rows .bullet ⟨"payments", some (.single ⟨"paid", .lt, .datetime deadline⟩),
        [.paragraph ⟨none, [.placeholder "paid" []]⟩]⟩]]⟩

/-- One payment that is in time, and one at a given time. -/
def accounts (due paid : String) : Context :=
  ⟨(FieldMap.empty.insert "due" (.datetime due)).insert "paid" (.datetime "2024-01-01"),
    some (FieldMap.empty.insert "payments" [FieldMap.empty.insert "paid" (.datetime "2023-12-31"),
      FieldMap.empty.insert "paid" (.datetime paid)])⟩

/-- The due date is asked for and not shown, and the second payment is not shown since it is late. -/
theorem compile_reminder :
    (isLate "2024-1-2T3:4").Respelled (isLate " 2024-01-02 04:04:00.0+01:00") ∧
      Data.Respelled [] (accounts "2024-01-02t03:04Z" "2024-02-01").data
        (accounts "2024-1-1T23:04-4" "2024-02-01").data ∧
      (isLate "2024-1-2T3:4").evaluate (accounts "2024-01-02t03:04Z" "2024-02-01").data =
        (isLate " 2024-01-02 04:04:00.0+01:00").evaluate (accounts "2024-1-1T23:04-4" "2024-02-01").data ∧
      (reminder "2024-1-2T3:4").Respelled (reminder " 2024-01-02 04:04:00.0+01:00") ∧
      (reminder "2024-1-2T3:4").RespelledContext (accounts "2024-01-02t03:04Z" "2024-02-01")
        (accounts "2024-1-1T23:04-4" "2024-2-1 00:00:00") ∧
      (reminder "2024-1-2T3:4").compile {} (accounts "2024-01-02t03:04Z" "2024-02-01") =
        (reminder " 2024-01-02 04:04:00.0+01:00").compile {}
          (accounts "2024-1-1T23:04-4" "2024-2-1 00:00:00") := by
  have hdeadline : SameMoment "2024-1-2T3:4" " 2024-01-02 04:04:00.0+01:00" :=
    .of_instant rfl rfl (by decide +kernel)
  have hdue : SameMoment "2024-01-02t03:04Z" "2024-1-1T23:04-4" :=
    .of_instant rfl rfl (by decide +kernel)
  have hpaid : SameMoment "2024-02-01" "2024-2-1 00:00:00" := .of_instant rfl rfl (by decide +kernel)
  have hcondition : (isLate "2024-1-2T3:4").Respelled (isLate " 2024-01-02 04:04:00.0+01:00") :=
    .all (.cons ⟨rfl, rfl, .datetime hdeadline⟩ (.cons (.refl _) .nil))
  have hdata : ∀ shown, "due" ∉ shown → Data.Respelled shown
      (accounts "2024-01-02t03:04Z" "2024-02-01").data (accounts "2024-1-1T23:04-4" "2024-02-01").data := by
    intro shown hshown
    have hinsert := (Data.Respelled.refl shown .empty).insert (.datetime hdue) fun h => absurd h hshown
    exact hinsert.insert (.same _) fun _ => rfl
  have hdocument : (reminder "2024-1-2T3:4").Respelled (reminder " 2024-01-02 04:04:00.0+01:00") := by
    refine ⟨rfl, rfl, .cons (.conditional ?_ (.cons (.rows .bullet ⟨rfl, ?_, rfl⟩) .nil)) .nil⟩
    · exact .single ⟨rfl, rfl, .datetime hdeadline⟩
    · exact .some (.single ⟨rfl, rfl, .datetime hdeadline⟩)
  have hcontext : (reminder "2024-1-2T3:4").RespelledContext (accounts "2024-01-02t03:04Z" "2024-02-01")
      (accounts "2024-1-1T23:04-4" "2024-2-1 00:00:00") := by
    refine ⟨hdata _ (by decide), fun rows hr => ?_⟩
    obtain rfl : rows = _ := List.mem_singleton.1 hr
    refine .some (.cons (.refl _ _) (.cons ?_ .nil))
    exact (Data.Respelled.refl _ .empty).insert (.datetime hpaid) fun h => absurd h (by decide)
  have hmain := Document.compileWith_respelled
  exact ⟨hcondition, hdata [] (by simp), hmain.1 _ _ _ _ hcondition (hdata [] (by simp)), hdocument,
    hcontext, hmain.2 (Labels.display {}) _ _ _ _ hdocument hcontext⟩

/-- What the condition comes to is the error of its second member. -/
example : (isLate "2024-1-2T3:4").evaluate (accounts "2024-01-02t03:04Z" "2024-02-01").data =
    .error (.error (.invalidDateTime "never")) := rfl

end FormPress
