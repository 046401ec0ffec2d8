import FormPress.Proofs.Dependence
/-!
# Conditions that cannot fail

Whether a comparison can fail shows from its operator and its literal alone. A safe one has a verdict on
every row; every other one fails on a row that holds the right value (`Comparison.exists_error`). So a
document whose conditions and filters are made of safe comparisons never fails with an error
(`Document.compile_safe`), whatever the data.
-/
namespace FormPress

/-! ## Safe comparisons -/

/-- The comparison is with a number, or it asks whether a value is the same or another and not with a
date-time. -/
def Comparison.Safe (c : Comparison) : Prop :=
  c.literal.kind = .number ∨ c.literal.kind ≠ .datetime ∧ (c.operator = .eq ∨ c.operator = .ne)

instance (c : Comparison) : Decidable c.Safe :=
  inferInstanceAs (Decidable (_ ∨ _ ∧ (_ ∨ _)))

def Condition.Safe (c : Condition) : Prop := ∀ m ∈ c.members, m.Safe

instance (c : Condition) : Decidable c.Safe :=
  inferInstanceAs (Decidable (∀ m ∈ c.members, m.Safe))

theorem Operator.asksOrder_eq_false_iff {op : Operator} : op.asksOrder = false ↔ op = .eq ∨ op = .ne := by
  cases op <;> simp [asksOrder]

/-- Values that are neither numbers nor date-times know equality alone. -/
theorem Operator.betweenAlike_unordered (op : Operator) {left right : Value}
    (hnumber : left.kind ≠ .number) (hdatetime : left.kind ≠ .datetime) :
    op.betweenAlike left right =
      if op.asksOrder then .error (.error (.unsupported op left.kind))
      else .ok (op.holds (if left = right then .eq else .lt)) := by
  cases left with
  | number n => exact absurd rfl hnumber
  | datetime s => exact absurd rfl hdatetime
  | text _ | boolean _ | date _ | choice _ | choiceList _ | file _ => rfl

theorem Operator.betweenAlike_number (op : Operator) {left right : Value}
    (hleft : left.kind = .number) (hright : right.kind = .number) :
    ∃ b, op.betweenAlike left right = .ok b := by
  cases left <;> cases hleft
  cases right <;> cases hright
  exact ⟨_, rfl⟩

/-- A safe comparison has a verdict on every row. -/
theorem Comparison.evaluate_safe {c : Comparison} (h : c.Safe) (data : Data) :
    ∃ b, c.evaluate data = .ok b := by
  unfold evaluate Operator.between
  cases data.get? c.field with
  | none => exact ⟨_, rfl⟩
  | some v =>
    by_cases hk : v.kind = c.literal.kind
    · simp only [hk, if_true]
      rcases h with hnumber | ⟨hdatetime, hop⟩
      · exact c.operator.betweenAlike_number (hk.trans hnumber) hnumber
      · by_cases hnumber : c.literal.kind = .number
        · exact c.operator.betweenAlike_number (hk.trans hnumber) hnumber
        · have hasks := Operator.asksOrder_eq_false_iff.2 hop
          rw [Operator.betweenAlike_unordered _ (hk ▸ hnumber) (hk ▸ hdatetime), hasks]
          exact ⟨_, rfl⟩
    · simp only [hk, if_false]
      exact ⟨_, rfl⟩

theorem Condition.evaluate_safe {c : Condition} (h : c.Safe) (data : Data) :
    ∃ b, c.evaluate data = .ok b :=
  exists_evaluate_of_decided fun m hm => Comparison.evaluate_safe (h m hm) data

/-! ## Comparisons that are not safe -/

/-- The row that holds one value. -/
def Data.only (id : String) (v : Value) : Data := FieldMap.empty.insert id v

theorem Data.get?_only (id : String) (v : Value) : (Data.only id v).get? id = some v := by
  rw [only, FieldMap.get?_insert, if_pos rfl]

/-- A comparison that is not safe fails on a row: a comparison of date-times where the field holds none,
and one that asks for an order where the field holds the literal itself. -/
theorem Comparison.exists_error {c : Comparison} (h : ¬ c.Safe) :
    ∃ data e, c.evaluate data = .error (.error e) := by
  obtain ⟨hnumber, hequal⟩ := not_or.1 h
  by_cases hdatetime : c.literal.kind = .datetime
  · refine ⟨Data.only c.field (.datetime ""), .invalidDateTime "", ?_⟩
    obtain ⟨s, hs⟩ : ∃ s, c.literal = .datetime s := by
      cases hl : c.literal <;> rw [hl] at hdatetime <;> cases hdatetime
      exact ⟨_, rfl⟩
    have hunread : DateTime.operand "" = .error (.error (.invalidDateTime "")) := rfl
    rw [evaluate, Data.get?_only, hs]
    simp [Operator.between, Operator.betweenAlike, Value.kind, hunread]
  · refine ⟨Data.only c.field c.literal, .unsupported c.operator c.literal.kind, ?_⟩
    have hasks : c.operator.asksOrder = true := by
      rw [← Bool.not_eq_false, Operator.asksOrder_eq_false_iff]
      exact fun hop => hequal ⟨hdatetime, hop⟩
    rw [evaluate, Data.get?_only, Operator.between]
    simp only [if_true]
    rw [Operator.betweenAlike_unordered _ hnumber hdatetime, hasks, if_pos rfl]

/-! ## Safe documents -/

/-- The conditions of all sections and the filters of all placeholder lists are safe. -/
structure Document.Safe (doc : Document) : Prop where
  sections : ∀ c blocks, .conditional c blocks ∈ doc.content → c.Safe
  filters : ∀ rows ∈ doc.rowLists, ∀ filter ∈ rows.filter, filter.Safe

/-- What is shown is part of the document. -/
theorem Document.mem_rowLists {ctx : Context} {doc : Document} {style : ListStyle} {rows : RowList}
    (h : .rows style rows ∈ doc.shown ctx) : rows ∈ doc.rowLists := by
  obtain ⟨n, hn, hb⟩ := List.mem_flatMap.1 h
  refine List.mem_flatMap.2 ⟨n, hn, ?_⟩
  cases n with
  | block b =>
    obtain rfl : .rows style rows = b := by simpa [Node.shown] using hb
    simp [Node.rowLists, Block.rowLists]
  | conditional c blocks =>
    by_cases hc : c.holds ctx.data = true
    · rw [Node.shown, if_pos hc] at hb
      exact List.mem_flatMap.2 ⟨_, hb, by simp [Block.rowLists]⟩
    · simp [Node.shown, hc] at hb

/-- Each evaluation that a safe document comes to has a verdict. -/
theorem Document.Safe.allDecided {doc : Document} (h : doc.Safe) (ctx : Context) :
    AllDecided (doc.reached ctx) := by
  intro v hv
  rcases mem_reached hv with ⟨c, blocks, hc, rfl⟩ | ⟨b, hb, hr⟩
  · exact Condition.evaluate_safe (h.sections c blocks hc) ctx.data
  · obtain ⟨style, rows, data, row, filter, rfl, -, -, -, hf, rfl⟩ := Block.mem_reached hr
    exact Condition.evaluate_safe (h.filters rows (mem_rowLists hb) filter hf) row

/-! ## Values that can be shown -/

/-- No date-time text in the row makes reading break off. -/
def Data.Readable (data : Data) : Prop :=
  ∀ id written, data.get? id = some (.datetime written) → ∃ t, DateTime.parse written = .ok t

/-- So it is with the data and with every row. -/
structure Context.Readable (ctx : Context) : Prop where
  data : ctx.data.Readable
  rows : ∀ id data, ctx.rows? id = some data → ∀ row ∈ data, row.Readable

variable (labels : Labels) {data : Data}

theorem Labels.exists_display (h : data.Readable) {id : String} {v : Value}
    (hv : data.get? id = some v) : ∃ s, labels.display v = .ok s := by
  cases v with
  | datetime written =>
    obtain ⟨t, ht⟩ := h id written hv
    rw [display, datetime, ht, ok_bind]
    cases t with
    | none => exact ⟨_, rfl⟩
    | some t => exact ⟨_, rfl⟩
  | text _ | number _ | boolean _ | date _ | choice _ | choiceList _ | file _ => exact ⟨_, rfl⟩

theorem Inline.exists_render (h : data.Readable) (i : Inline) : ∃ m, i.render labels.display data = .ok m := by
  cases i with
  | text s marks => exact ⟨_, rfl⟩
  | placeholder id marks =>
    cases hv : data.get? id with
    | none => exact ⟨[], by rw [render, hv]⟩
    | some v =>
      obtain ⟨s, hs⟩ := labels.exists_display h hv
      exact ⟨Markup.escape s.toList, by simp [render, hv, hs]⟩

theorem exists_renderInlines (h : data.Readable) (content : List Inline) :
    ∃ m, renderInlines labels.display data content = .ok m :=
  exists_concatM fun i _ => i.exists_render labels h

theorem ItemBlock.exists_render (h : data.Readable) (b : ItemBlock) :
    ∃ m, b.render labels.display data = .ok m := by
  cases b with
  | heading b =>
    obtain ⟨m, hm⟩ := exists_renderInlines labels h b.content
    exact ⟨b.wrap m, by simp [render, Heading.render, hm]⟩
  | paragraph b =>
    obtain ⟨m, hm⟩ := exists_renderInlines labels h b.content
    exact ⟨Paragraph.wrap m, by simp [render, Paragraph.render, hm]⟩

theorem exists_renderItem (h : data.Readable) (content : List ItemBlock) :
    ∃ m, renderItem labels.display data content = .ok m := by
  by_cases hp : ∃ p, content = [.paragraph p]
  · obtain ⟨p, rfl⟩ := hp
    obtain ⟨m, hm⟩ := exists_renderInlines labels h p.content
    exact ⟨.bracketed m, by simp [renderItem, hm]⟩
  · obtain ⟨m, hm⟩ := exists_concatM fun b (_ : b ∈ content) => b.exists_render labels h
    refine ⟨.bracketed m, ?_⟩
    rw [renderItem_eq_concatM fun p hc => hp ⟨p, hc⟩, hm, ok_bind]

/-- The items of a list stand in rows that can be shown. -/
theorem Block.readable_items {ctx : Context} (h : ctx.Readable) {b : Block} {style : ListStyle}
    {items : List (Data × List ItemBlock)} (hb : b.items? ctx = some (style, items)) :
    ∀ item ∈ items, item.1.Readable := by
  intro item hitem
  cases b with
  | item b => cases hb
  | list _ written =>
    cases hb
    obtain ⟨_, _, rfl⟩ := List.mem_map.1 hitem
    exact h.data
  | rows _ repeated =>
    cases hb
    unfold RowList.items at hitem
    split at hitem
    · cases hitem
    · obtain ⟨row, hrow, rfl⟩ := List.mem_map.1 hitem
      have hrow := (List.mem_filter.1 hrow).1
      cases hd : ctx.rows? repeated.id with
      | none => simp [hd] at hrow
      | some rows =>
        rw [hd, Option.getD_some] at hrow
        exact h.rows repeated.id rows hd row hrow

theorem Block.exists_render {ctx : Context} (h : ctx.Readable) {b : Block}
    (hdecided : AllDecided (b.reached ctx)) : ∃ m, b.render labels.display ctx = .ok m := by
  cases hitems : b.items? ctx with
  | none =>
    cases b with
    | item b =>
      obtain ⟨m, hm⟩ := b.exists_render labels h.data
      exact ⟨m, by simp [render, hm]⟩
    | list _ _ => cases hitems
    | rows _ _ => cases hitems
  | some list =>
    obtain ⟨style, items⟩ := list
    obtain ⟨ms, hms⟩ := exists_mapM fun item hitem =>
      exists_renderItem labels (readable_items h hitems item hitem) item.2
    exact ⟨style.wrap ms, by rw [render_eq_items hdecided hitems, hms]; rfl⟩

/-- A document whose conditions have all a verdict compiles, if what it shows can be shown. -/
theorem Document.exists_compile {doc : Document} {ctx : Context} (h : ctx.Readable)
    (hdecided : AllDecided (doc.reached ctx)) : ∃ text, doc.compile labels ctx = .ok text := by
  obtain ⟨body, hbody⟩ := exists_concatM fun b hb =>
    Block.exists_render labels h (allDecided_of_shown hdecided hb)
  refine ⟨String.ofList (doc.opening ++ body), ?_⟩
  rw [compile, compileWith, render_eq_shown hdecided, hbody]
  rfl

/-- **Safe conditions never fail.** A condition made of safe comparisons has a verdict on every row, and a
document with no other conditions and filters never fails with an error: it compiles wherever the
date-times it might show do not break the reading off. But a comparison that is not safe fails on some
row. -/
theorem Document.compile_safe :
    (∀ c : Condition, c.Safe → ∀ data, ∃ b, c.evaluate data = .ok b) ∧
    (∀ doc : Document, doc.Safe → ∀ labels ctx,
      (∀ e, doc.compile labels ctx ≠ .error (.error e)) ∧
      (ctx.Readable → ∃ text, doc.compile labels ctx = .ok text)) ∧
    ∀ c : Comparison, ¬ c.Safe → ∃ data e, c.evaluate data = .error (.error e) := by
  refine ⟨fun c hc data => c.evaluate_safe hc data, fun doc hdoc labels ctx => ⟨?_, ?_⟩, ?_⟩
  · intro e he
    have hfails := (doc.follows_compileWith labels.display ctx).error e he
    obtain ⟨before, v, after, source, hvs, -, hv, -⟩ := failsFirst_iff.2 hfails
    obtain ⟨b, hb⟩ := hdoc.allDecided ctx v (by rw [hvs]; simp)
    rw [hb] at hv
    cases hv
  · intro hctx
    exact exists_compile labels hctx (hdoc.allDecided ctx)
  · intro c hc
    exact c.exists_error hc

/-- The price is ordered as a number, and the state of the sale is only compared. -/
def priceList : Document :=
  ⟨"Prices", none, [
    .conditional (.any [⟨"sale", .eq, .boolean true⟩, ⟨"until", .ne, .date "2024-12-31"⟩]) [
      .item (.paragraph ⟨none, [.placeholder "until" []]⟩),
      .rows .ordered ⟨"articles", some (.all [⟨"price", .gte, .number 10⟩, ⟨"group", .ne, .choice "c1"⟩]),
        [.paragraph ⟨none, [.placeholder "price" []]⟩]⟩]]⟩

/-- The prices of two rows are no numbers, and the section asks for fields that are absent. -/
def mixedPrices : Context :=
  ⟨FieldMap.empty.insert "until" (.datetime "tomorrow"), some (FieldMap.empty.insert "articles"
    [Data.only "price" (.text "12"), Data.only "price" (.number 12), Data.only "price" (.datetime "")])⟩

theorem compile_priceList :
    priceList.Safe ∧ (∀ e, priceList.compile {} mixedPrices ≠ .error (.error e)) ∧
      ¬ Comparison.Safe ⟨"until", .ne, .datetime "2024-12-31"⟩ ∧
      ∃ data e, Comparison.evaluate ⟨"until", .ne, .datetime "2024-12-31"⟩ data = .error (.error e) := by
  have hsafe : priceList.Safe := by
    constructor
    · intro c blocks hc
      obtain ⟨rfl, -⟩ := Node.conditional.inj (List.mem_singleton.1 hc)
      decide
    · intro rows hrows filter hfilter
      obtain rfl : rows = _ := List.mem_singleton.1 hrows
      obtain rfl := Option.some.inj hfilter
      decide
  have hunsafe : ¬ Comparison.Safe ⟨"until", .ne, .datetime "2024-12-31"⟩ := by decide
  have hmain := Document.compile_safe
  exact ⟨hsafe, (hmain.2.1 priceList hsafe {} mixedPrices).1, hunsafe, hmain.2.2 _ hunsafe⟩

end FormPress
