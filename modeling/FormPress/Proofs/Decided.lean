import FormPress.Proofs.Reached
/-!
# Rendering once all is decided

Where every evaluation that is reached has a verdict, compilation renders the blocks that are shown
(`Document.render_eq_shown`), and a list, repeated or not, renders its items one by one
(`Block.render_eq_items`).
-/
namespace FormPress

/-- Every evaluation of the list has a verdict. -/
def AllDecided (vs : List Evaluation) : Prop := ∀ v ∈ vs, ∃ b, v.verdict = .ok b

theorem AllDecided.left {vs ws : List Evaluation} (h : AllDecided (vs ++ ws)) : AllDecided vs :=
  fun v hv => h v (by simp [hv])

theorem AllDecided.right {vs ws : List Evaluation} (h : AllDecided (vs ++ ws)) : AllDecided ws :=
  fun v hv => h v (by simp [hv])

theorem AllDecided.of_mem {α : Type} {f : α → List Evaluation} {l : List α}
    (h : AllDecided (l.flatMap f)) {a : α} (ha : a ∈ l) : AllDecided (f a) :=
  fun v hv => h v (List.mem_flatMap.2 ⟨a, ha, hv⟩)

instance (vs : List Evaluation) : Decidable (AllDecided vs) :=
  decidable_of_iff (∀ v ∈ vs, v.failure? = none) (by
    simp only [AllDecided, Evaluation.failure?_eq_none_iff])

/-- What has succeeded has come through decided evaluations only. -/
theorem Follows.allDecided {α : Type} {x : Compiled α} {vs : List Evaluation} (h : Follows x vs)
    {a : α} (hx : x = .ok a) : AllDecided vs :=
  fun v hv => Evaluation.failure?_eq_none_iff.1 (List.findSome?_eq_none_iff.1 (h.ok a hx) v hv)

theorem Condition.evaluate_of_decided {c : Condition} {data : Data}
    (h : ∃ b, c.evaluate data = .ok b) : c.evaluate data = .ok (c.holds data) := by
  obtain ⟨b, hb⟩ := h
  rw [hb, Condition.holds_of_evaluate hb]

/-! ## Lists -/

/-- Whether the filter keeps a row. -/
def RowList.holds (rows : RowList) (row : Data) : Bool := rows.filter.all (·.holds row)

theorem RowList.keeps_eq {rows : RowList} {row : Data} (h : AllDecided (rows.evaluations row)) :
    rows.keeps row = .ok (rows.holds row) := by
  unfold keeps holds
  cases hf : rows.filter with
  | none => rfl
  | some filter =>
    have hv := Condition.evaluate_of_decided (h ⟨.filter rows.id, filter, row⟩ (by simp [evaluations, hf]))
    exact blame_eq_ok_iff.2 (by simpa using hv)

theorem RowList.holds_of_keeps {rows : RowList} {row : Data} {b : Bool} (h : rows.keeps row = .ok b) :
    rows.holds row = b := by
  unfold keeps at h
  unfold holds
  cases hf : rows.filter with
  | none =>
    rw [hf] at h
    exact Except.ok.inj h
  | some filter =>
    rw [hf] at h
    exact Condition.holds_of_evaluate (blame_eq_ok_iff.1 h)

theorem RowList.renderRows_eq {format : Formatter} {rows : RowList} :
    ∀ {data : List Data}, AllDecided (data.flatMap rows.evaluations) →
      rows.renderRows format data =
        orAbort ((data.filter rows.holds).mapM fun row => renderItem format row rows.template)
  | [], _ => rfl
  | row :: more, h => by
    rw [List.flatMap_cons] at h
    rw [renderRows, keeps_eq h.left, ok_bind, renderRows_eq h.right, List.filter_cons]
    cases rows.holds row with
    | false => simp
    | true => simp [List.mapM_cons, orAbort_bind]

/-- An item that is not a paragraph alone renders its blocks one behind the other. -/
theorem renderItem_eq_concatM {format : Formatter} {data : Data} {content : List ItemBlock}
    (h : ∀ p, content ≠ [.paragraph p]) :
    renderItem format data content =
      concatM (ItemBlock.render format data) content >>= fun m => .ok (.bracketed m) := by
  unfold renderItem
  split
  · exact absurd rfl (h _)
  · rfl

/-- The rows that are kept, each with the template. -/
def RowList.items (ctx : Context) (rows : RowList) : List (Data × List ItemBlock) :=
  if rows.template = [] then []
  else (((ctx.rows? rows.id).getD []).filter rows.holds).map (·, rows.template)

/-- The style of a list, and for each of its items the row it is rendered against and its content. -/
def Block.items? (ctx : Context) : Block → Option (ListStyle × List (Data × List ItemBlock))
  | .item _ => none
  | .list style items => some (style, items.map fun item => (ctx.data, item.content))
  | .rows style repeated => some (style, repeated.items ctx)

/-- A list, whether its items are written or repeated over rows, renders them one by one. -/
theorem Block.render_eq_items {format : Formatter} {ctx : Context} {b : Block} {style : ListStyle}
    {items : List (Data × List ItemBlock)} (h : AllDecided (b.reached ctx))
    (hb : b.items? ctx = some (style, items)) :
    b.render format ctx =
      orAbort (items.mapM fun item => renderItem format item.1 item.2) >>= fun ms =>
        .ok (style.wrap ms) := by
  match b, hb with
  | .list _ written, hb =>
    cases hb
    rw [render, orAbort_bind, List.mapM_map]; rfl
  | .rows _ repeated, hb =>
    cases hb
    simp only [render, RowList.render, reached, RowList.reached, RowList.items] at h ⊢
    unfold Context.rows? at h ⊢
    cases ht : repeated.template with
    | nil => cases ctx.subData.bind (·.get? repeated.id) <;> simp [ListStyle.wrap]
    | cons t ts =>
      cases hd : ctx.subData.bind (·.get? repeated.id) with
      | none => simp [ListStyle.wrap]
      | some data =>
        simp only [ht, hd, reduceCtorEq, if_false, Option.getD_some] at h ⊢
        rw [RowList.renderRows_eq h, List.mapM_map, ht]; rfl

/-! ## Sections -/

theorem Node.render_eq_shown {format : Formatter} {ctx : Context} {n : Node}
    (h : AllDecided (n.reached ctx)) :
    n.render format ctx = concatM (Block.render format ctx) (n.shown ctx) := by
  match n with
  | .block b => rw [render, shown, concatM_singleton]
  | .conditional c blocks =>
    have hc : c.evaluate ctx.data = .ok (c.holds ctx.data) :=
      Condition.evaluate_of_decided (h ⟨.condition, c, ctx.data⟩ (by simp [reached]))
    rw [render, blame_eq_ok_iff.2 hc, ok_bind, shown]
    split <;> rfl

theorem Document.render_eq_shown {format : Formatter} {ctx : Context} {doc : Document}
    (h : AllDecided (doc.reached ctx)) :
    doc.render format ctx =
      concatM (Block.render format ctx) (doc.shown ctx) >>= fun body => .ok (doc.opening ++ body) := by
  rw [render, shown, concatM_flatMap, concatM_congr fun n hn => Node.render_eq_shown (h.of_mem hn)]
  rfl

/-- What a block comes to, the document that shows it comes to. -/
theorem Document.allDecided_of_shown {ctx : Context} {doc : Document}
    (h : AllDecided (doc.reached ctx)) {b : Block} (hb : b ∈ doc.shown ctx) :
    AllDecided (b.reached ctx) := by
  obtain ⟨n, hn, hb⟩ := List.mem_flatMap.1 hb
  have hn := h.of_mem hn
  cases n with
  | block b' =>
    obtain rfl : b = b' := by simpa [Node.shown] using hb
    exact hn
  | conditional c blocks =>
    by_cases hc : c.holds ctx.data = true
    · rw [Node.shown, if_pos hc] at hb
      rw [Node.reached, if_pos hc] at hn
      exact AllDecided.of_mem (fun v hv => hn v (by simp [hv])) hb
    · simp [Node.shown, hc] at hb

/-- What has compiled is the opening lines and, behind them, what each block that is shown renders
as. -/
theorem Document.exists_segments {format : Formatter} {doc : Document} {ctx : Context} {text : String}
    (h : doc.compileWith format ctx = .ok text) :
    ∃ segments, List.Forall₂ (fun b m => b.render format ctx = .ok m) (doc.shown ctx) segments ∧
      text.toList = doc.opening ++ segments.flatten := by
  rw [compileWith, render_eq_shown ((doc.follows_compileWith format ctx).allDecided h)] at h
  obtain ⟨m, hm, rfl⟩ := map_eq_ok_iff.1 h
  obtain ⟨body, hbody, rfl⟩ := map_eq_ok_iff.1 hm
  obtain ⟨segments, hsegments, rfl⟩ := concatM_eq_ok_iff.1 hbody
  exact ⟨segments, hsegments, String.toList_ofList⟩

end FormPress
