import FormPress.Proofs.Settled
/-!
# The evaluations that compilation comes to

Compilation decides the condition of every section and, for the blocks it goes on to show, the filter
of every placeholder list on each of its rows. `Document.reached` lists these evaluations in document
order. Compilation fails where one of them does, and the first failure is the one that is reported.
-/
namespace FormPress

/-- A condition that is decided on a row, and what compilation makes of an error in it. -/
structure Evaluation where
  blame : ConditionError → CompileError
  condition : Condition
  data : Data

namespace Evaluation

def verdict (v : Evaluation) : Verdict := v.condition.evaluate v.data

/-- The failure that compilation reports for the evaluation. -/
def failure? (v : Evaluation) : Option (Failure CompileError) :=
  match v.verdict with
  | .ok _ => none
  | .error (.abort a) => some (.abort a)
  | .error (.error source) => some (.error (v.blame source))

theorem failure?_eq_none_iff {v : Evaluation} : v.failure? = none ↔ ∃ b, v.verdict = .ok b := by
  unfold failure?
  split <;> simp_all

theorem failure?_eq_error_iff {v : Evaluation} {e : CompileError} :
    v.failure? = some (.error e) ↔ ∃ source, v.verdict = .error (.error source) ∧ v.blame source = e := by
  unfold failure?
  split <;> simp_all

end Evaluation

/-- Whether the condition is decided, and holds. -/
def Condition.holds (c : Condition) (data : Data) : Bool :=
  match c.evaluate data with
  | .ok b => b
  | .error _ => false

theorem Condition.holds_of_evaluate {c : Condition} {data : Data} {b : Bool}
    (h : c.evaluate data = .ok b) : c.holds data = b := by
  simp [holds, h]

/-! ## Reached evaluations -/

/-- The rows that a placeholder list repeats over, if there are any under its id. -/
def Context.rows? (ctx : Context) (id : String) : Option (List Data) := ctx.subData.bind (·.get? id)

def RowList.evaluations (rows : RowList) (row : Data) : List Evaluation :=
  rows.filter.toList.map (⟨.filter rows.id, ·, row⟩)

/-- The filter on each row, unless there is no template. -/
def RowList.reached (ctx : Context) (rows : RowList) : List Evaluation :=
  if rows.template = [] then [] else ((ctx.rows? rows.id).getD []).flatMap rows.evaluations

def Block.reached (ctx : Context) : Block → List Evaluation
  | .rows _ repeated => repeated.reached ctx
  | .item _ | .list _ _ => []

/-- The condition of a section and, only if it holds, what its blocks come to. -/
def Node.reached (ctx : Context) : Node → List Evaluation
  | .block b => b.reached ctx
  | .conditional condition blocks =>
    ⟨.condition, condition, ctx.data⟩ ::
      if condition.holds ctx.data then blocks.flatMap (Block.reached ctx) else []

def Document.reached (ctx : Context) (doc : Document) : List Evaluation :=
  doc.content.flatMap (Node.reached ctx)

/-- What a node shows: itself, or the blocks of a section whose condition holds. -/
def Node.shown (ctx : Context) : Node → List Block
  | .block b => [b]
  | .conditional condition blocks => if condition.holds ctx.data then blocks else []

/-- The blocks that a document shows, in order. -/
def Document.shown (ctx : Context) (doc : Document) : List Block :=
  doc.content.flatMap (Node.shown ctx)

/-- An evaluation is reached at a section at the top, or at a block that is shown. -/
theorem Document.mem_reached {ctx : Context} {doc : Document} {v : Evaluation}
    (h : v ∈ doc.reached ctx) :
    (∃ c blocks, .conditional c blocks ∈ doc.content ∧ v = ⟨.condition, c, ctx.data⟩) ∨
      ∃ b ∈ doc.shown ctx, v ∈ b.reached ctx := by
  obtain ⟨n, hn, hv⟩ := List.mem_flatMap.1 h
  cases n with
  | block b => exact .inr ⟨b, List.mem_flatMap.2 ⟨_, hn, by simp [Node.shown]⟩, hv⟩
  | conditional c blocks =>
    rcases List.mem_cons.1 hv with rfl | hv
    · exact .inl ⟨c, blocks, hn, rfl⟩
    · split at hv
      · rename_i hc
        obtain ⟨b, hb, hv⟩ := List.mem_flatMap.1 hv
        exact .inr ⟨b, List.mem_flatMap.2 ⟨_, hn, by simpa [Node.shown, hc] using hb⟩, hv⟩
      · simp at hv

/-- A filter is reached on a row only where there are rows and a template. -/
theorem Block.mem_reached {ctx : Context} {b : Block} {v : Evaluation} (h : v ∈ b.reached ctx) :
    ∃ style rows data row filter, b = .rows style rows ∧ rows.template ≠ [] ∧
      ctx.rows? rows.id = some data ∧ row ∈ data ∧ rows.filter = some filter ∧
      v = ⟨.filter rows.id, filter, row⟩ := by
  match b with
  | .item _ | .list _ _ => simp [reached] at h
  | .rows style repeated =>
    simp only [reached, RowList.reached] at h
    split at h
    · simp at h
    · rename_i ht
      obtain ⟨row, hrow, hv⟩ := List.mem_flatMap.1 h
      cases hd : ctx.rows? repeated.id with
      | none => simp [hd] at hrow
      | some data =>
        obtain ⟨filter, hf, rfl⟩ := List.mem_map.1 hv
        exact ⟨style, repeated, data, row, filter, rfl, ht, hd, by simpa [hd] using hrow,
          by simpa using hf, rfl⟩

/-! ## Following -/

/-- `x` goes through the evaluations `vs`: it succeeds only past all of them, and an error of it is
the first failure among them. Where `x` breaks off nothing is said. -/
structure Follows {α : Type} (x : Compiled α) (vs : List Evaluation) : Prop where
  ok : ∀ a, x = .ok a → vs.findSome? Evaluation.failure? = none
  error : ∀ e, x = .error (.error e) → vs.findSome? Evaluation.failure? = some (.error e)

variable {α β : Type}

theorem Follows.pure (a : α) : Follows (.ok a) [] := ⟨fun _ _ => rfl, by simp⟩

theorem Follows.orAbort (x : Except Abort α) : Follows (orAbort x) [] :=
  ⟨fun _ _ => rfl, fun _ h => absurd h orAbort_ne_error⟩

theorem Follows.blame (wrap : ConditionError → CompileError) (c : Condition) (data : Data) :
    Follows (blame wrap (c.evaluate data)) [⟨wrap, c, data⟩] := by
  constructor <;> intro r h <;>
    rcases hc : c.evaluate data with (_ | _) | b <;>
    simp_all [FormPress.blame, Except.mapError, Evaluation.failure?, Evaluation.verdict]

theorem Follows.bind {x : Compiled α} {f : α → Compiled β} {vs ws : List Evaluation}
    (hx : Follows x vs) (hf : ∀ a, x = .ok a → Follows (f a) ws) : Follows (x >>= f) (vs ++ ws) := by
  constructor
  · intro b h
    obtain ⟨a, ha, hb⟩ := bind_eq_ok_iff.1 h
    rw [List.findSome?_append, hx.ok a ha, (hf a ha).ok b hb]; rfl
  · intro e h
    rw [List.findSome?_append]
    rcases bind_eq_error_iff.1 h with h | ⟨a, ha, hb⟩
    · rw [hx.error e h]; rfl
    · rw [hx.ok a ha, (hf a ha).error e hb]; rfl

theorem Follows.map {x : Compiled α} {vs : List Evaluation} (hx : Follows x vs) (f : α → β) :
    Follows (x >>= fun a => .ok (f a)) vs := by
  simpa using hx.bind fun a _ => Follows.pure (f a)

theorem Follows.concatM {render : α → Compiled Markup} {reached : α → List Evaluation}
    (h : ∀ a, Follows (render a) (reached a)) :
    ∀ l : List α, Follows (concatM render l) (l.flatMap reached)
  | [] => Follows.pure _
  | a :: as => (h a).bind fun markup _ => (Follows.concatM h as).map (markup ++ ·)

/-! ## What the parts of a document come to -/

theorem RowList.follows_keeps (rows : RowList) (row : Data) :
    Follows (rows.keeps row) (rows.evaluations row) := by
  unfold keeps evaluations
  cases rows.filter with
  | none => exact Follows.pure _
  | some filter => exact Follows.blame _ filter row

theorem RowList.follows_renderRows (format : Formatter) (rows : RowList) :
    ∀ data : List Data, Follows (rows.renderRows format data) (data.flatMap rows.evaluations)
  | [] => Follows.pure _
  | row :: more => by
    refine (rows.follows_keeps row).bind fun kept _ => ?_
    have hmore := rows.follows_renderRows format more
    cases kept with
    | false => exact hmore
    | true => exact (Follows.orAbort _).bind fun markup _ => hmore.map (markup :: ·)

theorem RowList.follows_render (format : Formatter) (ctx : Context) (style : ListStyle) (rows : RowList) :
    Follows (rows.render format ctx style) (rows.reached ctx) := by
  unfold render reached Context.rows?
  cases rows.template with
  | nil => cases ctx.subData.bind (·.get? rows.id) <;> exact Follows.pure _
  | cons b bs =>
    cases ctx.subData.bind (·.get? rows.id) with
    | none => exact Follows.pure _
    | some data => exact (rows.follows_renderRows format data).map style.wrap

theorem Block.follows_render (format : Formatter) (ctx : Context) :
    ∀ b : Block, Follows (b.render format ctx) (b.reached ctx)
  | .item _ => Follows.orAbort _
  | .list _ _ => Follows.orAbort _
  | .rows style repeated => repeated.follows_render format ctx style

theorem Node.follows_render (format : Formatter) (ctx : Context) :
    ∀ n : Node, Follows (n.render format ctx) (n.reached ctx)
  | .block b => b.follows_render format ctx
  | .conditional condition blocks => by
    refine (Follows.blame _ condition ctx.data).bind fun b hb => ?_
    have hholds : condition.holds ctx.data = b := Condition.holds_of_evaluate (blame_eq_ok_iff.1 hb)
    rw [hholds]
    cases b with
    | false => exact Follows.pure _
    | true => exact Follows.concatM (Block.follows_render format ctx) blocks

theorem Document.follows_compileWith (format : Formatter) (doc : Document) (ctx : Context) :
    Follows (doc.compileWith format ctx) (doc.reached ctx) :=
  ((Follows.concatM (Node.follows_render format ctx) doc.content).map (doc.opening ++ ·)).map
    String.ofList

/-! ## Failures -/

/-- The first evaluation without a verdict fails with an error, and `e` is what is made of it. -/
def FailsFirst (vs : List Evaluation) (e : CompileError) : Prop :=
  ∃ before v after source, vs = before ++ v :: after ∧ (∀ u ∈ before, ∃ b, u.verdict = .ok b) ∧
    v.verdict = .error (.error source) ∧ v.blame source = e

theorem failsFirst_iff {vs : List Evaluation} {e : CompileError} :
    FailsFirst vs e ↔ vs.findSome? Evaluation.failure? = some (.error e) := by
  simp only [List.findSome?_eq_some_iff, Evaluation.failure?_eq_none_iff,
    Evaluation.failure?_eq_error_iff]
  constructor
  · rintro ⟨before, v, after, source, hvs, hb, hv, he⟩
    exact ⟨before, v, after, hvs, ⟨source, hv, he⟩, hb⟩
  · rintro ⟨before, v, after, hvs, ⟨source, hv, he⟩, hb⟩
    exact ⟨before, v, after, source, hvs, hb, hv, he⟩

/-- A comparison fails only on a field that is there, with a value of the literal's kind. -/
theorem Comparison.exists_of_evaluate_error {c : Comparison} {data : Data}
    {x : Failure ConditionError} (h : c.evaluate data = .error x) :
    ∃ v, data.get? c.field = some v ∧ v.kind = c.literal.kind := by
  unfold evaluate Operator.between at h
  cases hv : data.get? c.field with
  | none => simp [hv] at h
  | some v =>
    refine ⟨v, rfl, ?_⟩
    by_cases hk : v.kind = c.literal.kind
    · exact hk
    · simp [hv, hk] at h

/-- A condition fails only at a member whose field is there. -/
theorem Condition.exists_of_evaluate_error {c : Condition} {data : Data}
    {x : Failure ConditionError} (h : c.evaluate data = .error x) :
    ∃ m ∈ c.members, ∃ v, data.get? m.field = some v ∧ v.kind = m.literal.kind := by
  obtain ⟨m, hm, hx⟩ := exists_member_error h
  exact ⟨m, hm, Comparison.exists_of_evaluate_error hx⟩

/-- Unless it breaks off, a computation fails exactly with the first failure it goes through. -/
theorem Follows.error_iff {x : Compiled α} {vs : List Evaluation} (hx : Follows x vs)
    (hpanic : ∀ a, x ≠ .error (.abort a)) (e : CompileError) :
    x = .error (.error e) ↔ FailsFirst vs e := by
  rw [failsFirst_iff]
  refine ⟨hx.error e, fun h => ?_⟩
  rcases x with (a | e') | b
  · exact absurd rfl (hpanic a)
  · have := hx.error e' rfl
    simp_all
  · have := hx.ok b rfl
    simp_all

/-- Unless it breaks off, a computation succeeds if no evaluation it goes through fails. -/
theorem Follows.exists_ok {x : Compiled α} {vs : List Evaluation} (hx : Follows x vs)
    (hpanic : ∀ a, x ≠ .error (.abort a))
    (hok : ∀ v ∈ vs, ∀ source, v.verdict ≠ .error (.error source)) : ∃ a, x = .ok a := by
  rcases x with (a | e) | b
  · exact absurd rfl (hpanic a)
  · obtain ⟨before, v, after, source, rfl, -, hv, -⟩ := (hx.error_iff hpanic e).1 rfl
    exact absurd hv (hok v (by simp) source)
  · exact ⟨b, rfl⟩

/-- **Compilation fails exactly where an evaluation it comes to fails, with the first such failure.**
It is blamed on its section, or on its placeholder list by id. An error of a filter comes from a row of
a list that is shown, has a template and has rows; and every failing condition compares a field that is
there, so no absence is an error. -/
theorem Document.compileWith_fails_first (format : Formatter) (doc : Document) (ctx : Context)
    (hpanic : ∀ a, doc.compileWith format ctx ≠ .error (.abort a)) :
    ((∃ x, doc.compileWith format ctx = .error x) ↔
      ∃ v ∈ doc.reached ctx, ∃ source, v.verdict = .error (.error source)) ∧
    (∀ e, doc.compileWith format ctx = .error (.error e) ↔ FailsFirst (doc.reached ctx) e) ∧
    (∀ id source, doc.compileWith format ctx = .error (.error (.filter id source)) →
      ∃ style rows data row filter, .rows style rows ∈ doc.shown ctx ∧ rows.id = id ∧
        rows.template ≠ [] ∧ ctx.rows? id = some data ∧ row ∈ data ∧ rows.filter = some filter ∧
        filter.evaluate row = .error (.error source)) ∧
    (∀ v ∈ doc.reached ctx, ∀ x, v.verdict = .error x →
      ∃ c ∈ v.condition.members, ∃ value, v.data.get? c.field = some value) := by
  have hfollows := doc.follows_compileWith format ctx
  have hfirst := hfollows.error_iff hpanic
  refine ⟨⟨?_, ?_⟩, hfirst, ?_, ?_⟩
  · rintro ⟨a | e, h⟩
    · exact absurd h (hpanic a)
    · obtain ⟨before, v, after, source, hvs, -, hv, -⟩ := (hfirst e).1 h
      exact ⟨v, by simp [hvs], source, hv⟩
  · rintro ⟨v, hv, source, hs⟩
    cases hc : doc.compileWith format ctx with
    | error x => exact ⟨x, rfl⟩
    | ok text =>
      have := List.findSome?_eq_none_iff.1 (hfollows.ok text hc) v hv
      obtain ⟨b, hb⟩ := Evaluation.failure?_eq_none_iff.1 this
      rw [hs] at hb; cases hb
  · intro id source h
    obtain ⟨before, v, after, source', hvs, -, hv, he⟩ := (hfirst _).1 h
    rcases mem_reached (v := v) (by rw [hvs]; simp) with ⟨_, _, _, rfl⟩ | ⟨b, hb, hr⟩
    · cases he
    · obtain ⟨style, rows, data, row, filter, rfl, ht, hd, hrow, hf, rfl⟩ := Block.mem_reached hr
      cases he
      exact ⟨style, rows, data, row, filter, hb, rfl, ht, hd, hrow, hf, hv⟩
  · intro v _ x hx
    obtain ⟨c, hc, value, hvalue, -⟩ := Condition.exists_of_evaluate_error hx
    exact ⟨c, hc, value, hvalue⟩

/-- Texts are not ordered, so this filter fails on every row that has a name. -/
def namesBelow (id : String) : RowList :=
  ⟨id, some (.single ⟨"name", .lt, .text "m"⟩), [.paragraph ⟨none, [.text "x" []]⟩]⟩

/-- Only the third filter is reached: the first stands in a section that is not shown, the second
has no rows. -/
def maskedFilters : Document :=
  ⟨"T", none, [.conditional (.any []) [.rows .bullet (namesBelow "people")],
    .block (.rows .bullet (namesBelow "nobody")),
    .conditional (.all []) [.rows .ordered (namesBelow "people")],
    .conditional (.single ⟨"title", .gt, .text "a"⟩) []]⟩

def oneOfTwoNamed : Context :=
  ⟨.empty, some (FieldMap.empty.insert "people" [.empty, FieldMap.empty.insert "name" (.text "a")])⟩

theorem compile_maskedFilters :
    (∀ a, maskedFilters.compile {} oneOfTwoNamed ≠ .error (.abort a)) ∧
      FailsFirst (maskedFilters.reached oneOfTwoNamed) (.filter "people" (.unsupported .lt .text)) := by
  have hc : maskedFilters.compile {} oneOfTwoNamed =
      .error (.error (.filter "people" (.unsupported .lt .text))) := rfl
  have hpanic : ∀ a, maskedFilters.compile {} oneOfTwoNamed ≠ .error (.abort a) := by simp [hc]
  have hfirst := (maskedFilters.compileWith_fails_first (Labels.display {}) oneOfTwoNamed hpanic).2.1
  exact ⟨hpanic, (hfirst _).1 hc⟩

end FormPress
