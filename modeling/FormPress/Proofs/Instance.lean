import FormPress.Proofs.Decided
/-!
# Instances of documents

The instance of a document is the document with nothing left to fill in: sections are replaced by the
blocks they show, places by the text they show, placeholder lists by lists with one item for each row
that is kept. To compile a document is to compile its instance, and no data can matter to that any more.
-/
namespace FormPress

/-- A place becomes the text that it shows; without a value it becomes an empty text. -/
def Inline.instantiate (format : Formatter) (data : Data) : Inline → Except Abort Inline
  | .text s marks => .ok (.text s marks)
  | .placeholder id _ =>
    match data.get? id with
    | none => .ok (.text "" [])
    | some v => do return .text (← format v) []

def ItemBlock.instantiate (format : Formatter) (data : Data) : ItemBlock → Except Abort ItemBlock
  | .heading h => do
    return .heading { h with content := ← h.content.mapM (Inline.instantiate format data) }
  | .paragraph p => do
    return .paragraph { p with content := ← p.content.mapM (Inline.instantiate format data) }

def instantiateItem (format : Formatter) (data : Data) (content : List ItemBlock) :
    Except Abort ListItem := do
  return ⟨← content.mapM (ItemBlock.instantiate format data)⟩

/-- The list of the given items, each filled in with a row of its own. -/
def instantiateList (format : Formatter) (style : ListStyle) (items : List (Data × List ItemBlock)) :
    Except Abort (List Block) := do
  return [.list style (← items.mapM fun item => instantiateItem format item.1 item.2)]

/-- A placeholder list without rows of its id, or without a template, is dropped. -/
def Block.instantiate (format : Formatter) (ctx : Context) : Block → Except Abort (List Block)
  | .item b => do return [.item (← b.instantiate format ctx.data)]
  | .list style items =>
    instantiateList format style (items.map fun item => (ctx.data, item.content))
  | .rows style repeated =>
    match ctx.rows? repeated.id, repeated.template with
    | none, _ | some _, [] => .ok []
    | some data, _ :: _ =>
      instantiateList format style ((data.filter repeated.holds).map (·, repeated.template))

/-- The document with nothing left to fill in. -/
def Document.instantiate (format : Formatter) (doc : Document) (ctx : Context) :
    Except Abort Document := do
  let blocks ← (doc.shown ctx).mapM (Block.instantiate format ctx)
  return { doc with content := blocks.flatten.map .block }

/-! ## Rendering whatever the data -/

def Inline.RendersAs (i : Inline) (m : Markup) : Prop := ∀ format data, i.render format data = .ok m

def ItemBlock.RendersAs (b : ItemBlock) (m : Markup) : Prop :=
  ∀ format data, b.render format data = .ok m

def ListItem.RendersAs (item : ListItem) (m : Markup) : Prop :=
  ∀ format data, renderItem format data item.content = .ok m

/-- The blocks render, one behind the other, as `m` in every context. -/
def RenderAs (bs : List Block) (m : Markup) : Prop :=
  ∀ format ctx, concatM (Block.render format ctx) bs = .ok m

/-! ## Instances render as what they are instances of -/

theorem Inline.alike_instantiate (format : Formatter) (data : Data) (i : Inline) :
    Alike Inline.RendersAs (i.instantiate format data) (i.render format data) := by
  cases i with
  | text s marks => exact .ok fun _ _ => rfl
  | placeholder id marks =>
    cases hd : data.get? id with
    | none => simpa only [instantiate, render, hd] using .ok fun _ _ => rfl
    | some v =>
      simp only [instantiate, render, hd, pure_eq_ok]
      cases format v with
      | error a => exact .error a
      | ok s => exact .ok fun _ _ => rfl

theorem alike_instantiateInlines (format : Formatter) (data : Data) (is : List Inline) :
    Alike (fun is' m => ∀ format' data', renderInlines format' data' is' = .ok m)
      (is.mapM (Inline.instantiate format data)) (renderInlines format data is) := by
  refine (Alike.mapM_concatM fun i _ => i.alike_instantiate format data).imp ?_
  rintro is' _ ⟨-, ms, hms, rfl⟩ format' data'
  exact concatM_eq_ok_iff.2 ⟨ms, hms.imp fun _ _ h => h format' data', rfl⟩

theorem ItemBlock.alike_instantiate (format : Formatter) (data : Data) (b : ItemBlock) :
    Alike ItemBlock.RendersAs (b.instantiate format data) (b.render format data) := by
  cases b with
  | heading h =>
    refine (alike_instantiateInlines format data h.content).map fun is m hm format' data' => ?_
    simp only [render, Heading.render, hm format' data', ok_bind]
    rfl
  | paragraph p =>
    refine (alike_instantiateInlines format data p.content).map fun is m hm format' data' => ?_
    simp only [render, Paragraph.render, hm format' data', ok_bind]
    rfl

theorem renderItem_heading (format : Formatter) (data : Data) (h : Heading) :
    renderItem format data [.heading h] =
      renderInlines format data h.content >>= fun m => .ok (.bracketed (h.wrap m)) := by
  simp [renderItem, concatM, ItemBlock.render, Heading.render]

theorem alike_instantiateItem (format : Formatter) (data : Data) (content : List ItemBlock) :
    Alike ListItem.RendersAs (instantiateItem format data content) (renderItem format data content) := by
  match content with
  | [] => exact .ok fun _ _ => rfl
  | [.paragraph p] =>
    simp only [instantiateItem, ItemBlock.instantiate, List.mapM_cons, List.mapM_nil, bind_assoc,
      pure_eq_ok, ok_bind, renderItem]
    refine (alike_instantiateInlines format data p.content).map fun is m hm format' data' => ?_
    simp only [renderItem, hm format' data', ok_bind, pure_eq_ok]
  | [.heading h] =>
    simp only [instantiateItem, ItemBlock.instantiate, List.mapM_cons, List.mapM_nil, bind_assoc,
      pure_eq_ok, ok_bind, renderItem_heading]
    refine (alike_instantiateInlines format data h.content).map fun is m hm format' data' => ?_
    simp only [renderItem_heading, hm format' data', ok_bind]
    rfl
  | b :: b' :: bs =>
    rw [renderItem_eq_concatM (by simp)]
    refine (Alike.mapM_concatM fun b _ => b.alike_instantiate format data).map ?_
    rintro content' _ ⟨hlen, ms, hms, rfl⟩ format' data'
    have hne : ∀ p, content' ≠ [.paragraph p] := by rintro p rfl; simp at hlen
    rw [renderItem_eq_concatM hne,
      concatM_eq_ok_iff.2 ⟨ms, hms.imp fun _ _ h => h format' data', rfl⟩, ok_bind]

theorem alike_instantiateList (format : Formatter) (style : ListStyle)
    (items : List (Data × List ItemBlock)) :
    Alike RenderAs (orAbort (instantiateList format style items) : Compiled (List Block))
      (orAbort (items.mapM fun item => renderItem format item.1 item.2) >>= fun ms =>
        .ok (style.wrap ms)) := by
  rw [instantiateList, orAbort_bind]
  refine (Alike.mapM fun item _ => alike_instantiateItem format item.1 item.2).orAbort.map ?_
  intro items' ms hms format' ctx'
  have hitems : (items'.mapM fun item => renderItem format' ctx'.data item.content) = .ok ms :=
    mapM_eq_ok_iff.2 (hms.imp fun _ _ h => h format' ctx'.data)
  simp [concatM, Block.render, hitems]

theorem Block.alike_instantiate {format : Formatter} {ctx : Context} {b : Block}
    (h : AllDecided (b.reached ctx)) :
    Alike RenderAs (orAbort (b.instantiate format ctx)) (b.render format ctx) := by
  match b with
  | .item b =>
    rw [instantiate, orAbort_bind, ← bind_ok (render format ctx (.item b))]
    refine (b.alike_instantiate format ctx.data).orAbort.map fun b' m hm format' ctx' => ?_
    simp [concatM, render, hm format' ctx'.data]
  | .list style items =>
    rw [render_eq_items h rfl]
    exact alike_instantiateList format style _
  | .rows style repeated =>
    rw [render_eq_items h rfl, instantiate, RowList.items]
    cases ht : repeated.template with
    | nil => cases ctx.rows? repeated.id <;> exact .ok fun _ _ => rfl
    | cons t ts =>
      cases hd : ctx.rows? repeated.id with
      | none => exact .ok fun _ _ => rfl
      | some data => exact alike_instantiateList format style _

/-- The instance compiles, in every context, to what its document compiles to. -/
theorem Document.alike_instantiate (format : Formatter) {ctx : Context} {doc : Document}
    (h : AllDecided (doc.reached ctx)) :
    Alike (fun inst text => ∀ format' ctx', inst.compileWith format' ctx' = .ok text)
      (orAbort (doc.instantiate format ctx)) (doc.compileWith format ctx) := by
  rw [compileWith, render_eq_shown h, instantiate, orAbort_bind, orAbort_mapM, bind_assoc]
  refine (Alike.mapM_concatM fun b hb =>
    Block.alike_instantiate (allDecided_of_shown h hb)).map ?_
  rintro bss _ ⟨-, ms, hms, rfl⟩ format' ctx'
  have hbody : concatM (Node.render format' ctx') (bss.flatten.map .block) = .ok ms.flatten := by
    rw [concatM_map, ← List.flatMap_id, concatM_flatMap, concatM_eq_ok_iff]
    exact ⟨ms, hms.imp fun _ _ hm => hm format' ctx', rfl⟩
  simp only [compileWith, render, hbody, ok_bind]
  rfl

/-- **To compile is to compile the instance.** If no evaluation that is reached fails, and no text
breaks off the reading, a document has an instance, it compiles, and the instance compiles to the same
markup with whatever formatter and in whatever context. -/
theorem Document.compileWith_instantiate (format : Formatter) (doc : Document) (ctx : Context)
    (hpanic : ∀ a, doc.compileWith format ctx ≠ .error (.abort a))
    (hreached : ∀ v ∈ doc.reached ctx, ∀ source, v.verdict ≠ .error (.error source)) :
    ∃ inst text, doc.instantiate format ctx = .ok inst ∧ doc.compileWith format ctx = .ok text ∧
      ∀ format' ctx', inst.compileWith format' ctx' = .ok text := by
  have hfollows := doc.follows_compileWith format ctx
  obtain ⟨text, htext⟩ := hfollows.exists_ok hpanic hreached
  have hdecided := hfollows.allDecided htext
  have halike := alike_instantiate format hdecided
  rw [htext] at halike
  cases hinst : doc.instantiate format ctx with
  | error a => rw [hinst] at halike; cases halike
  | ok inst =>
    rw [hinst] at halike
    cases halike with
    | ok h => exact ⟨inst, text, rfl, htext, h⟩

/-- A section that is shown, one that is not, and a list over three rows of which one is kept. -/
def letter : Document :=
  ⟨"Letter", some "de", [
    .conditional (.single ⟨"name", .ne, .text ""⟩) [
      .item (.heading ⟨1, some .center, [.text "For " [.bold], .placeholder "name" [.italic]]⟩)],
    .conditional (.any []) [.item (.paragraph ⟨none, [.text "hidden" []]⟩)],
    .block (.rows .bullet ⟨"items", some (.single ⟨"qty", .gt, .number 1⟩),
      [.paragraph ⟨none, [.placeholder "qty" [], .text " of " [], .placeholder "name" []]⟩]⟩)]⟩

def letterContext : Context :=
  ⟨FieldMap.empty.insert "name" (.choice "c[1]"), some (FieldMap.empty.insert "items"
    [FieldMap.empty.insert "qty" (.number 1), .empty, FieldMap.empty.insert "qty" (.number 12)])⟩

theorem compile_letter :
    (∀ a, letter.compile {} letterContext ≠ .error (.abort a)) ∧
      AllDecided (letter.reached letterContext) ∧
      ∃ inst text, letter.instantiate (Labels.display {}) letterContext = .ok inst ∧
        letter.compile {} letterContext = .ok text ∧
        ∀ format' ctx', inst.compileWith format' ctx' = .ok text := by
  obtain ⟨text, hc⟩ : ∃ text, letter.compile {} letterContext = .ok text := ⟨_, rfl⟩
  have hpanic : ∀ a, letter.compile {} letterContext ≠ .error (.abort a) := by simp [hc]
  have hdecided : AllDecided (letter.reached letterContext) := by decide
  refine ⟨hpanic, hdecided, letter.compileWith_instantiate (Labels.display {}) letterContext hpanic ?_⟩
  intro v hv source hs
  obtain ⟨b, hb⟩ := hdecided v hv
  rw [hb] at hs; cases hs

end FormPress
