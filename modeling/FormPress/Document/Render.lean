import FormPress.Condition
import FormPress.Document.Markup
import FormPress.Value
/-!
# Compilation

A document is compiled to markup in document order: the opening lines, then every node. Sections consult
their condition on the data; a placeholder list renders its template once for each row that its
filter keeps, against that row alone. All else is rendered unconditionally, and a place whose field
is absent shows nothing. Compilation fails at the first condition that cannot be decided.

| here | there |
| --- | --- |
| `Document.compileWith` | `Compiler::compile`, the formatter being the compiler's |
| `Document.compile` | `compile` of a compiler with a `DefaultFormatter` |
| `Document.opening` | `preamble` |
| `Node.render` | `top_level`, `section` |
| `Block.render` | `block`, `list` |
| `RowList.render`, `RowList.renderRows`, `RowList.keeps` | `list_placeholder`, its loop over the rows, its filter |
| `renderItem`, `ItemBlock.render` | `list_item`, `item_block` |
| `Heading.render`, `Paragraph.render` | `heading`, `paragraph` |
| `renderInlines`, `Inline.render` | `inlines`, `inline` |
| `CompileError` | `CompileError` |
| `Context` | `CompileContext`; a row is rendered in a context of its own |
-/
namespace FormPress

/-- Why a document cannot be compiled. -/
inductive CompileError
  /-- The condition of a section cannot be decided. -/
  | condition (source : ConditionError)
  /-- The filter of a placeholder list cannot be decided on one of its rows. -/
  | filter (id : String) (source : ConditionError)
  deriving DecidableEq

namespace CompileError

def message : CompileError → String
  | condition source => "section condition failed: " ++ source.message
  | filter id source => "filter of list placeholder '" ++ id ++ "' failed: " ++ source.message

/-- The condition's own error. -/
def source : CompileError → ConditionError
  | condition source | filter _ source => source

end CompileError

abbrev Compiled := Except (Failure CompileError)

/-- What a document is compiled against. -/
structure Context where
  data : Data
  subData : Option SubData := none

/-- Renders the members of a list in order and joins what they give. -/
def concatM {ε α : Type} (render : α → Except ε Markup) : List α → Except ε Markup
  | [] => .ok []
  | a :: as => do
    let markup ← render a
    let rest ← concatM render as
    return markup ++ rest

/-- A computation that can only break off, as one that can fail as well. -/
def orAbort {ε α : Type} (x : Except Abort α) : Except (Failure ε) α := x.mapError .abort

/-- A verdict whose error is blamed on a part of the document. -/
def blame (wrap : ConditionError → CompileError) (v : Verdict) : Compiled Bool :=
  v.mapError fun
    | .abort a => .abort a
    | .error e => .error (wrap e)

/-! ## Inline content -/

/-- The first mark is the innermost. -/
def Inline.render (format : Formatter) (data : Data) : Inline → Except Abort Markup
  | .text s marks => .ok (marks.foldl Mark.apply (Markup.escape s.toList))
  | .placeholder id _ =>
    match data.get? id with
    | none => .ok []
    | some v => do return Markup.escape (← format v).toList

def renderInlines (format : Formatter) (data : Data) : List Inline → Except Abort Markup :=
  concatM (Inline.render format data)

/-! ## Blocks -/

def Heading.render (format : Formatter) (data : Data) (h : Heading) : Except Abort Markup := do
  return h.wrap (← renderInlines format data h.content)

def Paragraph.render (format : Formatter) (data : Data) (p : Paragraph) : Except Abort Markup := do
  return Paragraph.wrap (← renderInlines format data p.content)

def ItemBlock.render (format : Formatter) (data : Data) : ItemBlock → Except Abort Markup
  | .heading h => h.render format data
  | .paragraph p => p.render format data

/-- A paragraph that is all an item holds is written without its command. -/
def renderItem (format : Formatter) (data : Data) : List ItemBlock → Except Abort Markup
  | [.paragraph p] => do return .bracketed (← renderInlines format data p.content)
  | blocks => do return .bracketed (← concatM (ItemBlock.render format data) blocks)

/-- Whether the filter keeps a row. -/
def RowList.keeps (rows : RowList) (row : Data) : Compiled Bool :=
  match rows.filter with
  | none => .ok true
  | some filter => blame (.filter rows.id) (filter.evaluate row)

/-- The items of the rows that the filter keeps, in row order. -/
def RowList.renderRows (format : Formatter) (rows : RowList) : List Data → Compiled (List Markup)
  | [] => .ok []
  | row :: more => do
    if ← rows.keeps row then
      let markup ← orAbort (renderItem format row rows.template)
      let rest ← rows.renderRows format more
      return markup :: rest
    else
      rows.renderRows format more

/-- A placeholder list without rows of its id, or without a template, renders as nothing. -/
def RowList.render (format : Formatter) (ctx : Context) (style : ListStyle) (rows : RowList) :
    Compiled Markup :=
  match ctx.subData.bind (·.get? rows.id), rows.template with
  | none, _ | some _, [] => .ok []
  | some data, _ :: _ => do return style.wrap (← rows.renderRows format data)

def Block.render (format : Formatter) (ctx : Context) : Block → Compiled Markup
  | .item b => orAbort (b.render format ctx.data)
  | .list style items => orAbort do
    return style.wrap (← items.mapM fun item => renderItem format ctx.data item.content)
  | .rows style repeated => repeated.render format ctx style

/-! ## Documents -/

def Node.render (format : Formatter) (ctx : Context) : Node → Compiled Markup
  | .block b => b.render format ctx
  | .conditional condition blocks => do
    if ← blame .condition (condition.evaluate ctx.data) then
      concatM (Block.render format ctx) blocks
    else
      return []

/-- The lines before the first node. -/
def Document.opening (doc : Document) : Markup :=
  Markup.linkStyleLine ++ doc.language.elim [] Markup.languageLine
    ++ Markup.titleLine (Markup.escape doc.title.toList)

/-- The markup of a document, character by character. -/
def Document.render (format : Formatter) (doc : Document) (ctx : Context) : Compiled Markup := do
  let body ← concatM (Node.render format ctx) doc.content
  return doc.opening ++ body

/-- The markup of a document whose values are displayed by a formatter. -/
def Document.compileWith (format : Formatter) (doc : Document) (ctx : Context) : Compiled String := do
  return String.ofList (← doc.render format ctx)

/-- The markup of a document whose values are displayed under labels. -/
def Document.compile (labels : Labels) (doc : Document) (ctx : Context) : Compiled String :=
  doc.compileWith labels.display ctx

end FormPress
