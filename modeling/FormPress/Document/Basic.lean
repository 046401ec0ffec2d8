import FormPress.Condition
/-!
# Documents

A document is a title and a list of nodes. Three node languages are nested in one another: what may
stand in a list item (`ItemBlock`), what may stand in a section (`Block`), and what may stand at the
top (`Node`). Sections and the rows of a placeholder list depend on conditions.

| here | there |
| --- | --- |
| `Document` | `Doc`, with `DocAttrs` |
| `Node` | `TopLevelNode`: `conditional` is `Section`, `block` the six others |
| `Block` | `Block`: `list` and `rows` each stand for an ordered and a bullet variant |
| `ItemBlock`, `ListItem` | `ItemBlock`, `ListItem` |
| `ListStyle` | `ListKind` |
| `RowList` | `ListPlaceholder`, with `ListPlaceholderAttrs` |
| `Heading`, `Paragraph`, `TextAlign` | the same, with their attributes |
| `Inline`, `Mark` | `Inline`: `placeholder` is `TextPlaceholder`; `Mark`, with its attributes |
-/
namespace FormPress

inductive TextAlign
  | left | center | right | justify
  deriving DecidableEq

namespace TextAlign

def all : List TextAlign := [left, center, right, justify]

def name : TextAlign → String
  | left => "left"
  | center => "center"
  | right => "right"
  | justify => "justify"

def ofName? (s : String) : Option TextAlign := all.find? fun a => a.name == s

theorem ofName?_name (a : TextAlign) : ofName? a.name = some a := by
  cases a <;> decide

end TextAlign

/-- How a run of text is marked up. A text style is kept for the editor and never rendered, and so
are the relation and the target of a link. -/
inductive Mark
  | bold | italic | underline | highlight | strike | code
  | textStyle (color : Option String)
  | link (href : String) (rel target : Option String)
  deriving DecidableEq

/-- A run of text, or a place that shows the value of a field. The marks of a place are kept for the
editor and not rendered. -/
inductive Inline
  | text (text : String) (marks : List Mark)
  | placeholder (id : String) (marks : List Mark)
  deriving DecidableEq

structure Heading where
  level : UInt8
  align : Option TextAlign
  content : List Inline
  deriving DecidableEq

/-- The alignment of a paragraph is kept for the editor and not rendered. -/
structure Paragraph where
  align : Option TextAlign
  content : List Inline
  deriving DecidableEq

/-- What may stand in a list item. -/
inductive ItemBlock
  | heading (h : Heading)
  | paragraph (p : Paragraph)
  deriving DecidableEq

structure ListItem where
  content : List ItemBlock
  deriving DecidableEq

inductive ListStyle
  | ordered | bullet
  deriving DecidableEq

/-- A list with one item for each row kept by the filter; the template is what an item holds. -/
structure RowList where
  id : String
  filter : Option Condition
  template : List ItemBlock
  deriving DecidableEq

/-- What may stand in a section. -/
inductive Block
  | item (b : ItemBlock)
  | list (style : ListStyle) (items : List ListItem)
  | rows (style : ListStyle) (rows : RowList)
  deriving DecidableEq

/-- What may stand at the top: a block, or a section of blocks shown where its condition holds. -/
inductive Node
  | block (b : Block)
  | conditional (condition : Condition) (blocks : List Block)
  deriving DecidableEq

structure Document where
  title : String
  language : Option String
  content : List Node
  deriving DecidableEq

end FormPress
