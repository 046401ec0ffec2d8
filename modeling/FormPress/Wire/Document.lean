import FormPress.Document.Basic
import FormPress.Wire.Value
/-!
# Documents in JSON

Every node is tagged and has its attributes and its content as fields. What may stand in an item, in a
section and at the top are three languages, and each is declared in full, with no regard to the others.

| here | there |
| --- | --- |
| `Document.ofJson?` | the reader of `Doc` |
| `Node.alternatives`, `Block.alternatives`, `ItemBlock.alternatives` | the variants of `TopLevelNode`, `Block` and `ItemBlock` |
| `Inline.alternatives`, `Mark.alternatives` | the variants of `Inline` and `Mark` |
| `RowList.ofJson?`, `Node.readSection` | the readers of `ListPlaceholder` and `Section` |
-/
namespace FormPress

/-- An alignment stands in the attributes of a node. -/
def TextAlign.ofJson? : Wire.Reader TextAlign := Wire.named .inside TextAlign.ofName?

def TextAlign.toJson (a : TextAlign) : Json := .str a.name

/-- A tag, its attributes and the field behind them. -/
def Wire.ofNode (tag : String) (attrs : List (String × Json)) (rest : List (String × Json)) :
    Json :=
  .obj (("attrs", .obj attrs) :: (rest ++ [("type", .str tag)]))

/-! ## Marks -/

def Mark.readColor : Wire.Reader (Option String) := fun j => do
  match ← Wire.record ["color"] j with
  | [color] => Wire.optionField Wire.text color
  | _ => none

def Mark.readTextStyle : Wire.Reader Mark := fun j => do
  match ← Wire.record ["attrs"] j with
  | [attrs] => return .textStyle (← Wire.withDefault none readColor attrs)
  | _ => none

def Mark.readTarget : Wire.Reader Mark := fun j => do
  match ← Wire.record ["href", "rel", "target"] j with
  | [href, rel, target] =>
    let href ← Wire.required Wire.text href
    let rel ← Wire.optionField Wire.text rel
    let target ← Wire.optionField Wire.text target
    return .link href rel target
  | _ => none

def Mark.readLink : Wire.Reader Mark := fun j => do
  match ← Wire.record ["attrs"] j with
  | [attrs] => Wire.required readTarget attrs
  | _ => none

/-- The reader of a mark that has no attributes. -/
def Mark.readBare (m : Mark) : Wire.Reader Mark := fun j => (Wire.unit j).map fun _ => m

def Mark.alternatives : List (Wire.Alternative Mark) :=
  [⟨"bold", readBare .bold⟩, ⟨"italic", readBare .italic⟩, ⟨"underline", readBare .underline⟩,
    ⟨"highlight", readBare .highlight⟩, ⟨"strike", readBare .strike⟩, ⟨"code", readBare .code⟩,
    ⟨"textStyle", readTextStyle⟩, ⟨"link", readLink⟩]

def Mark.ofJsonAt? (place : Wire.Place) : Wire.Reader Mark := Wire.oneOf place alternatives

def Mark.ofJson? : Wire.Reader Mark := Mark.ofJsonAt? .outside

def Mark.toJson : Mark → Json
  | .bold => .obj [("type", .str "bold")]
  | .italic => .obj [("type", .str "italic")]
  | .underline => .obj [("type", .str "underline")]
  | .highlight => .obj [("type", .str "highlight")]
  | .strike => .obj [("type", .str "strike")]
  | .code => .obj [("type", .str "code")]
  | .textStyle color => Wire.ofNode "textStyle" [("color", Wire.ofOption .str color)] []
  | .link href rel target =>
    Wire.ofNode "link" [("href", .str href), ("rel", Wire.ofOption .str rel),
      ("target", Wire.ofOption .str target)] []

/-! ## Inline content -/

def Inline.readText : Wire.Reader Inline := fun j => do
  match ← Wire.record ["text", "marks"] j with
  | [content, marks] =>
    let content ← Wire.required Wire.text content
    let marks ← Wire.listField (Mark.ofJsonAt? .inside) marks
    return .text content marks
  | _ => none

/-- Attributes that are an id and nothing else. -/
def Inline.readId : Wire.Reader String := fun j => do
  match ← Wire.record ["id"] j with
  | [id] => Wire.required Wire.text id
  | _ => none

def Inline.readPlaceholder : Wire.Reader Inline := fun j => do
  match ← Wire.record ["attrs", "marks"] j with
  | [attrs, marks] =>
    let id ← Wire.required readId attrs
    let marks ← Wire.listField (Mark.ofJsonAt? .inside) marks
    return .placeholder id marks
  | _ => none

def Inline.alternatives : List (Wire.Alternative Inline) :=
  [⟨"text", readText⟩, ⟨"textPlaceholder", readPlaceholder⟩]

def Inline.ofJsonAt? (place : Wire.Place) : Wire.Reader Inline := Wire.oneOf place alternatives

def Inline.ofJson? : Wire.Reader Inline := Inline.ofJsonAt? .outside

def Inline.toJson : Inline → Json
  | .text content marks =>
    .obj [("marks", Wire.ofListWith Mark.toJson marks), ("text", .str content),
      ("type", .str "text")]
  | .placeholder id marks =>
    Wire.ofNode "textPlaceholder" [("id", .str id)] [("marks", Wire.ofListWith Mark.toJson marks)]

/-! ## Item blocks -/

/-- The field of a node's content. -/
def Wire.contentJson {α : Type} (write : α → Json) (content : List α) : List (String × Json) :=
  [("content", Wire.ofListWith write content)]

/-- The attributes of a heading. -/
def Heading.readAttrs : Wire.Reader (UInt8 × Option TextAlign) := fun j => do
  match ← Wire.record ["level", "textAlign"] j with
  | [level, align] =>
    let level ← Wire.required (Wire.integer 0 255) level
    let align ← Wire.optionField TextAlign.ofJson? align
    return (UInt8.ofNat level.toNat, align)
  | _ => none

def Heading.ofJson? : Wire.Reader Heading := fun j => do
  match ← Wire.record ["attrs", "content"] j with
  | [attrs, content] =>
    let (level, align) ← Wire.required readAttrs attrs
    let content ← Wire.listField (Inline.ofJsonAt? .inside) content
    return ⟨level, align, content⟩
  | _ => none

def Heading.toJson (h : Heading) : Json :=
  Wire.ofNode "heading"
    [("level", .int h.level.toNat), ("textAlign", Wire.ofOption TextAlign.toJson h.align)]
    (Wire.contentJson Inline.toJson h.content)

/-- The attributes of a paragraph. -/
def Paragraph.readAttrs : Wire.Reader (Option TextAlign) := fun j => do
  match ← Wire.record ["textAlign"] j with
  | [align] => Wire.optionField TextAlign.ofJson? align
  | _ => none

def Paragraph.ofJson? : Wire.Reader Paragraph := fun j => do
  match ← Wire.record ["attrs", "content"] j with
  | [attrs, content] =>
    let align ← Wire.withDefault none readAttrs attrs
    let content ← Wire.listField (Inline.ofJsonAt? .inside) content
    return ⟨align, content⟩
  | _ => none

def Paragraph.toJson (p : Paragraph) : Json :=
  Wire.ofNode "paragraph" [("textAlign", Wire.ofOption TextAlign.toJson p.align)]
    (Wire.contentJson Inline.toJson p.content)

def ItemBlock.alternatives : List (Wire.Alternative ItemBlock) :=
  [⟨"heading", fun j => (Heading.ofJson? j).map .heading⟩,
    ⟨"paragraph", fun j => (Paragraph.ofJson? j).map .paragraph⟩]

def ItemBlock.ofJsonAt? (place : Wire.Place) : Wire.Reader ItemBlock := Wire.oneOf place alternatives

def ItemBlock.ofJson? : Wire.Reader ItemBlock := ItemBlock.ofJsonAt? .outside

def ItemBlock.toJson : ItemBlock → Json
  | .heading h => h.toJson
  | .paragraph p => p.toJson

/-! ## Blocks -/

def ListItem.ofJson? : Wire.Reader ListItem := fun j => do
  match ← Wire.record ["content"] j with
  | [content] => return ⟨← Wire.listField (ItemBlock.ofJsonAt? .inside) content⟩
  | _ => none

def ListItem.toJson (item : ListItem) : Json :=
  .obj (Wire.contentJson ItemBlock.toJson item.content)

/-- The items of a list. -/
def Block.readItems : Wire.Reader (List ListItem) := fun j => do
  match ← Wire.record ["content"] j with
  | [content] => Wire.listField ListItem.ofJson? content
  | _ => none

/-- The attributes of a placeholder list. -/
def RowList.readAttrs : Wire.Reader (String × Option Condition) := fun j => do
  match ← Wire.record ["id", "filter"] j with
  | [id, filter] =>
    let id ← Wire.required Wire.text id
    let filter ← Wire.optionField (Condition.ofJsonAt? .inside) filter
    return (id, filter)
  | _ => none

def RowList.ofJson? : Wire.Reader RowList := fun j => do
  match ← Wire.record ["attrs", "content"] j with
  | [attrs, content] =>
    let (id, filter) ← Wire.required readAttrs attrs
    let template ← Wire.listField (ItemBlock.ofJsonAt? .inside) content
    return ⟨id, filter, template⟩
  | _ => none

def Block.alternatives : List (Wire.Alternative Block) :=
  [⟨"heading", fun j => (Heading.ofJson? j).map fun h => .item (.heading h)⟩,
    ⟨"paragraph", fun j => (Paragraph.ofJson? j).map fun p => .item (.paragraph p)⟩,
    ⟨"orderedList", fun j => (readItems j).map (.list .ordered)⟩,
    ⟨"bulletList", fun j => (readItems j).map (.list .bullet)⟩,
    ⟨"orderedListPlaceholder", fun j => (RowList.ofJson? j).map (.rows .ordered)⟩,
    ⟨"bulletListPlaceholder", fun j => (RowList.ofJson? j).map (.rows .bullet)⟩]

def Block.ofJsonAt? (place : Wire.Place) : Wire.Reader Block := Wire.oneOf place alternatives

def Block.ofJson? : Wire.Reader Block := Block.ofJsonAt? .outside

def Block.listTag : ListStyle → String
  | .ordered => "orderedList"
  | .bullet => "bulletList"

def Block.rowsTag : ListStyle → String
  | .ordered => "orderedListPlaceholder"
  | .bullet => "bulletListPlaceholder"

def Block.toJson : Block → Json
  | .item b => b.toJson
  | .list style items =>
    .obj (Wire.contentJson ListItem.toJson items ++ [("type", .str (listTag style))])
  | .rows style repeated =>
    Wire.ofNode (rowsTag style)
      [("filter", Wire.ofOption Condition.toJson repeated.filter), ("id", .str repeated.id)]
      (Wire.contentJson ItemBlock.toJson repeated.template)

/-! ## Nodes -/

/-- Attributes that are a condition and nothing else. -/
def Node.readCondition : Wire.Reader Condition := fun j => do
  match ← Wire.record ["condition"] j with
  | [condition] => Wire.required (Condition.ofJsonAt? .inside) condition
  | _ => none

def Node.readSection : Wire.Reader Node := fun j => do
  match ← Wire.record ["attrs", "content"] j with
  | [attrs, content] =>
    let condition ← Wire.required readCondition attrs
    let blocks ← Wire.listField (Block.ofJsonAt? .inside) content
    return .conditional condition blocks
  | _ => none

def Node.alternatives : List (Wire.Alternative Node) :=
  [⟨"section", readSection⟩,
    ⟨"heading", fun j => (Heading.ofJson? j).map fun h => .block (.item (.heading h))⟩,
    ⟨"paragraph", fun j => (Paragraph.ofJson? j).map fun p => .block (.item (.paragraph p))⟩,
    ⟨"orderedList", fun j => (Block.readItems j).map fun items => .block (.list .ordered items)⟩,
    ⟨"bulletList", fun j => (Block.readItems j).map fun items => .block (.list .bullet items)⟩,
    ⟨"orderedListPlaceholder", fun j => (RowList.ofJson? j).map fun rows => .block (.rows .ordered rows)⟩,
    ⟨"bulletListPlaceholder", fun j => (RowList.ofJson? j).map fun rows => .block (.rows .bullet rows)⟩]

/-- Nodes stand in no tagged value. -/
def Node.ofJson? : Wire.Reader Node := Wire.oneOf .outside alternatives

def Node.toJson : Node → Json
  | .block b => b.toJson
  | .conditional condition blocks =>
    Wire.ofNode "section" [("condition", condition.toJson)] (Wire.contentJson Block.toJson blocks)

/-! ## Documents -/

/-- The attributes of a document. -/
def Document.readAttrs : Wire.Reader (String × Option String) := fun j => do
  match ← Wire.record ["title", "language"] j with
  | [title, language] =>
    let title ← Wire.required Wire.text title
    let language ← Wire.optionField Wire.text language
    return (title, language)
  | _ => none

def Document.ofJson? : Wire.Reader Document := fun j => do
  match ← Wire.record ["attrs", "content"] j with
  | [attrs, content] =>
    let (title, language) ← Wire.required readAttrs attrs
    let content ← Wire.listField Node.ofJson? content
    return ⟨title, language, content⟩
  | _ => none

def Document.toJson (doc : Document) : Json :=
  .obj (("attrs", .obj [("language", Wire.ofOption .str doc.language), ("title", .str doc.title)])
    :: Wire.contentJson Node.toJson doc.content)

end FormPress
