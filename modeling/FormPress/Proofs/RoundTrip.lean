import FormPress.Proofs.NodeLanguages
import FormPress.Proofs.Written
import Mathlib.Logic.Function.Defs
/-!
# What is written is read back

Every type that has a written form is read back from it as it was: from the JSON value, and from either
text of the value (`Wire.faithful`). The reading of a node rests on that of its parts, wherever these
stand, and the written forms nest at most fourteen levels deep, far from the limit of JSON texts.
-/
namespace FormPress

open Json (Plain)

/-! ## Inline content -/

theorem TextAlign.ofJson?_toJson (a : TextAlign) : ofJson? a.toJson = some a :=
  ofName?_name a

theorem TextAlign.plain_toJson {d : Nat} (a : TextAlign) : Plain d a.toJson := .str a.name

theorem Mark.plain_toJson (m : Mark) : Plain 2 m.toJson := by
  cases m with
  | bold | italic | underline | highlight | strike | code => exact .obj (by simp)
  | textStyle color =>
    exact Wire.plain_ofNode (by simpa using Wire.plain_ofOption Plain.str color) (by simp)
  | link href rel target =>
    have hrel := Wire.plain_ofOption (d := 0) Plain.str rel
    have htarget := Wire.plain_ofOption (d := 0) Plain.str target
    exact Wire.plain_ofNode (by simpa using ⟨hrel, htarget⟩) (by simp)

theorem Mark.ofJsonAt?_toJson (place : Wire.Place) (m : Mark) : ofJsonAt? place m.toJson = some m := by
  cases m with
  | bold | italic | underline | highlight | strike | code => rfl
  | textStyle color =>
    have h := Wire.parts_ofNode (textStyle color).plain_toJson (by simp)
    rw [ofJsonAt?, toJson, Wire.oneOf_of_parts h]
    simp [alternatives, readTextStyle, readColor]
  | link href rel target =>
    have h := Wire.parts_ofNode (link href rel target).plain_toJson (by simp)
    rw [ofJsonAt?, toJson, Wire.oneOf_of_parts h]
    simp [alternatives, readLink, readTarget]

theorem Inline.plain_toJson (i : Inline) : Plain 4 i.toJson := by
  cases i with
  | text content marks => exact .obj (by simpa using Wire.plain_ofListWith Mark.plain_toJson marks)
  | placeholder id marks =>
    exact Wire.plain_ofNode (by simp) (by simpa using Wire.plain_ofListWith Mark.plain_toJson marks)

theorem Inline.ofJsonAt?_toJson (place : Wire.Place) (i : Inline) :
    ofJsonAt? place i.toJson = some i := by
  have hmarks := Wire.listField_ofListWith (Mark.ofJsonAt?_toJson .inside)
  cases i with
  | text content marks =>
    have h : Wire.Parts (toJson (.text content marks))
        ("text", .obj [("marks", Wire.ofListWith Mark.toJson marks), ("text", .str content)]) :=
      Wire.parts_append [_, _] (text content marks).plain_toJson (by simp)
    rw [ofJsonAt?, Wire.oneOf_of_parts h]
    simp [alternatives, readText, hmarks]
  | placeholder id marks =>
    have h := Wire.parts_ofNode (placeholder id marks).plain_toJson (by simp)
    rw [ofJsonAt?, toJson, Wire.oneOf_of_parts h]
    simp [alternatives, readPlaceholder, readId, hmarks]

/-! ## Blocks -/

theorem Heading.plain_toJson (h : Heading) : Plain 6 h.toJson := by
  have hlt := h.level.toNat_lt
  have hlevel : Plain 4 (.int h.level.toNat) := .int (by omega) (by omega)
  have halign := Wire.plain_ofOption (d := 4) TextAlign.plain_toJson h.align
  exact Wire.plain_ofNode (by simpa using ⟨hlevel, halign⟩)
    (Wire.plain_contentJson Inline.plain_toJson h.content)

theorem Paragraph.plain_toJson (p : Paragraph) : Plain 6 p.toJson :=
  Wire.plain_ofNode (by simpa using Wire.plain_ofOption TextAlign.plain_toJson p.align)
    (Wire.plain_contentJson Inline.plain_toJson p.content)

theorem Heading.readAttrs_obj (level : UInt8) (align : Option TextAlign) :
    readAttrs (.obj [("level", .int level.toNat), ("textAlign", Wire.ofOption TextAlign.toJson align)]) =
      some (level, align) := by
  have hlt := level.toNat_lt
  have hlevel : Wire.integer 0 255 (.int level.toNat) = some (level.toNat : Int) := by
    rw [Wire.integer, if_pos ⟨by omega, by omega⟩]
  simp [readAttrs, hlevel, Wire.optionField_ofOption TextAlign.ofJson?_toJson rfl align]

theorem Paragraph.readAttrs_obj (align : Option TextAlign) :
    readAttrs (.obj [("textAlign", Wire.ofOption TextAlign.toJson align)]) = some align := by
  simp [readAttrs, Wire.optionField_ofOption TextAlign.ofJson?_toJson rfl align]

theorem ItemBlock.ofJsonAt?_toJson (place : Wire.Place) (b : ItemBlock) :
    ofJsonAt? place b.toJson = some b := by
  have hcontent := Wire.listField_ofListWith (Inline.ofJsonAt?_toJson .inside)
  cases b with
  | heading h =>
    have hparts := Wire.parts_ofNode h.plain_toJson (by simp [Wire.contentJson])
    rw [ofJsonAt?, toJson, Heading.toJson, Wire.oneOf_of_parts hparts]
    simp [alternatives, Heading.ofJson?, Wire.contentJson, Heading.readAttrs_obj, hcontent]
  | paragraph p =>
    have hparts := Wire.parts_ofNode p.plain_toJson (by simp [Wire.contentJson])
    rw [ofJsonAt?, toJson, Paragraph.toJson, Wire.oneOf_of_parts hparts]
    simp [alternatives, Paragraph.ofJson?, Wire.contentJson, Paragraph.readAttrs_obj, hcontent]

theorem ItemBlock.plain_toJson (b : ItemBlock) : Plain 6 b.toJson := by
  cases b with
  | heading h => exact h.plain_toJson
  | paragraph p => exact p.plain_toJson

theorem ListItem.plain_toJson (item : ListItem) : Plain 8 item.toJson :=
  .obj (Wire.plain_contentJson ItemBlock.plain_toJson item.content)

theorem ListItem.ofJson?_toJson (item : ListItem) : ofJson? item.toJson = some item := by
  have hcontent := Wire.listField_ofListWith (ItemBlock.ofJsonAt?_toJson .inside) item.content
  simp [ofJson?, toJson, Wire.contentJson, hcontent]

theorem RowList.readAttrs_obj (id : String) (filter : Option Condition) :
    readAttrs (.obj [("filter", Wire.ofOption Condition.toJson filter), ("id", .str id)]) =
      some (id, filter) := by
  have hfilter := Wire.optionField_ofOption (Condition.ofJsonAt?_toJson .inside) rfl filter
  simp [readAttrs, hfilter]

theorem Block.plain_toJson (b : Block) : Plain 10 b.toJson := by
  cases b with
  | item b => exact b.plain_toJson.mono (by decide)
  | list style items =>
    exact .obj (List.forall_mem_append.2 ⟨Wire.plain_contentJson ListItem.plain_toJson items, by simp⟩)
  | rows style rows =>
    have hfilter := Wire.plain_ofOption Condition.plain_toJson rows.filter
    have htemplate := Wire.plain_contentJson ItemBlock.plain_toJson rows.template
    exact Wire.plain_ofNode (by simpa using hfilter.mono (by decide))
      fun f hf => (htemplate f hf).mono (by decide)

theorem Block.ofJsonAt?_toJson (place : Wire.Place) (b : Block) :
    ofJsonAt? place b.toJson = some b := by
  cases b with
  | item b => exact (ofJsonAt?_item place _ b).1 (b.ofJsonAt?_toJson place)
  | list style items =>
    have hitems := Wire.listField_ofListWith ListItem.ofJson?_toJson items
    have hparts := Wire.parts_append _ (list style items).plain_toJson (by simp [Wire.contentJson])
    rw [ofJsonAt?, toJson, Wire.oneOf_of_parts hparts]
    cases style <;> simp [alternatives, listTag, readItems, Wire.contentJson, hitems]
  | rows style rows =>
    have htemplate := Wire.listField_ofListWith (ItemBlock.ofJsonAt?_toJson .inside) rows.template
    have hparts := Wire.parts_ofNode (Block.rows style rows).plain_toJson (by simp [Wire.contentJson])
    rw [ofJsonAt?, toJson, Wire.oneOf_of_parts hparts]
    cases style <;>
      simp [alternatives, rowsTag, RowList.ofJson?, Wire.contentJson, RowList.readAttrs_obj, htemplate]

/-! ## Nodes and documents -/

theorem Node.readCondition_obj (condition : Condition) :
    readCondition (.obj [("condition", condition.toJson)]) = some condition := by
  simp [readCondition, Condition.ofJsonAt?_toJson]

theorem Node.readSection_obj (condition : Condition) (blocks : List Block) :
    readSection (.obj (("attrs", .obj [("condition", condition.toJson)]) ::
      Wire.contentJson Block.toJson blocks)) = some (.conditional condition blocks) := by
  have hblocks := Wire.listField_ofListWith (Block.ofJsonAt?_toJson .inside) blocks
  simp [readSection, Wire.contentJson, readCondition_obj, hblocks]

theorem Node.plain_toJson (n : Node) : Plain 12 n.toJson := by
  cases n with
  | block b => exact b.plain_toJson.mono (by decide)
  | conditional condition blocks =>
    exact Wire.plain_ofNode (by simpa using condition.plain_toJson.mono (by decide))
      (Wire.plain_contentJson Block.plain_toJson blocks)

theorem Node.ofJson?_toJson (n : Node) : ofJson? n.toJson = some n := by
  cases n with
  | block b => exact (ofJson?_block _ b).1 (b.ofJsonAt?_toJson .outside)
  | conditional condition blocks =>
    have hparts := Wire.parts_ofNode (conditional condition blocks).plain_toJson
      (by simp [Wire.contentJson])
    rw [ofJson?, toJson, Wire.oneOf_of_parts hparts]
    simp [alternatives, readSection_obj]

theorem Document.readAttrs_obj (title : String) (language : Option String) :
    readAttrs (.obj [("language", Wire.ofOption .str language), ("title", .str title)]) =
      some (title, language) := by
  simp [readAttrs]

theorem Document.plain_toJson (doc : Document) : Plain 14 doc.toJson := by
  have hattrs : Plain 13 (.obj [("language", Wire.ofOption .str doc.language), ("title", .str doc.title)]) :=
    .obj (by simpa using Wire.plain_ofOption Plain.str doc.language)
  exact .obj (List.forall_mem_cons.2 ⟨hattrs, Wire.plain_contentJson Node.plain_toJson doc.content⟩)

theorem Document.ofJson?_toJson (doc : Document) : ofJson? doc.toJson = some doc := by
  have hcontent := Wire.listField_ofListWith Node.ofJson?_toJson doc.content
  simp [ofJson?, toJson, Wire.contentJson, readAttrs_obj, hcontent]

/-! ## Faithful forms -/

namespace Wire

variable {α : Type} {write : α → Json} {read : Reader α}

/-- The written form of a type is read as the type itself. -/
structure Faithful (write : α → Json) (read : Reader α) : Prop where
  read_write (a : α) : read (write a) = some a
  read_print (a : α) : (Json.parse? (write a).print).bind read = some a
  read_pretty (a : α) : (Json.parse? (write a).pretty).bind read = some a
  write_injective : Function.Injective write
  print_injective : Function.Injective fun a => (write a).print
  /-- Whatever is accepted is the same once it has been written. -/
  reread (j : Json) : ((read j).bind fun a => read (write a)) = read j
  /-- So is whatever text is accepted. -/
  reread_text (s : String) :
    (((Json.parse? s).bind read).bind fun a => (Json.parse? (write a).print).bind read) =
      (Json.parse? s).bind read

theorem Faithful.of_plain {d : Nat} (hread : ∀ a, read (write a) = some a)
    (hplain : ∀ a, Plain d (write a)) (hdepth : d ≤ Json.maxDepth) : Faithful write read := by
  have hprint : ∀ a, (Json.parse? (write a).print).bind read = some a := fun a => by
    rw [(hplain a).parse?_print hdepth, Option.bind_some, hread]
  have hpretty : ∀ a, (Json.parse? (write a).pretty).bind read = some a := fun a => by
    rw [(hplain a).parse?_pretty hdepth, Option.bind_some, hread]
  refine ⟨hread, hprint, hpretty, fun a b h => ?_, fun a b h => ?_, fun j => ?_, fun s => ?_⟩
  · exact Option.some.inj (by rw [← hread a, ← hread b, h])
  · have htext : (write a).print = (write b).print := h
    exact Option.some.inj (by rw [← hprint a, ← hprint b, htext])
  · simp only [hread, Option.bind_fun_some]
  · simp only [hprint, Option.bind_fun_some]

/-- **What is written is read back.** A value of any type that has a written form is read back from its
JSON and from the texts of its JSON; different values are written differently; and what is accepted is
still the same after it has been written and read again. -/
theorem faithful :
    Faithful Value.toJson Value.ofJson? ∧ Faithful Data.toJson Data.ofJson? ∧
    Faithful SubData.toJson SubData.ofJson? ∧ Faithful Columns.toJson Columns.ofJson? ∧
    Faithful Kind.toJson Kind.ofJson? ∧ Faithful Operator.toJson Operator.ofJson? ∧
    Faithful Comparison.toJson Comparison.ofJson? ∧ Faithful Condition.toJson Condition.ofJson? ∧
    Faithful Document.toJson Document.ofJson? ∧ Faithful Node.toJson Node.ofJson? ∧
    Faithful Block.toJson Block.ofJson? ∧ Faithful ItemBlock.toJson ItemBlock.ofJson? ∧
    Faithful Inline.toJson Inline.ofJson? ∧ Faithful Mark.toJson Mark.ofJson? := by
  refine ⟨?_, ?_, ?_, ?_, ?_, ?_, ?_, ?_, ?_, ?_, ?_, ?_, ?_, ?_⟩
  · exact .of_plain (Value.ofJsonAt?_toJson .outside) Value.plain_toJson (by decide)
  · exact .of_plain Data.ofJson?_toJson Data.plain_toJson (by decide)
  · exact .of_plain SubData.ofJson?_toJson SubData.plain_toJson (by decide)
  · exact .of_plain Columns.ofJson?_toJson Columns.plain_toJson (by decide)
  · exact .of_plain (Kind.ofJsonAt?_toJson .outside) Kind.plain_toJson (Nat.zero_le _)
  · exact .of_plain (Operator.ofJsonAt?_toJson .outside) Operator.plain_toJson (Nat.zero_le _)
  · exact .of_plain (Comparison.ofJsonAt?_toJson .outside) Comparison.plain_toJson (by decide)
  · exact .of_plain (Condition.ofJsonAt?_toJson .outside) Condition.plain_toJson (by decide)
  · exact .of_plain Document.ofJson?_toJson Document.plain_toJson (by decide)
  · exact .of_plain Node.ofJson?_toJson Node.plain_toJson (by decide)
  · exact .of_plain (Block.ofJsonAt?_toJson .outside) Block.plain_toJson (by decide)
  · exact .of_plain (ItemBlock.ofJsonAt?_toJson .outside) ItemBlock.plain_toJson (by decide)
  · exact .of_plain (Inline.ofJsonAt?_toJson .outside) Inline.plain_toJson (by decide)
  · exact .of_plain (Mark.ofJsonAt?_toJson .outside) Mark.plain_toJson (by decide)

end Wire

end FormPress
