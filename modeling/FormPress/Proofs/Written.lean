import FormPress.Proofs.Transcription
import FormPress.Wire.Document
/-!
# Written forms

The written forms of lists, tables and tagged values are read back as what was written, if their parts
are. Values and conditions are put together from them: what either is written as is read back as it
was, wherever it stands (`Value.ofJsonAt?_toJson`, `Condition.ofJsonAt?_toJson`).
-/
namespace FormPress

open Json (Plain)

namespace Wire

variable {α : Type} {read : Reader α} {write : α → Json}

/-! ## Fields of written records -/

@[simp] theorem text_str (s : String) : text (.str s) = some s := rfl

@[simp] theorem required_some (j : Json) : required read (some j) = read j := rfl

@[simp] theorem withDefault_some (a : α) (j : Json) : withDefault a read (some j) = read j := rfl

theorem filter_name_eq_nil {name : String} {fields : List (String × Json)}
    (h : ∀ f ∈ fields, f.1 ≠ name) : fields.filter (fun f => f.1 == name) = [] := by
  simpa [List.filter_eq_nil_iff] using fun k v hf => h (k, v) hf

@[simp] theorem single?_head {name : String} {fields : List (String × Json)} (j : Json)
    (h : ∀ f ∈ fields, f.1 ≠ name) : single? name ((name, j) :: fields) = some (some j) := by
  simp [single?, filter_name_eq_nil h]

@[simp] theorem single?_tail {name name' : String} (j : Json) (fields : List (String × Json))
    (h : name' ≠ name) : single? name ((name', j) :: fields) = single? name fields := by
  simp [single?, h]

@[simp] theorem pick?_nil (fields : List (String × Json)) : pick? [] fields = some [] := rfl

@[simp] theorem pick?_cons (name : String) (names : List String) (fields : List (String × Json)) :
    pick? (name :: names) fields =
      (single? name fields).bind fun j => (pick? names fields).map (j :: ·) := by
  rw [pick?]
  cases single? name fields <;> cases pick? names fields <;> rfl

@[simp] theorem record_obj (names : List String) (fields : List (String × Json)) :
    record names (.obj fields) = pick? names fields := rfl

/-! ## Written lists, options and tables -/

theorem items_map (h : ∀ a, read (write a) = some a) (as : List α) :
    items read (as.map write) = some as := by
  induction as with
  | nil => rfl
  | cons a as ih => simp [items, h, ih]

@[simp] theorem list_ofListWith (h : ∀ a, read (write a) = some a) (as : List α) :
    list read (ofListWith write as) = some as :=
  items_map h as

@[simp] theorem listField_ofListWith (h : ∀ a, read (write a) = some a) (as : List α) :
    listField read (some (ofListWith write as)) = some as :=
  items_map h as

/-- What is absent is read back as absent, for `null` can be nothing else. -/
theorem optionField_ofOption (h : ∀ a, read (write a) = some a) (hnull : read .null = none)
    (a? : Option α) : optionField read (some (ofOption write a?)) = some a? := by
  cases a? with
  | none => rfl
  | some a =>
    have hne : write a ≠ .null := by
      intro heq
      have ha := h a
      rw [heq, hnull] at ha
      cases ha
    rw [optionField, withDefault, ofOption, optional.eq_2 _ _ hne, h]
    rfl

@[simp] theorem optionField_text (s? : Option String) :
    optionField text (some (ofOption .str s?)) = some s? :=
  optionField_ofOption text_str rfl s?

theorem entries_map (h : ∀ a, read (write a) = some a) (l : List (String × α)) :
    entries read (l.map fun e => (e.1, write e.2)) = some l := by
  induction l with
  | nil => rfl
  | cons e l ih => simp [entries, h, ih]

theorem table_ofTable (h : ∀ a, read (write a) = some a) (m : FieldMap α) :
    table read (ofTable write m) = some m := by
  rw [ofTable, table, entries_map h, Option.map_some, m.ofList_entries]

/-! ## Written nodes -/

/-- Wherever the value stands and whatever the tags are, it is parted into the tag and the record. -/
def Parts (j : Json) (parts : String × Json) : Prop :=
  ∀ place tags, tagged place tags j = some parts

/-- The tag of a written value is found behind its fields. -/
theorem parts_append {d : Nat} (fields : List (String × Json)) {name : String}
    (h : Plain d (.obj (fields ++ [("type", .str name)]))) (hfields : ∀ f ∈ fields, f.1 ≠ "type") :
    Parts (.obj (fields ++ [("type", .str name)])) (name, .obj fields) := by
  intro place tags
  have hall : fields.filter (fun f => f.1 != "type") = fields := by
    simpa [List.filter_eq_self] using fun k v hf => hfields (k, v) hf
  simp [tagged, h.isReadable, single?, filter_name_eq_nil hfields, hall, tag]

theorem parts_ofNode {d : Nat} {name : String} {attrs rest : List (String × Json)}
    (h : Plain d (ofNode name attrs rest)) (hrest : ∀ f ∈ rest, f.1 ≠ "type") :
    Parts (ofNode name attrs rest) (name, .obj (("attrs", .obj attrs) :: rest)) :=
  parts_append (("attrs", .obj attrs) :: rest) h (by simpa using hrest)

/-- Of a value that is parted, the alternative of its tag reads the record. -/
theorem oneOf_of_parts {j body : Json} {name : String} (h : Parts j (name, body)) (place : Place)
    (alternatives : List (Alternative α)) :
    oneOf place alternatives j = (alternatives.find? fun a => a.tag == name).bind fun a => a.read body := by
  rw [oneOf, h]
  rfl

/-! ## Depth of written forms -/

theorem plain_ofListWith {d : Nat} (h : ∀ a, Plain d (write a)) (as : List α) :
    Plain (d + 1) (ofListWith write as) := by
  refine .arr fun item hitem => ?_
  obtain ⟨a, -, rfl⟩ := List.mem_map.1 hitem
  exact h a

theorem plain_ofOption {d : Nat} (h : ∀ a, Plain d (write a)) (a? : Option α) :
    Plain d (ofOption write a?) := by
  cases a? with
  | none => exact .null
  | some a => exact h a

theorem plain_ofTable {d : Nat} (h : ∀ a, Plain d (write a)) (m : FieldMap α) :
    Plain (d + 1) (ofTable write m) := by
  refine .obj fun f hf => ?_
  obtain ⟨e, -, rfl⟩ := List.mem_map.1 hf
  exact h e.2

theorem plain_ofNode {d : Nat} {name : String} {attrs rest : List (String × Json)}
    (hattrs : ∀ f ∈ attrs, Plain d f.2) (hrest : ∀ f ∈ rest, Plain (d + 1) f.2) :
    Plain (d + 2) (ofNode name attrs rest) := by
  refine .obj (List.forall_mem_cons.2 ⟨.obj hattrs, List.forall_mem_append.2 ⟨hrest, ?_⟩⟩)
  simp

theorem plain_contentJson {d : Nat} (h : ∀ a, Plain d (write a)) (content : List α) :
    ∀ f ∈ contentJson write content, Plain (d + 1) f.2 := by
  simpa [contentJson] using plain_ofListWith h content

end Wire

/-! ## Values -/

theorem Kind.ofJsonAt?_toJson (place : Wire.Place) (k : Kind) : ofJsonAt? place k.toJson = some k :=
  ofName?_name k

theorem Kind.plain_toJson {d : Nat} (k : Kind) : Plain d k.toJson := .str k.name

theorem FileRef.readSize_toNat (n : UInt64) : readSize (.int n.toNat) = some n := by
  have h := n.toNat_lt
  have hlo : (0 : Int) ≤ n.toNat := by omega
  have hhi : (n.toNat : Int) ≤ 18446744073709551615 := by omega
  rw [readSize, Wire.integer, if_pos ⟨hlo, hhi⟩, Option.map_some, Int.toNat_natCast,
    UInt64.ofNat_toNat]

theorem FileRef.ofJson?_toJson (f : FileRef) : ofJson? f.toJson = some f := by
  simp [ofJson?, toJson, readSize_toNat]

theorem FileRef.plain_toJson (f : FileRef) : Plain 1 f.toJson := by
  have hlt := f.size.toNat_lt
  have hsize : Plain 0 (.int f.size.toNat) := .int (by omega) (by omega)
  exact .obj (by simpa using hsize)

theorem Value.readNumber_toInt (n : Int64) : readNumber (.int n.toInt) = some n := by
  have hlo : -9223372036854775808 ≤ n.toInt := n.le_toInt
  have hhi : n.toInt ≤ 9223372036854775807 := Int.le_of_lt_add_one n.toInt_lt
  rw [readNumber, Wire.integer, if_pos ⟨hlo, hhi⟩, Option.map_some, Int64.ofInt_toInt]

theorem Value.readPayload_payloadJson (v : Value) : readPayload v.kind v.payloadJson = some v := by
  cases v with
  | text _ | date _ | datetime _ | choice _ | boolean _ => rfl
  | number n => simp [readPayload, kind, payloadJson, readNumber_toInt]
  | choiceList ids => simp [readPayload, kind, payloadJson, Wire.list_ofListWith Wire.text_str ids]
  | file files =>
    simp [readPayload, kind, payloadJson, Wire.list_ofListWith FileRef.ofJson?_toJson files]

theorem Value.ofJsonAt?_toJson (place : Wire.Place) (v : Value) : ofJsonAt? place v.toJson = some v := by
  simp [ofJsonAt?, toJson, isPayloadFirst, Kind.ofJsonAt?_toJson, readPayload_payloadJson]

theorem Value.plain_payloadJson (v : Value) : Plain 2 v.payloadJson := by
  cases v with
  | text _ | date _ | datetime _ | choice _ => exact .str _
  | boolean b => exact .bool b
  | number n =>
    have hlo : -9223372036854775808 ≤ n.toInt := n.le_toInt
    have hhi : n.toInt < 9223372036854775808 := n.toInt_lt
    exact .int hlo (by omega)
  | choiceList ids => exact Wire.plain_ofListWith Plain.str ids
  | file files => exact Wire.plain_ofListWith FileRef.plain_toJson files

theorem Value.plain_toJson (v : Value) : Plain 3 v.toJson :=
  .obj (by simp [Kind.plain_toJson, v.plain_payloadJson])

/-! ## Tables -/

theorem Data.ofJson?_toJson (d : Data) : ofJson? d.toJson = some d :=
  Wire.table_ofTable (Value.ofJsonAt?_toJson .outside) d

theorem Data.plain_toJson (d : Data) : Plain 4 d.toJson :=
  Wire.plain_ofTable Value.plain_toJson d

theorem SubData.ofJson?_toJson (s : SubData) : ofJson? s.toJson = some s :=
  Wire.table_ofTable (Wire.list_ofListWith Data.ofJson?_toJson) s

theorem SubData.plain_toJson (s : SubData) : Plain 6 s.toJson :=
  Wire.plain_ofTable (Wire.plain_ofListWith Data.plain_toJson) s

theorem Columns.ofJson?_toJson (c : Columns) : ofJson? c.toJson = some c :=
  Wire.table_ofTable (Kind.ofJsonAt?_toJson .outside) c

theorem Columns.plain_toJson (c : Columns) : Plain 1 c.toJson :=
  Wire.plain_ofTable Kind.plain_toJson c

/-! ## Conditions -/

theorem Operator.ofJsonAt?_toJson (place : Wire.Place) (op : Operator) :
    ofJsonAt? place op.toJson = some op :=
  ofName?_name op

theorem Operator.plain_toJson {d : Nat} (op : Operator) : Plain d op.toJson := .str op.name

theorem Comparison.ofJsonAt?_obj (place : Wire.Place) (c : Comparison) :
    ofJsonAt? place (.obj c.jsonFields) = some c := by
  simp [ofJsonAt?, jsonFields, Operator.ofJsonAt?_toJson, Value.ofJsonAt?_toJson]

theorem Comparison.plain_jsonFields (c : Comparison) : ∀ f ∈ c.jsonFields, Plain 3 f.2 := by
  simp [jsonFields, Operator.plain_toJson, c.literal.plain_toJson]

theorem Comparison.plain_toJson (c : Comparison) : Plain 4 c.toJson := .obj c.plain_jsonFields

theorem Comparison.ofJsonAt?_toJson (place : Wire.Place) (c : Comparison) :
    ofJsonAt? place c.toJson = some c :=
  c.ofJsonAt?_obj place

theorem Condition.readMembers_obj (members : List Comparison) :
    readMembers (.obj [("expressions", Wire.ofListWith Comparison.toJson members)]) = some members := by
  have h : Wire.list (Comparison.ofJsonAt? .inside) (Wire.ofListWith Comparison.toJson members) =
      some members :=
    Wire.list_ofListWith (Comparison.ofJsonAt?_toJson .inside) members
  simp [readMembers, h]

theorem Condition.plain_membersJson (name : String) (members : List Comparison) :
    Plain 6 (membersJson name members) :=
  .obj (by simpa using Wire.plain_ofListWith Comparison.plain_toJson members)

theorem Condition.plain_toJson (e : Condition) : Plain 6 e.toJson := by
  cases e with
  | single c =>
    refine .obj (List.forall_mem_append.2 ⟨fun f hf => ?_, by simp⟩)
    exact (c.plain_jsonFields f hf).mono (by decide)
  | all members => exact plain_membersJson "and" members
  | any members => exact plain_membersJson "or" members

theorem Condition.ofJsonAt?_toJson (place : Wire.Place) (e : Condition) :
    ofJsonAt? place e.toJson = some e := by
  have hmembers : ∀ name members, Wire.Parts (membersJson name members)
      (name, .obj [("expressions", Wire.ofListWith Comparison.toJson members)]) :=
    fun name members => Wire.parts_append [_] (plain_membersJson name members) (by simp)
  cases e with
  | single c =>
    have hsingle : Wire.Parts (toJson (.single c)) ("binary", .obj c.jsonFields) :=
      Wire.parts_append c.jsonFields (single c).plain_toJson (by simp [Comparison.jsonFields])
    rw [ofJsonAt?, Wire.oneOf_of_parts hsingle]
    simp [alternatives, Comparison.ofJsonAt?_obj]
  | all members | any members =>
    rw [ofJsonAt?, toJson, Wire.oneOf_of_parts (hmembers _ members)]
    simp [alternatives, readMembers_obj]

end FormPress
