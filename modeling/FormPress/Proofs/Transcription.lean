import FormPress.Json.Parser
import FormPress.Proofs.Literals
/-!
# JSON text read back

Both written forms of a value have the same tokens (`Plain.reads_compact`, `Plain.reads_indented`), and the
tokens of a value put it together again (`Plain.builds`). So what is written is read back as it was, in
either form (`Plain.parse?_print`, `Plain.parse?_pretty`), if it does not nest too deep and its numbers
are whole and have 64 bits.
-/
namespace FormPress.Json

/-- The value can be written and read again: all of it is readable, its numbers are whole and have 64
bits, and it nests no deeper than `depth`. -/
inductive Plain : Nat → Json → Prop
  | null {depth : Nat} : Plain depth .null
  | bool {depth : Nat} (b : Bool) : Plain depth (.bool b)
  | int {depth : Nat} {n : Int} (hlo : -9223372036854775808 ≤ n) (hhi : n ≤ 18446744073709551615) :
    Plain depth (.int n)
  | str {depth : Nat} (s : String) : Plain depth (.str s)
  | arr {depth : Nat} {items : List Json} (h : ∀ item ∈ items, Plain depth item) :
    Plain (depth + 1) (.arr items)
  | obj {depth : Nat} {fields : List (String × Json)} (h : ∀ f ∈ fields, Plain depth f.2) :
    Plain (depth + 1) (.obj fields)

attribute [simp] Plain.null Plain.bool Plain.str

namespace Plain

theorem mono {d d' : Nat} {j : Json} (h : Plain d j) (hd : d ≤ d') : Plain d' j := by
  induction h generalizing d' with
  | null => exact .null
  | bool b => exact .bool b
  | int hlo hhi => exact .int hlo hhi
  | str s => exact .str s
  | arr _ ih =>
    obtain ⟨e, rfl⟩ : ∃ e, d' = e + 1 := ⟨d' - 1, by omega⟩
    exact .arr fun item hitem => ih item hitem (by omega)
  | obj _ ih =>
    obtain ⟨e, rfl⟩ : ∃ e, d' = e + 1 := ⟨d' - 1, by omega⟩
    exact .obj fun f hf => ih f hf (by omega)

theorem areReadable_of {items : List Json} (h : ∀ item ∈ items, item.isReadable = true) :
    areReadable items = true := by
  induction items with
  | nil => rfl
  | cons item items ih =>
    rw [areReadable, h item (by simp), ih fun j hj => h j (by simp [hj])]
    rfl

theorem haveReadable_of {fields : List (String × Json)} (h : ∀ f ∈ fields, f.2.isReadable = true) :
    haveReadable fields = true := by
  induction fields with
  | nil => rfl
  | cons f fields ih =>
    rw [haveReadable, h f (by simp), ih fun f' hf' => h f' (by simp [hf'])]
    rfl

theorem isReadable {d : Nat} {j : Json} (h : Plain d j) : j.isReadable = true := by
  induction h with
  | arr _ ih => exact areReadable_of ih
  | obj _ ih => exact haveReadable_of ih
  | null | bool | int | str => rfl

end Plain

/-! ## The tokens of a value -/

mutual

/-- The tokens that a value is written with. -/
def toTokens : Json → List Token
  | null | unreadable => [.word null]
  | bool b => [.word (bool b)]
  | int n => [.word (int n)]
  | real literal => [.word (real literal)]
  | str s => [.text (some s)]
  | arr [] => [.openArray, .closeArray]
  | arr (item :: items) => .openArray :: (toTokens item ++ itemTokens items)
  | obj [] => [.openObject, .closeObject]
  | obj (field :: fields) => .openObject :: (fieldTokens field ++ moreTokens fields)

/-- The items behind the first, and the end of the array. -/
def itemTokens : List Json → List Token
  | [] => [.closeArray]
  | item :: items => .comma :: (toTokens item ++ itemTokens items)

def fieldTokens : String × Json → List Token
  | (name, value) => .text (some name) :: .colon :: toTokens value

/-- The fields behind the first, and the end of the object. -/
def moreTokens : List (String × Json) → List Token
  | [] => [.closeObject]
  | field :: fields => .comma :: (fieldTokens field ++ moreTokens fields)

end

/-! ## From text to tokens -/

theorem tokens?_space {c : Char} (hc : isSpace c = true) (cs : List Char) :
    tokens? (c :: cs) = tokens? cs := by
  rw [tokens?, if_pos hc]

theorem tokens?_blank {blank : List Char} (h : ∀ c ∈ blank, isSpace c = true) (cs : List Char) :
    tokens? (blank ++ cs) = tokens? cs := by
  induction blank with
  | nil => rfl
  | cons c blank ih =>
    rw [List.cons_append, tokens?_space (h c (by simp)), ih fun d hd => h d (by simp [hd])]

/-- Punctuation is a token by itself. -/
theorem tokens?_punctuation {c : Char} {t : Token} (hc : punctuation? c = some t) (cs : List Char) :
    tokens? (c :: cs) = (tokens? cs).map (t :: ·) := by
  have hother : isSpace c = false ∧ c ≠ '"' ∧ isWordChar c = false := by
    unfold punctuation? at hc
    split at hc <;> first | decide | cases hc
  obtain ⟨hspace, hquote, hword⟩ := hother
  rw [tokens?, hspace, if_neg Bool.false_ne_true, if_neg hquote, dif_neg (by simp [hword])]
  simp only [hc]

/-- The text is read as the tokens, whatever follows that does not go on with its last word. -/
def Reads (cs : List Char) (ts : List Token) : Prop :=
  ∀ rest, EndsWord rest → tokens? (cs ++ rest) = (tokens? rest).map (ts ++ ·)

theorem EndsWord.append {cs cs' : List Char} (h : EndsWord cs) (h' : EndsWord cs') :
    EndsWord (cs ++ cs') := by
  cases cs with
  | nil => exact h'
  | cons c cs => exact endsWord_cons (h c (by simp)) _

namespace Reads

theorem append {cs cs' : List Char} {ts ts' : List Token} (h : Reads cs ts) (h' : Reads cs' ts')
    (hends : EndsWord cs') : Reads (cs ++ cs') (ts ++ ts') := by
  intro rest hrest
  rw [List.append_assoc, h _ (hends.append hrest), h' rest hrest, Option.map_map]
  congr 1
  funext more
  simp

theorem cons {c : Char} {t : Token} (hc : punctuation? c = some t) {cs : List Char} {ts : List Token}
    (h : Reads cs ts) : Reads (c :: cs) (t :: ts) := by
  intro rest hrest
  rw [List.cons_append, tokens?_punctuation hc, h rest hrest, Option.map_map]
  rfl

theorem blank {blank : List Char} (hblank : ∀ c ∈ blank, isSpace c = true) {cs : List Char}
    {ts : List Token} (h : Reads cs ts) : Reads (blank ++ cs) ts := by
  intro rest hrest
  rw [List.append_assoc, tokens?_blank hblank, h rest hrest]

theorem nil : Reads [] [] := by
  intro rest _
  cases h : tokens? rest <;> simp [h]

theorem word {w : List Char} {value : Json} (hword : word? w = some value)
    (hw : ∀ c ∈ w, isWordChar c = true) (hne : w ≠ []) : Reads w [.word value] :=
  fun _ hrest => tokens?_word hword hw hne hrest

theorem encode (s : String) : Reads (Quoted.encode s) [.text (some s)] :=
  fun rest _ => tokens?_encode s rest

theorem null : Reads "null".toList [.word .null] :=
  word rfl (List.all_eq_true.1 (by decide)) (by decide)

theorem boolWord (b : Bool) : Reads (boolWord b) [.word (.bool b)] := by
  cases b with
  | false => exact word rfl (List.all_eq_true.1 (by decide)) (by decide)
  | true => exact word rfl (List.all_eq_true.1 (by decide)) (by decide)

theorem int {n : Int} (hlo : -9223372036854775808 ≤ n) (hhi : n ≤ 18446744073709551615) :
    Reads (Text.signedNumeral n) [.word (.int n)] :=
  word (word?_signedNumeral hlo hhi) (fun _ => isWordChar_of_mem_signedNumeral)
    (signedNumeral_ne_nil n)

end Reads

/-! ### The compact form -/

theorem endsWord_compactItems (items : List Json) : EndsWord (compactItems items) := by
  cases items <;> exact endsWord_cons (by decide) _

theorem endsWord_compactFields (fields : List (String × Json)) : EndsWord (compactFields fields) := by
  cases fields <;> exact endsWord_cons (by decide) _

theorem reads_compactItems {items : List Json}
    (h : ∀ item ∈ items, Reads (compact item) (toTokens item)) :
    Reads (compactItems items) (itemTokens items) := by
  induction items with
  | nil => exact .cons rfl .nil
  | cons item items ih =>
    have hmore := ih fun j hj => h j (by simp [hj])
    exact .cons rfl ((h item (by simp)).append hmore (endsWord_compactItems items))

theorem reads_compactField {field : String × Json} (h : Reads (compact field.2) (toTokens field.2)) :
    Reads (compactField field) (fieldTokens field) := by
  obtain ⟨name, value⟩ := field
  have hvalue : Reads (':' :: compact value) (.colon :: toTokens value) := .cons rfl h
  exact (Reads.encode name).append hvalue (endsWord_cons (by decide) _)

theorem reads_compactFields {fields : List (String × Json)}
    (h : ∀ f ∈ fields, Reads (compact f.2) (toTokens f.2)) :
    Reads (compactFields fields) (moreTokens fields) := by
  induction fields with
  | nil => exact .cons rfl .nil
  | cons field fields ih =>
    have hmore := ih fun f hf => h f (by simp [hf])
    exact .cons rfl ((reads_compactField (h field (by simp))).append hmore (endsWord_compactFields fields))

theorem Plain.reads_compact {d : Nat} {j : Json} (h : Plain d j) : Reads (compact j) (toTokens j) := by
  induction h with
  | null => exact .null
  | bool b => exact .boolWord b
  | int hlo hhi => exact .int hlo hhi
  | str s => exact .encode s
  | @arr _ items _ ih =>
    cases items with
    | nil => exact .cons rfl (.cons rfl .nil)
    | cons item items =>
      have hmore : Reads (compactItems items) (itemTokens items) :=
        reads_compactItems fun j hj => ih j (by simp [hj])
      exact .cons rfl ((ih item (by simp)).append hmore (endsWord_compactItems items))
  | @obj _ fields _ ih =>
    cases fields with
    | nil => exact .cons rfl (.cons rfl .nil)
    | cons field fields =>
      have hmore : Reads (compactFields fields) (moreTokens fields) :=
        reads_compactFields fun f hf => ih f (by simp [hf])
      exact .cons rfl
        ((reads_compactField (ih field (by simp))).append hmore (endsWord_compactFields fields))

/-! ### The indented form -/

theorem isSpace_of_mem_newLine {level : Nat} {c : Char} (h : c ∈ newLine level) : isSpace c = true := by
  rcases List.mem_cons.1 h with rfl | h
  · decide
  · rw [List.eq_of_mem_replicate h]
    decide

theorem Reads.newLine {level : Nat} {cs : List Char} {ts : List Token} (h : Reads cs ts) :
    Reads (newLine level ++ cs) ts :=
  .blank (fun _ => isSpace_of_mem_newLine) h

theorem endsWord_newLine (level : Nat) (cs : List Char) : EndsWord (newLine level ++ cs) :=
  endsWord_cons (by decide) _

theorem endsWord_indentedItems (level : Nat) (items : List Json) :
    EndsWord (indentedItems level items) := by
  cases items with
  | nil => exact endsWord_newLine level _
  | cons item items => exact endsWord_cons (by decide) _

theorem endsWord_indentedFields (level : Nat) (fields : List (String × Json)) :
    EndsWord (indentedFields level fields) := by
  cases fields with
  | nil => exact endsWord_newLine level _
  | cons field fields => exact endsWord_cons (by decide) _

theorem reads_indentedItems {level : Nat} {items : List Json}
    (h : ∀ item ∈ items, Reads (indented (level + 1) item) (toTokens item)) :
    Reads (indentedItems level items) (itemTokens items) := by
  induction items with
  | nil => exact .newLine (.cons rfl .nil)
  | cons item items ih =>
    have hmore := ih fun j hj => h j (by simp [hj])
    rw [indentedItems, List.append_assoc]
    exact .cons rfl (.newLine ((h item (by simp)).append hmore (endsWord_indentedItems level items)))

theorem reads_indentedField {level : Nat} {field : String × Json}
    (h : Reads (indented level field.2) (toTokens field.2)) :
    Reads (indentedField level field) (fieldTokens field) := by
  obtain ⟨name, value⟩ := field
  have hblank : Reads ([' '] ++ indented level value) (toTokens value) := .blank (by simp [isSpace]) h
  have hvalue : Reads (':' :: ' ' :: indented level value) (.colon :: toTokens value) :=
    .cons rfl hblank
  exact (Reads.encode name).append hvalue (endsWord_cons (by decide) _)

theorem reads_indentedFields {level : Nat} {fields : List (String × Json)}
    (h : ∀ f ∈ fields, Reads (indented (level + 1) f.2) (toTokens f.2)) :
    Reads (indentedFields level fields) (moreTokens fields) := by
  induction fields with
  | nil => exact .newLine (.cons rfl .nil)
  | cons field fields ih =>
    have hmore := ih fun f hf => h f (by simp [hf])
    have hfield := reads_indentedField (h field (by simp))
    rw [indentedFields, List.append_assoc]
    exact .cons rfl (.newLine (hfield.append hmore (endsWord_indentedFields level fields)))

theorem Plain.reads_indented {d : Nat} {j : Json} (h : Plain d j) (level : Nat) :
    Reads (indented level j) (toTokens j) := by
  induction h generalizing level with
  | null => exact .null
  | bool b => exact .boolWord b
  | int hlo hhi => exact .int hlo hhi
  | str s => exact .encode s
  | @arr _ items _ ih =>
    cases items with
    | nil => exact .cons rfl (.cons rfl .nil)
    | cons item items =>
      have hmore : Reads (indentedItems level items) (itemTokens items) :=
        reads_indentedItems fun j hj => ih j (by simp [hj]) (level + 1)
      have hitem := ih item (by simp) (level + 1)
      rw [indented, List.append_assoc]
      exact .cons rfl (.newLine (hitem.append hmore (endsWord_indentedItems level items)))
  | @obj _ fields _ ih =>
    cases fields with
    | nil => exact .cons rfl (.cons rfl .nil)
    | cons field fields =>
      have hmore : Reads (indentedFields level fields) (moreTokens fields) :=
        reads_indentedFields fun f hf => ih f (by simp [hf]) (level + 1)
      have hfield := reads_indentedField (ih field (by simp) (level + 1))
      rw [indented, List.append_assoc]
      exact .cons rfl (.newLine (hfield.append hmore (endsWord_indentedFields level fields)))

/-! ## From tokens to the value -/

/-- A value that comes next goes into the frames: as the value that is awaited, or as the first item of
an array. -/
def Progress.Starts (p : Progress) (frames : List Frame) : Prop :=
  ∀ t, t ≠ .closeArray → p.take t = startValue frames t

theorem Progress.starts_value (frames : List Frame) : (⟨frames, .value⟩ : Progress).Starts frames :=
  fun _ _ => rfl

theorem Progress.starts_firstItem (frames : List Frame) :
    (⟨frames, .firstItem⟩ : Progress).Starts (.array [] :: frames) := by
  intro t ht
  cases t <;> first | rfl | exact absurd rfl ht

theorem close_eq {frames : List Frame} (h : frames.length < maxDepth) (container : Json) :
    close frames container = ⟨frames, .separator container⟩ := by
  have hdrop : frames.drop (maxDepth - 1) = [] := by
    rw [List.drop_eq_nil_iff]
    omega
  rw [close, hdrop]
  rfl

/-- Fields with readable names, as the parser keeps them: the last first. -/
def known (fields : List (String × Json)) : Fields := (fields.map fun f => (some f.1, f.2)).reverse

theorem cons_known (name : String) (value : Json) (fields : List (String × Json)) :
    (some name, value) :: known fields = known (fields ++ [(name, value)]) := by
  simp [known]

theorem ofFields_known (fields : List (String × Json)) : ofFields (known fields) = obj fields := by
  have hall : (known fields).all (fun f => f.1.isSome) = true := by
    simp [known, List.all_eq_true]
  rw [ofFields, if_pos hall, known, List.reverse_reverse, List.filterMap_map]
  exact congrArg obj List.filterMap_some

section

variable {frames : List Frame} {rest : List Token}

/-- `j` is put together by its tokens, wherever it is awaited. -/
def Builds (frames : List Frame) (j : Json) : Prop :=
  ∀ p rest, Progress.Starts p frames →
    p.takeAll (toTokens j ++ rest) = Progress.takeAll ⟨frames, .separator j⟩ rest

theorem takeAll_itemTokens {items : List Json} (hdepth : frames.length < maxDepth) {read : List Json}
    {value : Json} (h : ∀ item ∈ items, ∀ read, Builds (.array read :: frames) item) :
    Progress.takeAll ⟨.array read :: frames, .separator value⟩ (itemTokens items ++ rest) =
      Progress.takeAll ⟨frames, .separator (arr (read.reverse ++ value :: items))⟩ rest := by
  induction items generalizing read value with
  | nil =>
    rw [itemTokens, List.singleton_append, Progress.takeAll]
    simp only [Progress.take, continueFrame, Option.bind_some, close_eq hdepth, List.reverse_cons]
  | cons item items ih =>
    rw [itemTokens, List.cons_append, Progress.takeAll, List.append_assoc]
    simp only [Progress.take, continueFrame, Option.bind_some]
    rw [h item (by simp) (value :: read) _ _ (Progress.starts_value _),
      ih fun j hj => h j (by simp [hj])]
    simp

/-- A name and its value behind it, where a name is awaited. -/
theorem takeAll_fieldTokens {read : Fields} {field : String × Json} {p : Progress}
    (hp : p.take (.text (some field.1)) = some ⟨frames, .colon read (some field.1)⟩)
    (h : Builds (.object read (some field.1) :: frames) field.2) :
    p.takeAll (fieldTokens field ++ rest) =
      Progress.takeAll ⟨.object read (some field.1) :: frames, .separator field.2⟩ rest := by
  rw [fieldTokens, List.cons_append, Progress.takeAll, hp, Option.bind_some, List.cons_append,
    Progress.takeAll]
  simp only [Progress.take, Option.bind_some]
  exact h _ _ (Progress.starts_value _)

theorem takeAll_moreTokens {fields : List (String × Json)} (hdepth : frames.length < maxDepth)
    {read : List (String × Json)} {name : String} {value : Json}
    (h : ∀ f ∈ fields, ∀ read, Builds (.object read (some f.1) :: frames) f.2) :
    Progress.takeAll ⟨.object (known read) (some name) :: frames, .separator value⟩
        (moreTokens fields ++ rest) =
      Progress.takeAll ⟨frames, .separator (obj (read ++ (name, value) :: fields))⟩ rest := by
  induction fields generalizing read name value with
  | nil =>
    rw [moreTokens, List.singleton_append, Progress.takeAll]
    simp only [Progress.take, continueFrame, Option.bind_some, cons_known, ofFields_known,
      close_eq hdepth]
  | cons field fields ih =>
    rw [moreTokens, List.cons_append, Progress.takeAll, List.append_assoc]
    simp only [Progress.take, continueFrame, Option.bind_some, cons_known]
    rw [takeAll_fieldTokens rfl (h field (by simp) _), ih fun f hf => h f (by simp [hf])]
    simp

end

/-- A value of one token is built by it. -/
theorem builds_token {frames : List Frame} {j : Json} {t : Token} (hj : toTokens j = [t])
    (ht : t ≠ .closeArray) (hstart : startValue frames t = some ⟨frames, .separator j⟩) :
    Builds frames j := by
  intro p rest hp
  rw [hj, List.singleton_append, Progress.takeAll, hp t ht, hstart, Option.bind_some]

/-- The tokens of a value put it together, if it does not nest too deep. -/
theorem Plain.builds {d : Nat} {j : Json} (h : Plain d j) {frames : List Frame}
    (hdepth : frames.length + d ≤ maxDepth) : Builds frames j := by
  -- Over all frames: a container adds one of its own before its parts are read.
  induction h generalizing frames with
  | null | bool | int | str => exact builds_token rfl (by simp) rfl
  | @arr d items _ ih =>
    intro p rest hp
    have hclose : frames.length < maxDepth := by omega
    have hitems : ∀ item ∈ items, ∀ read, Builds (.array read :: frames) item :=
      fun item hitem read => ih item hitem (by rw [List.length_cons]; omega)
    cases items with
    | nil =>
      rw [toTokens, List.cons_append, Progress.takeAll, hp _ (by simp)]
      simp only [startValue, Option.bind_some, List.singleton_append, Progress.takeAll, Progress.take,
        close_eq hclose]
    | cons item items =>
      rw [toTokens, List.cons_append, Progress.takeAll, hp _ (by simp), List.append_assoc]
      simp only [startValue, Option.bind_some]
      rw [hitems item (by simp) [] _ _ (Progress.starts_firstItem frames),
        takeAll_itemTokens hclose fun j hj => hitems j (by simp [hj])]
      rfl
  | @obj d fields _ ih =>
    intro p rest hp
    have hclose : frames.length < maxDepth := by omega
    have hfields : ∀ f ∈ fields, ∀ read, Builds (.object read (some f.1) :: frames) f.2 :=
      fun f hf read => ih f hf (by rw [List.length_cons]; omega)
    cases fields with
    | nil =>
      rw [toTokens, List.cons_append, Progress.takeAll, hp _ (by simp)]
      simp only [startValue, Option.bind_some, List.singleton_append, Progress.takeAll, Progress.take,
        close_eq hclose]
    | cons field fields =>
      rw [toTokens, List.cons_append, Progress.takeAll, hp _ (by simp), List.append_assoc]
      simp only [startValue, Option.bind_some]
      rw [takeAll_fieldTokens rfl (hfields field (by simp) []),
        show ([] : Fields) = known [] from rfl,
        takeAll_moreTokens hclose fun f hf => hfields f (by simp [hf])]
      rfl

/-! ## The text of a value -/

theorem parse?_of_reads {d : Nat} {j : Json} (h : Plain d j) (hdepth : d ≤ maxDepth) {cs : List Char}
    (hcs : Reads cs (toTokens j)) : parse? (String.ofList cs) = some j := by
  have htokens : tokens? cs = some (toTokens j) := by
    simpa [tokens?] using hcs [] endsWord_nil
  have hbuilds : Builds [] j := h.builds (by simpa using hdepth)
  have htaken : Progress.takeAll ⟨[], .value⟩ (toTokens j) = some ⟨[], .separator j⟩ := by
    simpa [Progress.takeAll] using hbuilds _ [] (Progress.starts_value [])
  rw [parse?, String.toList_ofList, htokens, Option.bind_some, ofTokens?, htaken]
  rfl

/-- The compact text of a value is read back as the value. -/
theorem Plain.parse?_print {d : Nat} {j : Json} (h : Plain d j) (hdepth : d ≤ maxDepth) :
    parse? j.print = some j :=
  parse?_of_reads h hdepth h.reads_compact

/-- The indented text of a value is read back as the value. -/
theorem Plain.parse?_pretty {d : Nat} {j : Json} (h : Plain d j) (hdepth : d ≤ maxDepth) :
    parse? j.pretty = some j :=
  parse?_of_reads h hdepth (h.reads_indented 0)

end FormPress.Json
