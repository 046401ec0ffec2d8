import FormPress.Wire.Document
import Mathlib.Data.List.Nodup
/-!
# The three node languages

What may stand in an item, in a section and at the top are three languages, each with a list of alternatives
of its own. A value belongs to a language if it carries the tag of an alternative that reads its record
(`Wire.Accepts`), and this is what the readers of nodes decide. Where the lists have a tag in common they have
the same alternative under it, so a value is one node in every language it belongs to
(`Node.languages_nested`).
-/
namespace FormPress

/-! ## Alternatives -/

namespace Wire

/-- The value carries the tag of one of the alternatives, and that alternative reads its record. -/
def Accepts {α : Type} (place : Place) (alternatives : List (Alternative α)) (j : Json) (x : α) : Prop :=
  ∃ a ∈ alternatives, ∃ body,
    tagged place (alternatives.map Alternative.tag) j = some (a.tag, body) ∧ a.read body = some x

variable {α β : Type} {place : Place}

/-- What reads alternatives of different tags accepts what one of them reads under its tag. -/
theorem oneOf_eq_some_iff {alternatives : List (Alternative α)}
    (h : (alternatives.map Alternative.tag).Nodup) (j : Json) (x : α) :
    oneOf place alternatives j = some x ↔ Accepts place alternatives j x := by
  have hfind : ∀ a ∈ alternatives, alternatives.find? (fun b => b.tag == a.tag) = some a := by
    intro a ha
    have hsome : (alternatives.find? fun b => b.tag == a.tag).isSome :=
      List.find?_isSome.2 ⟨a, ha, beq_self_eq_true _⟩
    obtain ⟨b, hb⟩ := Option.isSome_iff_exists.1 hsome
    have htag : b.tag = a.tag := by simpa using List.find?_some hb
    rw [hb, List.inj_on_of_nodup_map h (List.mem_of_find?_eq_some hb) ha htag]
  simp only [oneOf, Accepts, Option.bind_eq_bind, Option.bind_eq_some_iff]
  constructor
  · rintro ⟨⟨name, body⟩, hparts, a, ha, hx⟩
    obtain rfl : a.tag = name := by simpa using List.find?_some ha
    exact ⟨a, List.mem_of_find?_eq_some ha, body, hparts, hx⟩
  · rintro ⟨a, ha, body, hparts, hx⟩
    exact ⟨_, hparts, a, hfind a ha, hx⟩

/-- A value is parted in the same way under two lists of tags, if its tag is read from both alike. -/
theorem tagged_of_tag {tags tags' : List String} {name : String}
    (h : ∀ head, tag place tags head = some name → tag place tags' head = some name) {j body : Json}
    (hj : tagged place tags j = some (name, body)) : tagged place tags' j = some (name, body) := by
  unfold tagged at hj ⊢
  split at hj
  · cases hj
  · rename_i hreadable
    rw [if_neg hreadable]
    split at hj
    · rename_i fields
      simp only [Option.bind_eq_bind, Option.bind_eq_some_iff, Option.pure_def, Option.some.injEq,
        Prod.mk.injEq] at hj ⊢
      obtain ⟨_, hsingle, head, rfl, _, htag, rfl, rfl⟩ := hj
      exact ⟨_, hsingle, head, rfl, _, h head htag, rfl, rfl⟩
    · rename_i head rest
      simp only [Option.bind_eq_bind, Option.bind_eq_some_iff, Option.pure_def, Option.some.injEq,
        Prod.mk.injEq] at hj ⊢
      obtain ⟨_, htag, rfl, rfl⟩ := hj
      exact ⟨_, h head htag, rfl, rfl⟩
    · cases hj

/-- One language within another: a value of the first is a value of the second, by an alternative of the
same tag, and there is nothing else of it in the second. -/
structure Within (place : Place) (embed : α → β) (A : List (Alternative α)) (B : List (Alternative β)) :
    Prop where
  tag_iff : ∀ name ∈ A.map Alternative.tag, ∀ head,
    tag place (A.map Alternative.tag) head = some name ↔ tag place (B.map Alternative.tag) head = some name
  read_iff : ∀ name body x, (∃ a ∈ A, name = a.tag ∧ a.read body = some x) ↔
    ∃ b ∈ B, name = b.tag ∧ b.read body = some (embed x)

theorem Within.accepts_iff {embed : α → β} {A : List (Alternative α)} {B : List (Alternative β)}
    (h : Within place embed A B) (j : Json) (x : α) :
    Accepts place A j x ↔ Accepts place B j (embed x) := by
  constructor
  · rintro ⟨a, ha, body, hparts, hx⟩
    obtain ⟨b, hb, htag, hread⟩ := (h.read_iff a.tag body x).1 ⟨a, ha, rfl, hx⟩
    refine ⟨b, hb, body, ?_, hread⟩
    rw [← htag]
    exact tagged_of_tag (fun head => (h.tag_iff a.tag (List.mem_map_of_mem ha) head).1) hparts
  · rintro ⟨b, hb, body, hparts, hread⟩
    obtain ⟨a, ha, htag, hx⟩ := (h.read_iff b.tag body x).2 ⟨b, hb, rfl, hread⟩
    refine ⟨a, ha, body, ?_, hx⟩
    rw [← htag]
    exact tagged_of_tag (fun head => (h.tag_iff b.tag (htag ▸ List.mem_map_of_mem ha) head).2) hparts

/-- Outside of tagged values the list of tags does not count. -/
theorem tag_outside (tags tags' : List String) (head : Json) :
    tag .outside tags head = tag .outside tags' head := by
  cases head <;> simp [tag]

/-- A tag keeps its number when other tags are put behind it. -/
theorem tag_append_iff {tags more : List String} {name : String} (hname : name ∉ more) (head : Json) :
    tag place tags head = some name ↔ tag place (tags ++ more) head = some name := by
  cases head with
  | int n =>
    have hget : tags[n.toNat]? = some name ↔ (tags ++ more)[n.toNat]? = some name := by
      rw [List.getElem?_append]
      split
      · rfl
      · rename_i hlen
        rw [List.getElem?_eq_none (Nat.le_of_not_lt hlen)]
        exact ⟨nofun, fun hmore => absurd (List.mem_of_getElem? hmore) hname⟩
    simp [tag, hget]
  | null | bool _ | real _ | str _ | arr _ | obj _ | unreadable => rfl

end Wire

/-! ## The alternatives of nodes -/

theorem Node.eq_conditional_of_readSection {body : Json} {n : Node} (h : readSection body = some n) :
    ∃ condition blocks, n = .conditional condition blocks := by
  unfold readSection at h
  obtain ⟨fields, -, h⟩ := Option.bind_eq_some_iff.1 h
  split at h
  · obtain ⟨condition, -, h⟩ := Option.bind_eq_some_iff.1 h
    obtain ⟨blocks, -, h⟩ := Option.bind_eq_some_iff.1 h
    exact ⟨condition, blocks, (Option.some.inj h).symm⟩
  · cases h

theorem ItemBlock.within_blocks (place : Wire.Place) :
    Wire.Within place Block.item alternatives Block.alternatives := by
  constructor
  · intro name hname head
    have hmore : ∀ name ∈ alternatives.map Wire.Alternative.tag,
        name ∉ ["orderedList", "bulletList", "orderedListPlaceholder", "bulletListPlaceholder"] := by decide
    exact Wire.tag_append_iff (hmore name hname) head
  · intro name body x
    simp [alternatives, Block.alternatives]

theorem Block.within_nodes : Wire.Within .outside Node.block alternatives Node.alternatives := by
  constructor
  · intro name _ head
    rw [Wire.tag_outside]
  · intro name body x
    have hsection : Node.readSection body ≠ some (.block x) := fun h => by
      obtain ⟨_, _, hx⟩ := Node.eq_conditional_of_readSection h
      cases hx
    simp [alternatives, Node.alternatives, hsection]

/-! ## The readers of nodes -/

def ItemBlock.tag : ItemBlock → String
  | .heading _ => "heading"
  | .paragraph _ => "paragraph"

def Block.tag : Block → String
  | .item b => b.tag
  | .list style _ => listTag style
  | .rows style _ => rowsTag style

def Node.tag : Node → String
  | .block b => b.tag
  | .conditional _ _ => "section"

/-- What an alternative reads is of its tag. -/
theorem Node.tag_of_read {a : Wire.Alternative Node} (ha : a ∈ alternatives) {body : Json} {n : Node}
    (h : a.read body = some n) : n.tag = a.tag := by
  simp only [alternatives, List.mem_cons, List.not_mem_nil, or_false] at ha
  rcases ha with rfl | rfl | rfl | rfl | rfl | rfl | rfl
  case inl =>
    obtain ⟨_, _, rfl⟩ := eq_conditional_of_readSection h
    rfl
  all_goals
    obtain ⟨_, -, rfl⟩ := Option.map_eq_some_iff.1 h
    rfl

theorem ItemBlock.ofJsonAt?_iff (place : Wire.Place) (j : Json) (b : ItemBlock) :
    ofJsonAt? place j = some b ↔ Wire.Accepts place alternatives j b :=
  Wire.oneOf_eq_some_iff (by decide) j b

theorem Block.ofJsonAt?_iff (place : Wire.Place) (j : Json) (b : Block) :
    ofJsonAt? place j = some b ↔ Wire.Accepts place alternatives j b :=
  Wire.oneOf_eq_some_iff (by decide) j b

theorem Node.ofJson?_iff (j : Json) (n : Node) :
    ofJson? j = some n ↔ Wire.Accepts .outside alternatives j n :=
  Wire.oneOf_eq_some_iff (by decide) j n

/-- An item block and the same block are one value. -/
theorem Block.ofJsonAt?_item (place : Wire.Place) (j : Json) (b : ItemBlock) :
    ItemBlock.ofJsonAt? place j = some b ↔ ofJsonAt? place j = some (.item b) := by
  rw [ItemBlock.ofJsonAt?_iff, ofJsonAt?_iff]
  exact (ItemBlock.within_blocks place).accepts_iff j b

/-- A block and the same node are one value. -/
theorem Node.ofJson?_block (j : Json) (b : Block) :
    Block.ofJson? j = some b ↔ ofJson? j = some (.block b) := by
  rw [Block.ofJson?, Block.ofJsonAt?_iff, ofJson?_iff]
  exact Block.within_nodes.accepts_iff j b

/-- **The node languages are nested and agree.** Each of them accepts what its alternatives read, and reads a
node of the tag that the value carries. What may stand in an item is accepted as the same block, and a
heading or a paragraph that is accepted as a block may stand in an item; what may stand in a section is
accepted as the same node, and a node that is no section may stand in a section. -/
theorem Node.languages_nested (j : Json) :
    (∀ place b, ItemBlock.ofJsonAt? place j = some b ↔ Wire.Accepts place ItemBlock.alternatives j b) ∧
    (∀ place b, Block.ofJsonAt? place j = some b ↔ Wire.Accepts place Block.alternatives j b) ∧
    (∀ n, ofJson? j = some n ↔ Wire.Accepts .outside alternatives j n) ∧
    (∀ n, ofJson? j = some n →
      ∃ body, Wire.tagged .outside (alternatives.map Wire.Alternative.tag) j = some (n.tag, body)) ∧
    (∀ place b, ItemBlock.ofJsonAt? place j = some b ↔ Block.ofJsonAt? place j = some (.item b)) ∧
    ∀ b, Block.ofJson? j = some b ↔ ofJson? j = some (.block b) := by
  refine ⟨fun place => ItemBlock.ofJsonAt?_iff place j, fun place => Block.ofJsonAt?_iff place j, ofJson?_iff j,
    fun n hn => ?_, fun place => Block.ofJsonAt?_item place j, ofJson?_block j⟩
  obtain ⟨a, ha, body, hparts, hread⟩ := (ofJson?_iff j n).1 hn
  rw [tag_of_read ha hread]
  exact ⟨body, hparts⟩

/-- A heading as an array, without the fields that may be left out. -/
theorem Node.languages_nested_heading :
    let j := Json.arr [.str "heading", .arr [.int 2]]
    let h : Heading := ⟨2, none, []⟩
    ItemBlock.ofJson? j = some (.heading h) ∧ Block.ofJson? j = some (.item (.heading h)) ∧
      ofJson? j = some (.block (.item (.heading h))) ∧
      ∃ body, Wire.tagged .outside (alternatives.map Wire.Alternative.tag) j = some ("heading", body) := by
  intro j h
  have hitem : ItemBlock.ofJson? j = some (.heading h) := rfl
  obtain ⟨-, -, -, htag, hblock, hnode⟩ := languages_nested j
  have hj : ofJson? j = some (.block (.item (.heading h))) := (hnode _).1 ((hblock .outside _).1 hitem)
  exact ⟨hitem, (hblock .outside _).1 hitem, hj, htag _ hj⟩

end FormPress
