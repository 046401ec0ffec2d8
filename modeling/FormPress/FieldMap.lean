/-!
# Field maps

Data, columns and labels are all keyed by field id. A field map keeps its entries in strictly
increasing order of id, so no id occurs twice and a map has one representation: maps that answer
every lookup alike are equal (`ext_get?`).

| here | there |
| --- | --- |
| `FieldMap` | the ordered maps behind `Data`, `SubData`, `Columns`, `Submission` and the labels of choices |
| `FieldMap.get?`, `FieldMap.insert` | `get`, `insert` |
| `FieldMap.ofList` | `from_iter`, and how a map is read field by field |
| `FieldMap.filterMap` | the loops of `reconcile_row` and `reconcile_submission` |
-/
namespace FormPress

/-- A finite map from field ids: its entries stand in strictly increasing order of id. -/
structure FieldMap (α : Type) where
  entries : List (String × α)
  increasing : entries.Pairwise (fun a b => a.1 < b.1)
  deriving DecidableEq

namespace FieldMap

variable {α β : Type}

/-- The map without entries. -/
def empty : FieldMap α := ⟨[], .nil⟩

instance : Inhabited (FieldMap α) := ⟨empty⟩

def size (m : FieldMap α) : Nat := m.entries.length

def isEmpty (m : FieldMap α) : Bool := m.entries.isEmpty

/-- The value of the first entry with an id. -/
def lookupEntry (id : String) : List (String × α) → Option α
  | [] => none
  | (k, v) :: rest => if id = k then some v else lookupEntry id rest

/-- The value under an id. -/
def get? (m : FieldMap α) (id : String) : Option α := lookupEntry id m.entries

/-! ## Insertion -/

/-- Puts an entry where its id belongs; an entry of that id gives way to it. -/
def insertEntry (id : String) (a : α) : List (String × α) → List (String × α)
  | [] => [(id, a)]
  | (k, v) :: rest =>
    if id < k then (id, a) :: (k, v) :: rest
    else if k < id then (k, v) :: insertEntry id a rest
    else (id, a) :: rest

theorem mem_insertEntry {id : String} {a : α} {x : String × α} {l : List (String × α)}
    (h : x ∈ insertEntry id a l) : x = (id, a) ∨ x ∈ l := by
  induction l with
  | nil => simpa [insertEntry] using h
  | cons e rest ih =>
    obtain ⟨k, v⟩ := e
    simp only [insertEntry] at h
    split at h
    · simpa using h
    · split at h
      · rcases List.mem_cons.1 h with h | h
        · exact .inr (by simp [h])
        · exact (ih h).imp_right (List.mem_cons_of_mem _)
      · exact (List.mem_cons.1 h).imp_right (List.mem_cons_of_mem _)

theorem insertEntry_increasing (id : String) (a : α) {l : List (String × α)}
    (h : l.Pairwise (fun a b => a.1 < b.1)) :
    (insertEntry id a l).Pairwise (fun a b => a.1 < b.1) := by
  induction l with
  | nil => simp [insertEntry]
  | cons e rest ih =>
    obtain ⟨k, v⟩ := e
    obtain ⟨hk, hr⟩ := List.pairwise_cons.1 h
    simp only [insertEntry]
    split
    · rename_i hlt
      refine List.pairwise_cons.2 ⟨fun x hx => ?_, h⟩
      rcases List.mem_cons.1 hx with rfl | hx
      · exact hlt
      · exact String.lt_trans hlt (hk x hx)
    · split
      · rename_i hgt
        refine List.pairwise_cons.2 ⟨fun x hx => ?_, ih hr⟩
        rcases mem_insertEntry hx with rfl | hx
        · exact hgt
        · exact hk x hx
      · rename_i h₁ h₂
        have : id = k := String.le_antisymm (String.not_lt.1 h₂) (String.not_lt.1 h₁)
        subst this
        exact List.pairwise_cons.2 ⟨hk, hr⟩

/-- The map with `a` under `id`. -/
def insert (m : FieldMap α) (id : String) (a : α) : FieldMap α :=
  ⟨insertEntry id a m.entries, insertEntry_increasing id a m.increasing⟩

/-- The map of a list of entries; of several entries with one id the last counts. -/
def ofList (l : List (String × α)) : FieldMap α :=
  l.foldl (fun m e => m.insert e.1 e.2) empty

theorem insertEntry_last {l : List (String × α)} {id : String} (h : ∀ e ∈ l, e.1 < id) (a : α) :
    insertEntry id a l = l ++ [(id, a)] := by
  induction l with
  | nil => rfl
  | cons e l ih =>
    have hlt : e.1 < id := h e (by simp)
    rw [insertEntry, if_neg (String.lt_asymm hlt), if_pos hlt, ih fun e' he' => h e' (by simp [he'])]
    rfl

theorem entries_foldl_insert (l : List (String × α)) (m : FieldMap α)
    (h : (m.entries ++ l).Pairwise (fun a b => a.1 < b.1)) :
    (l.foldl (fun m e => m.insert e.1 e.2) m).entries = m.entries ++ l := by
  induction l generalizing m with
  | nil => simp
  | cons e l ih =>
    have hlast : (m.insert e.1 e.2).entries = m.entries ++ [e] :=
      insertEntry_last (fun e' he' => (List.pairwise_append.1 h).2.2 e' he' e (by simp)) e.2
    rw [List.foldl_cons, ih _ (by simpa [hlast] using h), hlast, List.append_assoc]
    rfl

/-- A map is the map of its entries. -/
theorem ofList_entries (m : FieldMap α) : ofList m.entries = m := by
  have h := entries_foldl_insert m.entries empty (by simpa [empty] using m.increasing)
  have hentries : (ofList m.entries).entries = m.entries := by simpa [ofList, empty] using h
  cases hm : ofList m.entries
  cases m
  simp_all

/-! ## Filtering -/

/-- Gives every entry a new value or drops it. -/
def filterMap (f : String → α → Option β) (m : FieldMap α) : FieldMap β :=
  ⟨m.entries.filterMap (fun e => (f e.1 e.2).map (e.1, ·)),
    m.increasing.filterMap _ (fun a a' h b hb b' hb' => by
      obtain ⟨_, _, rfl⟩ := Option.map_eq_some_iff.1 hb
      obtain ⟨_, _, rfl⟩ := Option.map_eq_some_iff.1 hb'
      exact h)⟩

/-! ## Lookups -/

@[simp] theorem get?_empty (id : String) : (empty : FieldMap α).get? id = none := rfl

theorem lookup_insertEntry (id k : String) (a : α) {l : List (String × α)} :
    lookupEntry k (insertEntry id a l) = if k = id then some a else lookupEntry k l := by
  induction l with
  | nil => rfl
  | cons e rest ih =>
    obtain ⟨k', v⟩ := e
    simp only [insertEntry]
    split
    · rfl
    · split
      · rename_i hgt
        simp only [lookupEntry, ih]
        by_cases hk : k = k'
        · subst hk
          have : k ≠ id := fun hk => String.lt_irrefl _ (hk ▸ hgt)
          simp [this]
        · simp [hk]
      · rename_i h₁ h₂
        have : id = k' := String.le_antisymm (String.not_lt.1 h₂) (String.not_lt.1 h₁)
        subst this
        by_cases hk : k = id <;> simp [lookupEntry, hk]

theorem get?_insert (m : FieldMap α) (id k : String) (a : α) :
    (m.insert id a).get? k = if k = id then some a else m.get? k :=
  lookup_insertEntry id k a

theorem lookup_eq_some_iff {l : List (String × α)}
    (h : l.Pairwise (fun a b => a.1 < b.1)) {id : String} {a : α} :
    lookupEntry id l = some a ↔ (id, a) ∈ l := by
  induction l with
  | nil => simp [lookupEntry]
  | cons e rest ih =>
    obtain ⟨k, v⟩ := e
    obtain ⟨hk, hr⟩ := List.pairwise_cons.1 h
    simp only [lookupEntry]
    by_cases heq : id = k
    · subst heq
      have : (id, a) ∉ rest := fun hm => String.lt_irrefl _ (hk (id, a) hm)
      simp [this, eq_comm]
    · simp [heq, ih hr]

/-- A lookup finds exactly the entries. -/
theorem get?_eq_some_iff (m : FieldMap α) {id : String} {a : α} :
    m.get? id = some a ↔ (id, a) ∈ m.entries :=
  lookup_eq_some_iff m.increasing

theorem get?_filterMap (f : String → α → Option β) (m : FieldMap α) (id : String) :
    (m.filterMap f).get? id = (m.get? id).bind (f id) := by
  ext b
  rw [get?_eq_some_iff]
  simp only [filterMap, List.mem_filterMap, Option.map_eq_some_iff, Option.bind_eq_some_iff]
  constructor
  · rintro ⟨⟨k, v⟩, hmem, b', hb, heq⟩
    obtain ⟨rfl, rfl⟩ := Prod.mk.inj heq
    exact ⟨v, m.get?_eq_some_iff.2 hmem, hb⟩
  · rintro ⟨v, hv, hb⟩
    exact ⟨(id, v), m.get?_eq_some_iff.1 hv, b, hb, rfl⟩

theorem eq_of_mem_iff {l l' : List (String × α)}
    (h : l.Pairwise (fun a b => a.1 < b.1)) (h' : l'.Pairwise (fun a b => a.1 < b.1))
    (hmem : ∀ x, x ∈ l ↔ x ∈ l') : l = l' := by
  induction l generalizing l' with
  | nil =>
    cases l' with
    | nil => rfl
    | cons x _ => exact absurd ((hmem x).2 (by simp)) (by simp)
  | cons x rest ih =>
    cases l' with
    | nil => exact absurd ((hmem x).1 (by simp)) (by simp)
    | cons y rest' =>
      obtain ⟨hx, hr⟩ := List.pairwise_cons.1 h
      obtain ⟨hy, hr'⟩ := List.pairwise_cons.1 h'
      have hxy : x = y := by
        rcases List.mem_cons.1 ((hmem x).1 (by simp)) with hxy | hxm
        · exact hxy
        rcases List.mem_cons.1 ((hmem y).2 (by simp)) with hyx | hym
        · exact hyx.symm
        exact absurd (hx y hym) (String.lt_asymm (hy x hxm))
      subst hxy
      have : rest = rest' := ih hr hr' fun z => by
        constructor
        · intro hz
          rcases List.mem_cons.1 ((hmem z).1 (List.mem_cons_of_mem _ hz)) with rfl | hz'
          · exact absurd (hx _ hz) (String.lt_irrefl _)
          · exact hz'
        · intro hz
          rcases List.mem_cons.1 ((hmem z).2 (List.mem_cons_of_mem _ hz)) with rfl | hz'
          · exact absurd (hy _ hz) (String.lt_irrefl _)
          · exact hz'
      rw [this]

/-- Maps that answer every lookup alike are equal. -/
theorem ext_get? {m m' : FieldMap α} (h : ∀ id, m.get? id = m'.get? id) : m = m' := by
  have : m.entries = m'.entries := eq_of_mem_iff m.increasing m'.increasing fun ⟨id, a⟩ => by
    rw [← m.get?_eq_some_iff, ← m'.get?_eq_some_iff, h]
  cases m; cases m'; simp_all

end FieldMap

end FormPress
