/-!
# Text

Text as a list of characters: the blanks around it, the parts it is cut into, the numerals in it.
Trimming takes blanks off and nothing else (`trim_eq`, `trim_append`). Cutting at a separator gives
parts that make up the text again, and a text put together from parts is cut into them again. A cut
behind a number of bytes may fall inside a character (`cutBytes_eq_none_iff`).

| here | there |
| --- | --- |
| `trim`, `isBlank` | `trim`, with which `parse_datetime` begins, and the property White_Space |
| `cutFirst` | `find` in `parse_datetime`, `split_once` in `parse_time` and `split_offset` |
| `cutLast` | `rfind` in `split_offset` |
| `cutAll` | `split` in `parse_date` and `parse_time` |
| `cutBytes`, `byteLength` | `split_at` and `len` in `split_offset` |
-/
namespace FormPress.Text

/-! ## Blank characters -/

/-- The code points with the property White_Space: 25 of them, in ten runs. -/
def blankRuns : List (Nat × Nat) :=
  [(0x9, 0xD), (0x20, 0x20), (0x85, 0x85), (0xA0, 0xA0), (0x1680, 0x1680), (0x2000, 0x200A),
    (0x2028, 0x2029), (0x202F, 0x202F), (0x205F, 0x205F), (0x3000, 0x3000)]

def isBlank (c : Char) : Bool :=
  blankRuns.any fun run => run.1 ≤ c.toNat && c.toNat ≤ run.2

/-- The text without the blanks at its end. -/
def trimEnd (cs : List Char) : List Char := (cs.reverse.dropWhile isBlank).reverse

/-- The text without the blanks at either end. -/
def trim (cs : List Char) : List Char := trimEnd (cs.dropWhile isBlank)

theorem exists_trimEnd (cs : List Char) :
    ∃ after, cs = trimEnd cs ++ after ∧ ∀ c ∈ after, isBlank c = true := by
  refine ⟨(cs.reverse.takeWhile isBlank).reverse, ?_, fun c hc => ?_⟩
  · rw [trimEnd, ← List.reverse_append, List.takeWhile_append_dropWhile, List.reverse_reverse]
  · exact List.all_eq_true.1 List.all_takeWhile c (List.mem_reverse.1 hc)

/-- What is trimmed off is blank. -/
theorem trim_eq (cs : List Char) :
    ∃ before after, cs = before ++ (trim cs ++ after) ∧ (∀ c ∈ before, isBlank c = true) ∧
      ∀ c ∈ after, isBlank c = true := by
  obtain ⟨after, hafter, hblank⟩ := exists_trimEnd (cs.dropWhile isBlank)
  refine ⟨cs.takeWhile isBlank, after, ?_, List.all_eq_true.1 List.all_takeWhile, hblank⟩
  rw [trim, ← hafter, List.takeWhile_append_dropWhile]

theorem dropWhile_append_self (cs rest : List Char) (hne : cs ≠ [])
    (h : ∀ c ∈ cs.head?, isBlank c = false) : (cs ++ rest).dropWhile isBlank = cs ++ rest := by
  cases cs with
  | nil => exact absurd rfl hne
  | cons c cs => simp [h c (by simp)]

/-- Blanks around a text that begins and ends without one are trimmed off, and nothing else. -/
theorem trim_append {before cs after : List Char} (hbefore : ∀ c ∈ before, isBlank c = true)
    (hafter : ∀ c ∈ after, isBlank c = true) (hne : cs ≠ [])
    (hhead : ∀ c ∈ cs.head?, isBlank c = false) (hlast : ∀ c ∈ cs.getLast?, isBlank c = false) :
    trim (before ++ (cs ++ after)) = cs := by
  have hrev : (after.reverse ++ cs.reverse).dropWhile isBlank = cs.reverse := by
    rw [List.dropWhile_append_of_pos (by simpa using hafter)]
    have hself := dropWhile_append_self cs.reverse [] (by simpa using hne) (by simpa using hlast)
    rwa [List.append_nil] at hself
  rw [trim, List.dropWhile_append_of_pos hbefore, dropWhile_append_self cs after hne hhead, trimEnd,
    List.reverse_append, hrev, List.reverse_reverse]

theorem trim_self {cs : List Char} (hne : cs ≠ []) (hhead : ∀ c ∈ cs.head?, isBlank c = false)
    (hlast : ∀ c ∈ cs.getLast?, isBlank c = false) : trim cs = cs := by
  have hnil : ∀ c ∈ ([] : List Char), isBlank c = true := by simp
  simpa using trim_append hnil hnil hne hhead hlast

/-! ## Cutting text -/

/-- Cuts at the first character of a class: the text before it and, if there is one, the text
after it. -/
def cutFirst (p : Char → Bool) : List Char → List Char × Option (List Char)
  | [] => ([], none)
  | c :: cs =>
    if p c then ([], some cs)
    else
      let (before, after) := cutFirst p cs
      (c :: before, after)

/-- Cuts at the last character of a class: the text before it, the character, the text after. -/
def cutLast (p : Char → Bool) : List Char → Option (List Char × Char × List Char)
  | [] => none
  | c :: cs =>
    match cutLast p cs with
    | some (before, sep, after) => some (c :: before, sep, after)
    | none => if p c then some ([], c, cs) else none

/-- Cuts at every occurrence of a character: one part more than there are occurrences. -/
def cutAll (sep : Char) : List Char → List (List Char)
  | [] => [[]]
  | c :: cs =>
    if c = sep then [] :: cutAll sep cs
    else
      match cutAll sep cs with
      | [] => [[c]]
      | part :: parts => (c :: part) :: parts

/-- Cuts after a number of UTF-8 bytes; `none` if the cut falls inside a character or behind the
end. -/
def cutBytes : Nat → List Char → Option (List Char × List Char)
  | 0, cs => some ([], cs)
  | _, [] => none
  | n, c :: cs =>
    if c.utf8Size ≤ n then (cutBytes (n - c.utf8Size) cs).map fun (a, b) => (c :: a, b) else none

/-- How many bytes the text takes in UTF-8. -/
def byteLength : List Char → Nat
  | [] => 0
  | c :: cs => c.utf8Size + byteLength cs

theorem cutFirst_eq (p : Char → Bool) (cs : List Char) :
    match cutFirst p cs with
    | (before, none) => cs = before ∧ ∀ c ∈ cs, p c = false
    | (before, some after) =>
      ∃ sep, p sep = true ∧ cs = before ++ sep :: after ∧ ∀ c ∈ before, p c = false := by
  induction cs with
  | nil => simp [cutFirst]
  | cons c cs ih =>
    by_cases hc : p c
    · simp only [cutFirst, hc, if_true]
      exact ⟨c, hc, by simp, by simp⟩
    · simp only [cutFirst, hc, Bool.false_eq_true, if_false]
      revert ih
      rcases cutFirst p cs with ⟨before, _ | after⟩
      · rintro ⟨rfl, h⟩
        exact ⟨rfl, by simp_all⟩
      · rintro ⟨sep, hsep, rfl, h⟩
        exact ⟨sep, hsep, rfl, by simp_all⟩

theorem cutLast_eq (p : Char → Bool) (cs : List Char) :
    match cutLast p cs with
    | none => ∀ c ∈ cs, p c = false
    | some (before, sep, after) =>
      p sep = true ∧ cs = before ++ sep :: after ∧ ∀ c ∈ after, p c = false := by
  induction cs with
  | nil => simp [cutLast]
  | cons c cs ih =>
    simp only [cutLast]
    revert ih
    rcases cutLast p cs with _ | ⟨before, sep, after⟩
    · intro h
      by_cases hc : p c
      · simpa [hc] using h
      · simpa [hc] using h
    · rintro ⟨hsep, rfl, h⟩
      exact ⟨hsep, rfl, h⟩

theorem cutFirst_append {p : Char → Bool} {before after : List Char} {sep : Char}
    (hbefore : ∀ c ∈ before, p c = false) (hsep : p sep = true) :
    cutFirst p (before ++ sep :: after) = (before, some after) := by
  induction before with
  | nil => simp [cutFirst, hsep]
  | cons c cs ih =>
    have hcs := ih fun d hd => hbefore d (by simp [hd])
    simp [cutFirst, hbefore c (by simp), hcs]

theorem cutFirst_of_forall {p : Char → Bool} {cs : List Char} (h : ∀ c ∈ cs, p c = false) :
    cutFirst p cs = (cs, none) := by
  induction cs with
  | nil => rfl
  | cons c cs ih =>
    have hcs := ih fun d hd => h d (by simp [hd])
    simp [cutFirst, h c (by simp), hcs]

theorem cutLast_of_forall {p : Char → Bool} {cs : List Char} (h : ∀ c ∈ cs, p c = false) :
    cutLast p cs = none := by
  induction cs with
  | nil => rfl
  | cons c cs ih =>
    have hcs := ih fun d hd => h d (by simp [hd])
    simp [cutLast, h c (by simp), hcs]

theorem cutLast_append {p : Char → Bool} {before after : List Char} {sep : Char}
    (hsep : p sep = true) (hafter : ∀ c ∈ after, p c = false) :
    cutLast p (before ++ sep :: after) = some (before, sep, after) := by
  induction before with
  | nil => simp [cutLast, cutLast_of_forall hafter, hsep]
  | cons c cs ih => simp [cutLast, ih]

/-! ### Cutting everywhere -/

theorem cutAll_eq_splitOn (sep : Char) (cs : List Char) : cutAll sep cs = cs.splitOn sep := by
  induction cs with
  | nil => rfl
  | cons c cs ih =>
    rw [cutAll, ih, List.splitOn_cons_eq_if_modifyHead]
    by_cases hc : c = sep
    · simp [hc]
    · have hne := List.splitOn_ne_nil sep cs
      cases h : cs.splitOn sep with
      | nil => exact absurd h hne
      | cons part parts => simp [hc]

theorem intercalate_cutAll (sep : Char) (cs : List Char) : [sep].intercalate (cutAll sep cs) = cs := by
  rw [cutAll_eq_splitOn, List.intercalate_splitOn]

theorem eq_of_cutAll_pair {sep : Char} {cs a b : List Char} (h : cutAll sep cs = [a, b]) :
    cs = a ++ sep :: b := by
  rw [← intercalate_cutAll sep cs, h]
  simp [List.intercalate]

theorem eq_of_cutAll_triple {sep : Char} {cs a b c : List Char} (h : cutAll sep cs = [a, b, c]) :
    cs = a ++ sep :: (b ++ sep :: c) := by
  rw [← intercalate_cutAll sep cs, h]
  simp [List.intercalate]

theorem cutAll_of_notMem {sep : Char} {cs : List Char} (h : sep ∉ cs) : cutAll sep cs = [cs] := by
  rw [cutAll_eq_splitOn, List.splitOn_eq_singleton h]

theorem cutAll_append {sep : Char} {part : List Char} (h : sep ∉ part) (cs : List Char) :
    cutAll sep (part ++ sep :: cs) = part :: cutAll sep cs := by
  simp [cutAll_eq_splitOn, List.splitOn_append_cons_self, List.splitOn_eq_singleton h]

/-! ### Cutting by bytes -/

theorem byteLength_append (cs ds : List Char) :
    byteLength (cs ++ ds) = byteLength cs + byteLength ds := by
  induction cs with
  | nil => simp [byteLength]
  | cons c cs ih => rw [List.cons_append, byteLength, byteLength, ih, Nat.add_assoc]

theorem cutBytes_append (before after : List Char) :
    cutBytes (byteLength before) (before ++ after) = some (before, after) := by
  induction before with
  | nil => cases after <;> rfl
  | cons c cs ih =>
    have hpos : 0 < c.utf8Size := c.utf8Size_pos
    obtain ⟨n, hn⟩ : ∃ n, c.utf8Size + byteLength cs = n + 1 := ⟨c.utf8Size + byteLength cs - 1, by omega⟩
    have hle : c.utf8Size ≤ n + 1 := by omega
    have hrest : n + 1 - c.utf8Size = byteLength cs := by omega
    simp [byteLength, hn, cutBytes, hle, hrest, ih]

/-- A text is cut behind a number of bytes where a part of it has so many. -/
theorem cutBytes_eq_some_iff {n : Nat} {cs before after : List Char} :
    cutBytes n cs = some (before, after) ↔ cs = before ++ after ∧ byteLength before = n := by
  constructor
  · intro h
    induction n, cs using cutBytes.induct generalizing before with
    | case1 cs =>
      simp only [cutBytes, Option.some.injEq, Prod.mk.injEq] at h
      obtain ⟨rfl, rfl⟩ := h
      exact ⟨rfl, rfl⟩
    | case2 n hn => simp [cutBytes] at h
    | case3 n hn c cs hc ih =>
      simp only [cutBytes, hc, if_true, Option.map_eq_some_iff, Prod.exists, Prod.mk.injEq] at h
      obtain ⟨before', after', h', rfl, rfl⟩ := h
      obtain ⟨rfl, hlen⟩ := ih h'
      exact ⟨rfl, by rw [byteLength, hlen]; omega⟩
    | case4 n hn c cs hc => simp [cutBytes, hc] at h
  · rintro ⟨rfl, rfl⟩
    exact cutBytes_append before after

theorem cutBytes_eq_none_iff {n : Nat} {cs : List Char} :
    cutBytes n cs = none ↔ ∀ before after, cs = before ++ after → byteLength before ≠ n := by
  constructor
  · intro h before after hcs hlen
    rw [cutBytes_eq_some_iff.2 ⟨hcs, hlen⟩] at h
    cases h
  · intro h
    cases hcut : cutBytes n cs with
    | none => rfl
    | some parts =>
      obtain ⟨hcs, hlen⟩ := cutBytes_eq_some_iff.1 hcut
      exact absurd hlen (h _ _ hcs)

/-- Text of ASCII characters takes a byte for each of them. -/
theorem byteLength_of_ascii {cs : List Char} (h : ∀ c ∈ cs, c.utf8Size = 1) :
    byteLength cs = cs.length := by
  induction cs with
  | nil => rfl
  | cons c cs ih =>
    rw [byteLength, h c (by simp), ih fun d hd => h d (by simp [hd]), List.length_cons, Nat.add_comm]

end FormPress.Text
