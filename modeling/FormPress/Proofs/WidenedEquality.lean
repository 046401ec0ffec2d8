import FormPress.Proofs.Chronology
import FormPress.Proofs.History
import FormPress.Proofs.Infallible
import FormPress.Proofs.Literals
import FormPress.Proofs.Spelling
/-!
# Equality of widened values

A number widens to its canonical numeral (`Text.canonical_iff`) and a boolean to one of two words, so values
that differ still differ once they are text, and equality says of the texts what it said of the values
(`Operator.between_cast`). A condition that asks for nothing else can be moved to text as a whole, with the
values of its fields: it comes out as it did before (`Condition.evaluate_inText`).
-/
namespace FormPress

/-! ## Canonical numerals -/

namespace Text

/-- Digits, of which the first is not zero. -/
structure IsPositive (cs : List Char) : Prop where
  isDigit : ∀ c ∈ cs, c.isDigit = true
  head : ∃ c ∈ cs.head?, c ≠ '0'

/-- The decimal text of a whole number: a minus sign stands before negative numbers only, and a zero
before no other digit. -/
inductive Canonical : List Char → Int → Prop
  | zero : Canonical ['0'] 0
  | positive {cs : List Char} (h : IsPositive cs) : Canonical cs (readNumeral cs)
  | negative {cs : List Char} (h : IsPositive cs) : Canonical ('-' :: cs) (-readNumeral cs)

/-- Reads digits, or digits behind a minus sign. -/
def readInteger? : List Char → Option Int
  | '-' :: ds => if isNumeral 1 ds.length ds then some (-readNumeral ds) else none
  | ds => if isNumeral 1 ds.length ds then some (readNumeral ds) else none

/-- The digit of a number below ten is found again from the number. -/
theorem digitChar_of_isDigit {c : Char} (h : c.isDigit = true) :
    c.toNat - '0'.toNat < 10 ∧ (c.toNat - '0'.toNat).digitChar = c := by
  have hc := Spelling.toNat_of_isDigit h
  have hzero : '0'.toNat = 48 := rfl
  have hlt : c.toNat - '0'.toNat < 10 := by omega
  refine ⟨hlt, ?_⟩
  rw [← Char.toNat_inj, Nat.toNat_digitChar_of_lt_ten hlt]
  omega

/-- Digits behind the numeral of a positive number go on with it as one numeral. -/
theorem numeral_append {n : Nat} (hn : 0 < n) {cs : List Char} (h : ∀ c ∈ cs, c.isDigit = true) :
    numeral n ++ cs = numeral (Nat.ofDigitChars 10 cs n) := by
  induction cs generalizing n with
  | nil => exact List.append_nil _
  | cons c cs ih =>
    obtain ⟨hlt, hchar⟩ := digitChar_of_isDigit (h c (by simp))
    have hstep : numeral n ++ [c] = numeral (10 * n + (c.toNat - '0'.toNat)) := by
      have happend := Nat.toDigits_append_toDigits (b := 10) (by decide) hn hlt
      rwa [Nat.toDigits_of_lt_base hlt, hchar] at happend
    have hcs := ih (n := 10 * n + (c.toNat - '0'.toNat)) (by omega) fun d hd => h d (by simp [hd])
    rw [Nat.ofDigitChars_cons, ← hcs, ← hstep, List.append_assoc, List.singleton_append]

namespace IsPositive

variable {cs : List Char}

/-- The digits of a positive number are its numeral. -/
theorem exists_numeral (h : IsPositive cs) : ∃ n, 0 < n ∧ cs = numeral n := by
  obtain ⟨c, hc, hne⟩ := h.head
  obtain ⟨cs, rfl⟩ := List.head?_eq_some_iff.1 hc
  obtain ⟨hlt, hchar⟩ := digitChar_of_isDigit (h.isDigit c (by simp))
  have hpos : 0 < c.toNat - '0'.toNat := by
    rcases Nat.eq_zero_or_pos (c.toNat - '0'.toNat) with hzero | hpos
    · rw [hzero] at hchar
      exact absurd hchar.symm hne
    · exact hpos
  have hdigits : ∀ d ∈ cs, d.isDigit = true := fun d hd => h.isDigit d (by simp [hd])
  have hcs := numeral_append hpos hdigits
  rw [numeral, Nat.toDigits_of_lt_base hlt, hchar, List.singleton_append] at hcs
  exact ⟨_, hpos.trans_le (le_ofDigitChars cs _), hcs⟩

theorem numeral {n : Nat} (hn : 0 < n) : IsPositive (Text.numeral n) := by
  refine ⟨fun c hc => isDigit_of_mem_numeral hc, ?_⟩
  obtain ⟨c, cs, hcs⟩ := List.exists_cons_of_ne_nil (numeral_ne_nil n)
  have hhead := head?_numeral_ne_zero hn
  rw [hcs] at hhead ⊢
  exact ⟨c, rfl, fun hc => hhead (congrArg some hc)⟩

end IsPositive

/-- Every whole number has one canonical text, the numeral. -/
theorem canonical_iff {cs : List Char} {n : Int} : Canonical cs n ↔ cs = signedNumeral n := by
  constructor
  · intro h
    cases h with
    | zero => rfl
    | positive h =>
      obtain ⟨m, -, rfl⟩ := h.exists_numeral
      rw [readNumeral_numeral]
      rfl
    | negative h =>
      obtain ⟨m, hm, rfl⟩ := h.exists_numeral
      obtain ⟨m, rfl⟩ := Nat.exists_eq_add_one_of_ne_zero hm.ne'
      rw [readNumeral_numeral]
      rfl
  · rintro rfl
    cases n with
    | ofNat n =>
      rcases Nat.eq_zero_or_pos n with rfl | hn
      · exact .zero
      · simpa [signedNumeral, readNumeral_numeral] using Canonical.positive (.numeral hn)
    | negSucc n =>
      simpa [signedNumeral, readNumeral_numeral, Int.negSucc_eq] using
        Canonical.negative (.numeral n.succ_pos)

theorem readInteger?_signedNumeral (n : Int) : readInteger? (signedNumeral n) = some n := by
  have hnumeral (m : Nat) : isNumeral 1 (numeral m).length (numeral m) = true := by
    have hall : ∀ c ∈ numeral m, c.isDigit = true := fun _ => isDigit_of_mem_numeral
    have hlen : 1 ≤ (numeral m).length := Nat.length_toDigits_pos
    simpa [isNumeral, hlen] using hall
  cases n with
  | ofNat n =>
    -- No digit is a minus sign.
    have hsign : ∀ ds, numeral n = '-' :: ds → False := fun ds hds =>
      notMem_numeral (c := '-') rfl n (by simp [hds])
    rw [signedNumeral, readInteger?.eq_2 _ hsign, if_pos (hnumeral n), readNumeral_numeral]
    rfl
  | negSucc n =>
    rw [signedNumeral, readInteger?, if_pos (hnumeral (n + 1)), readNumeral_numeral]
    rfl

theorem signedNumeral_inj {m n : Int} : signedNumeral m = signedNumeral n ↔ m = n := by
  refine ⟨fun h => ?_, congrArg _⟩
  apply Option.some.inj
  rw [← readInteger?_signedNumeral, h, readInteger?_signedNumeral]

end Text

/-! ## Casts -/

theorem numberWord_inj {m n : Int64} : numberWord m = numberWord n ↔ m = n := by
  rw [numberWord, numberWord, String.ofList_inj, Text.signedNumeral_inj, Int64.toInt_inj]

theorem booleanWord_inj {a b : Bool} : booleanWord a = booleanWord b ↔ a = b := by
  revert a b
  decide

namespace Value

variable {v w v' w' : Value} {k : Kind}

theorem widen?_inj {s s' : String} (hkind : v.kind = w.kind) (hv : v.widen? = some s)
    (hw : w.widen? = some s') : s = s' ↔ v = w := by
  cases v with
  | number m =>
    cases w <;> cases hkind
    cases hv
    cases hw
    rw [numberWord_inj, number.injEq]
  | boolean a =>
    cases w <;> cases hkind
    cases hv
    cases hw
    rw [booleanWord_inj, boolean.injEq]
  | text _ | date _ | datetime _ | choice _ | choiceList _ | file _ => cases hv

/-- Two values of one kind both stay as they are, or both widen. -/
theorem cast_both (hkind : v.kind = w.kind) (hv : v.cast k = some v') (hw : w.cast k = some w') :
    (v' = v ∧ w' = w) ∨
      ∃ s s', v.widen? = some s ∧ w.widen? = some s' ∧ v' = .text s ∧ w' = .text s' := by
  have hkept {v w : Value} (hv : v.kind = w.kind) (ht : w.kind = .text) {s : String} :
      v.widen? ≠ some s := fun hs => by
    rcases exists_widen?_iff.1 ⟨s, hs⟩ with h | h <;> rw [hv, ht] at h <;> cases h
  rcases cast_eq_some_iff.1 hv with ⟨hkv, rfl⟩ | ⟨rfl, s, hs, rfl⟩
  · rcases cast_eq_some_iff.1 hw with ⟨-, rfl⟩ | ⟨rfl, s', hs', -⟩
    · exact .inl ⟨rfl, rfl⟩
    · exact absurd hs' (hkept hkind.symm hkv.symm)
  · rcases cast_eq_some_iff.1 hw with ⟨hkw, -⟩ | ⟨-, s', hs', rfl⟩
    · exact absurd hs (hkept hkind hkw.symm)
    · exact .inr ⟨s, s', hs, hs', rfl, rfl⟩

/-- Values of one kind that differ are still different after a cast. -/
theorem cast_inj (hkind : v.kind = w.kind) (hv : v.cast k = some v') (hw : w.cast k = some w') :
    v' = w' ↔ v = w := by
  rcases cast_both hkind hv hw with ⟨rfl, rfl⟩ | ⟨s, s', hs, hs', rfl, rfl⟩
  · rfl
  · rw [text.injEq, widen?_inj hkind hs hs']

end Value

/-! ## Equality -/

namespace Operator

variable {op : Operator} {v w v' w' : Value} {k : Kind}

/-- Apart from date-times, `eq` and `ne` ask whether two values of one kind are the same value. -/
theorem between_of_equality (hop : op = .eq ∨ op = .ne) (hkind : v.kind = w.kind)
    (hdatetime : v.kind ≠ .datetime) :
    op.between (some v) w = .ok (if v = w then op == .eq else op == .ne) := by
  rw [between, if_pos hkind]
  by_cases hnumber : v.kind = .number
  · cases v <;> cases hnumber
    cases w <;> cases hkind
    rename_i m n
    rw [betweenAlike, holds_compare]
    by_cases hmn : m = n
    · rcases hop with rfl | rfl <;> simp [ofInts, hmn]
    · rcases hop with rfl | rfl <;> simp [ofInts, hmn, Int64.toInt_inj]
  · rw [betweenAlike_unordered op hnumber hdatetime, asksOrder_eq_false_iff.2 hop]
    by_cases hvw : v = w
    · rcases hop with rfl | rfl <;> simp [holds, hvw]
    · rcases hop with rfl | rfl <;> simp [holds, hvw]

/-- Equality says of the casts of two values what it says of the values. -/
theorem between_cast (hop : op = .eq ∨ op = .ne) (hkind : v.kind = w.kind) (hv : v.cast k = some v')
    (hw : w.cast k = some w') : op.between (some v') w' = op.between (some v) w := by
  rcases Value.cast_both hkind hv hw with ⟨rfl, rfl⟩ | ⟨s, s', hs, hs', rfl, rfl⟩
  · rfl
  · have hdatetime : v.kind ≠ .datetime := by
      rcases Value.exists_widen?_iff.1 ⟨s, hs⟩ with h | h <;> rw [h] <;> decide
    have htexts : op.between (some (.text s)) (.text s') = _ := between_of_equality hop rfl nofun
    rw [between_of_equality hop hkind hdatetime, htexts]
    simp only [Value.text.injEq, Value.widen?_inj hkind hs hs']

end Operator

/-! ## Conditions in text -/

/-- The text that a value widens to; a value that does not widen stays as it is. -/
def Value.inText (v : Value) : Value := (v.cast .text).getD v

def Comparison.inText (c : Comparison) : Comparison := { c with literal := c.literal.inText }

def Condition.inText : Condition → Condition
  | single c => single c.inText
  | all cs => all (cs.map Comparison.inText)
  | any cs => any (cs.map Comparison.inText)

/-- The row with the values of some fields in text. -/
def Data.inText (fields : List String) (data : Data) : Data :=
  data.filterMap fun id v => some (if id ∈ fields then v.inText else v)

/-- The comparison asks whether the value of its field is the literal; the field holds nothing, or a value
of the literal's kind. -/
structure Comparison.AsksEquality (data : Data) (c : Comparison) : Prop where
  operator : c.operator = .eq ∨ c.operator = .ne
  kind : ∀ v, data.get? c.field = some v → v.kind = c.literal.kind

theorem Data.get?_inText {fields : List String} (data : Data) {id : String} (h : id ∈ fields) :
    (data.inText fields).get? id = (data.get? id).map Value.inText := by
  rw [inText, FieldMap.get?_filterMap]
  simp only [h, if_true]
  cases data.get? id <;> rfl

/-- Equality says of two values in text what it says of the values. -/
theorem Operator.between_inText {op : Operator} {v w : Value} (hop : op = .eq ∨ op = .ne)
    (hkind : v.kind = w.kind) : op.between (some v.inText) w.inText = op.between (some v) w := by
  have hboth : (∃ v', v.cast .text = some v') ↔ ∃ w', w.cast .text = some w' := by
    rw [Value.exists_cast_iff, Value.exists_cast_iff, hkind]
  cases hv : v.cast .text with
  | some v' =>
    obtain ⟨w', hw⟩ := hboth.1 ⟨v', hv⟩
    rw [Value.inText, Value.inText, hv, hw]
    exact between_cast hop hkind hv hw
  | none =>
    have hw : w.cast .text = none := by
      rw [Option.eq_none_iff_forall_ne_some]
      intro w' hw
      obtain ⟨v', hv'⟩ := hboth.2 ⟨w', hw⟩
      rw [hv] at hv'
      cases hv'
    rw [Value.inText, Value.inText, hv, hw]
    rfl

theorem Comparison.AsksEquality.evaluate_eq {c : Comparison} {data : Data} (h : c.AsksEquality data)
    {fields : List String} (hfield : c.field ∈ fields) :
    c.inText.evaluate (data.inText fields) = c.evaluate data := by
  show c.operator.between ((data.inText fields).get? c.field) c.literal.inText = _
  rw [Data.get?_inText data hfield, Comparison.evaluate]
  cases hv : data.get? c.field with
  | none => rfl
  | some v => exact Operator.between_inText h.operator (h.kind v hv)

namespace Condition

theorem members_inText (c : Condition) : c.inText.members = c.members.map Comparison.inText := by
  cases c <;> rfl

theorem pass_inText (c : Condition) : c.inText.pass = c.pass := by
  cases c <;> rfl

/-- A condition that asks for equality alone comes out in text as it came out before. -/
theorem evaluate_of_asksEquality {c : Condition} {data : Data}
    (h : ∀ m ∈ c.members, m.AsksEquality data) :
    c.inText.evaluate (data.inText c.fields) = c.evaluate data := by
  refine evaluate_of_forall₂ c.pass_inText ?_
  rw [members_inText, List.forall₂_map_left_iff, List.forall₂_same]
  exact fun m hm => (h m hm).evaluate_eq (List.mem_map_of_mem hm)

/-- **Equality survives widening.** A number is cast to its canonical numeral, which reads as the number.
Values of one kind that differ are cast to values that differ, and `eq` and `ne` come out on the casts as on
the values, be it with a verdict or a failure. So a condition made of them comes out the same once its
numbers and booleans, and those under its fields, are text. -/
theorem evaluate_inText :
    (∀ (n : Int64) (s : String),
      (Value.number n).cast .text = some (.text s) ↔ Text.Canonical s.toList n.toInt) ∧
    (∀ n : Int64, ∃ s : String, (Value.number n).cast .text = some (.text s) ∧
      Text.readInteger? s.toList = some n.toInt) ∧
    (∀ (v w v' w' : Value) (k : Kind), v.kind = w.kind → v.cast k = some v' → w.cast k = some w' →
      (v' = w' ↔ v = w) ∧
      ∀ op : Operator, op = .eq ∨ op = .ne → op.between (some v') w' = op.between (some v) w) ∧
    ∀ (c : Condition) (data : Data), (∀ m ∈ c.members, m.AsksEquality data) →
      c.inText.evaluate (data.inText c.fields) = c.evaluate data := by
  have hcast (n : Int64) : (Value.number n).cast .text = some (.text (numberWord n)) := rfl
  refine ⟨fun n s => ?_, fun n => ⟨numberWord n, hcast n, ?_⟩, ?_, fun _ _ => evaluate_of_asksEquality⟩
  · rw [hcast, Option.some_inj, Value.text.injEq, Text.canonical_iff, numberWord]
    constructor
    · rintro rfl
      exact String.toList_ofList
    · intro hs
      rw [← hs, String.ofList_toList]
  · rw [numberWord, String.toList_ofList, Text.readInteger?_signedNumeral]
  · intro v w v' w' k hkind hv hw
    exact ⟨Value.cast_inj hkind hv hw, fun op hop => Operator.between_cast hop hkind hv hw⟩

end Condition

/-- The smallest number, a boolean, a field that is not there, and a text that is no date-time. -/
def isLastSeat : Condition :=
  .all [⟨"balance", .eq, .number (-9223372036854775808)⟩, ⟨"member", .ne, .boolean false⟩,
    ⟨"seat", .ne, .number 7⟩, ⟨"due", .eq, .datetime "soon"⟩]

def booking : Data :=
  ((FieldMap.empty.insert "balance" (.number (-9223372036854775808))).insert "member"
    (.boolean true)).insert "due" (.datetime "2024-02-29")

theorem evaluate_inText_booking :
    (∀ m ∈ isLastSeat.members, m.AsksEquality booking) ∧
      booking.inText isLastSeat.fields = ((FieldMap.empty.insert "balance"
        (.text "-9223372036854775808")).insert "member" (.text "Yes")).insert "due"
          (.datetime "2024-02-29") ∧
      isLastSeat.inText.evaluate (booking.inText isLastSeat.fields) = isLastSeat.evaluate booking ∧
      isLastSeat.evaluate booking = .error (.error (.invalidDateTime "soon")) := by
  have hequality : ∀ m ∈ isLastSeat.members, m.AsksEquality booking := by
    intro m hm
    simp only [isLastSeat, Condition.members, List.mem_cons, List.not_mem_nil, or_false] at hm
    rcases hm with rfl | rfl | rfl | rfl
    · exact ⟨.inl rfl, fun v hv => by cases hv; rfl⟩
    · exact ⟨.inr rfl, fun v hv => by cases hv; rfl⟩
    · exact ⟨.inr rfl, fun v hv => by cases hv⟩
    · exact ⟨.inl rfl, fun v hv => by cases hv; rfl⟩
  exact ⟨hequality, by decide, Condition.evaluate_inText.2.2.2 _ _ hequality, rfl⟩

/-- A text beside a number is none of its texts before, and can be one after. -/
example : (Condition.single ⟨"seat", .eq, .number 7⟩).evaluate (Data.only "seat" (.text "7")) = .ok false ∧
    (Condition.single ⟨"seat", .eq, .number 7⟩).inText.evaluate
      ((Data.only "seat" (.text "7")).inText ["seat"]) = .ok true := ⟨rfl, rfl⟩

end FormPress
