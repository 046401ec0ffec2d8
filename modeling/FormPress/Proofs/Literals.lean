import FormPress.Json.Basic
import FormPress.Json.Parser
import Mathlib.Data.List.TakeWhile
/-!
# Literals read back

The scalars of JSON text, one token each. A quoted string is read as the text it was written for, whatever
characters that has (`Json.tokens?_encode`), and a numeral of 64 bits as its number
(`Json.word?_signedNumeral`). A word ends where no character of a word follows.
-/
namespace FormPress

namespace Text

theorem numeral_ne_nil (n : Nat) : numeral n ≠ [] := Nat.toDigits_ne_nil

/-- The numeral of a number other than zero does not begin with a zero. -/
theorem head?_numeral_ne_zero {n : Nat} (hn : 0 < n) : (numeral n).head? ≠ some '0' := by
  induction n using Nat.strongRecOn with
  | ind n ih =>
    by_cases hlt : n < 10
    · have hdigit : ∀ m < 10, 0 < m → Nat.digitChar m ≠ '0' := by decide
      rw [numeral, Nat.toDigits_of_lt_base hlt]
      simpa using hdigit n hlt hn
    · have hhead := ih (n / 10) (by omega) (by omega)
      obtain ⟨d, ds, hds⟩ := List.exists_cons_of_ne_nil (numeral_ne_nil (n / 10))
      rw [numeral, Nat.toDigits_of_base_le (by decide) (by omega), ← numeral, hds]
      simpa [hds] using hhead

theorem le_ofDigitChars (cs : List Char) (n : Nat) : n ≤ Nat.ofDigitChars 10 cs n := by
  induction cs generalizing n with
  | nil => exact Nat.le_refl n
  | cons c cs ih =>
    rw [Nat.ofDigitChars_cons]
    have := ih (10 * n + (c.toNat - '0'.toNat))
    omega

end Text

namespace Json

/-! ## Quoted strings -/

namespace Quoted

theorem hexNumber?_control : ∀ n < 0x20,
    hexNumber? ['0', '0', Nat.digitChar (n / 16), Nat.digitChar (n % 16)] = some n := by
  decide

/-- A character that needs no escape stands for itself. -/
theorem scan_plain {c : Char} (hquote : c ≠ '"') (hslash : c ≠ '\\') (hc : ¬ c.toNat < 0x20)
    (rest : List Char) : scan (c :: rest) = push (.char c) (scan rest) := by
  rw [scan.eq_def]
  split
  case h_5 heq =>
    obtain ⟨rfl, rfl⟩ := List.cons.inj heq
    rw [if_neg (by simp [hslash, hc])]
  all_goals simp_all

/-- A control character is no half of a pair. -/
theorem text?_control {c : Char} (hc : c.toNat < 0x20) (pieces : List Piece) :
    text? (.unit c.toNat :: pieces) = (text? pieces).map (c :: ·) := by
  have hlow : isLowSurrogate c.toNat = false := by
    simp only [isLowSurrogate, Bool.and_eq_false_iff, decide_eq_false_iff_not]
    omega
  have hhigh : isHighSurrogate c.toNat = false := by
    simp only [isHighSurrogate, Bool.and_eq_false_iff, decide_eq_false_iff_not]
    omega
  rw [text?.eq_def]
  simp only [hlow, hhigh, Bool.false_eq_true, if_false, Char.ofNat_toNat]

/-- A written character is one piece, which stands for the character. -/
theorem exists_piece (c : Char) :
    ∃ p, (∀ rest, scan (escapeChar c ++ rest) = push p (scan rest)) ∧
      ∀ pieces, text? (p :: pieces) = (text? pieces).map (c :: ·) := by
  unfold escapeChar
  split
  case h_8 =>
    split
    · rename_i hc
      refine ⟨.unit c.toNat, fun rest => ?_, text?_control hc⟩
      simp only [List.cons_append, List.nil_append, scan, hexNumber?_control c.toNat hc]
    · rename_i hquote hslash _ _ _ _ _ hc
      exact ⟨.char c, scan_plain hquote hslash hc, fun _ => rfl⟩
  -- Every other character has a letter of its own.
  all_goals exact ⟨.char _, fun _ => rfl, fun _ => rfl⟩

theorem exists_scan (cs rest : List Char) :
    ∃ pieces, scan (cs.flatMap escapeChar ++ '"' :: rest) = some (pieces, rest) ∧
      text? pieces = some cs := by
  induction cs with
  | nil => exact ⟨[], rfl, rfl⟩
  | cons c cs ih =>
    obtain ⟨pieces, hscan, htext⟩ := ih
    obtain ⟨p, hp, hpiece⟩ := exists_piece c
    refine ⟨p :: pieces, ?_, ?_⟩
    · rw [List.flatMap_cons, List.append_assoc, hp, hscan]
      rfl
    · rw [hpiece, htext]
      rfl

end Quoted

theorem tokens?_encode (s : String) (rest : List Char) :
    tokens? (Quoted.encode s ++ rest) = (tokens? rest).map (.text (some s) :: ·) := by
  obtain ⟨pieces, hscan, htext⟩ := Quoted.exists_scan s.toList rest
  rw [Quoted.encode, List.cons_append, List.append_assoc, List.singleton_append, tokens?]
  rw [if_neg (by decide), if_pos rfl]
  split
  · rename_i h
    rw [hscan] at h
    cases h
  · rename_i h
    rw [hscan] at h
    cases h
    rw [htext, Option.map_some, String.ofList_toList]

/-! ## Words -/

/-- No character that goes on with a word comes next. -/
def EndsWord (rest : List Char) : Prop := ∀ c ∈ rest.head?, isWordChar c = false

theorem endsWord_nil : EndsWord [] := by simp [EndsWord]

theorem endsWord_cons {c : Char} (h : isWordChar c = false) (rest : List Char) : EndsWord (c :: rest) := by
  simpa [EndsWord] using h

/-- A word is taken to its end. -/
theorem span_word {w rest : List Char} (hw : ∀ c ∈ w, isWordChar c = true) (hrest : EndsWord rest) :
    (w ++ rest).takeWhile isWordChar = w ∧ (w ++ rest).dropWhile isWordChar = rest := by
  rw [List.takeWhile_append_of_pos hw, List.dropWhile_append_of_pos hw]
  cases rest with
  | nil => simp
  | cons c rest =>
    have hc : isWordChar c = false := hrest c (by simp)
    simp [hc]

theorem isSpace_of_isWordChar {c : Char} (h : isWordChar c = true) : isSpace c = false := by
  rw [Bool.eq_false_iff]
  intro hs
  simp only [isSpace, Bool.or_eq_true, beq_iff_eq] at hs
  rcases hs with ((rfl | rfl) | rfl) | rfl <;> revert h <;> decide

theorem tokens?_word {w rest : List Char} {value : Json} (hword : word? w = some value)
    (hw : ∀ c ∈ w, isWordChar c = true) (hne : w ≠ []) (hrest : EndsWord rest) :
    tokens? (w ++ rest) = (tokens? rest).map (.word value :: ·) := by
  obtain ⟨c, cs, rfl⟩ := List.exists_cons_of_ne_nil hne
  have hc : isWordChar c = true := hw c (by simp)
  have hquote : c ≠ '"' := by
    rintro rfl
    revert hc
    decide
  obtain ⟨htake, hdrop⟩ := span_word hw hrest
  rw [List.cons_append] at htake hdrop ⊢
  rw [tokens?, isSpace_of_isWordChar hc, if_neg Bool.false_ne_true, if_neg hquote, dif_pos hc]
  simp only [htake, hdrop, hword]

/-! ## Numbers -/

/-- Digits of a number of 64 bits all fit. -/
theorem Magnitude.appendDigits_eq {ds : List Char} {n : Nat}
    (h : Nat.ofDigitChars 10 ds n < 18446744073709551616) :
    appendDigits n ds = (Nat.ofDigitChars 10 ds n, 0) := by
  induction ds generalizing n with
  | nil => rfl
  | cons d ds ih =>
    rw [Nat.ofDigitChars_cons] at h ⊢
    have hread : Text.readNumeral [d] = d.toNat - '0'.toNat := by
      rw [Text.readNumeral, Nat.ofDigitChars_cons, Nat.ofDigitChars_nil, Nat.mul_zero, Nat.zero_add]
    have hle := Text.le_ofDigitChars ds (10 * n + (d.toNat - '0'.toNat))
    rw [appendDigits, hread, if_pos (by omega), ih h]

theorem isWhole_numeral (n : Nat) : isWhole (Text.numeral n) = true := by
  rcases Nat.eq_zero_or_pos n with rfl | hn
  · rfl
  have hhead := Text.head?_numeral_ne_zero hn
  have hdigits : isDigits (Text.numeral n) = true := by
    have hall : ∀ c ∈ Text.numeral n, c.isDigit = true := fun _ => Text.isDigit_of_mem_numeral
    simpa [isDigits, Text.numeral_ne_nil n] using hall
  unfold isWhole
  split
  · rfl
  · simp_all
  · exact hdigits

/-- A numeral is a whole number, unless it is minus zero. -/
theorem number?_numeral {n : Nat} (h : n < 18446744073709551616) {negative : Bool}
    (hneg : negative = true → n ≠ 0) :
    number? negative (Text.numeral n) = some (int (if negative then -(n : Int) else n)) := by
  have hall : ∀ c ∈ Text.numeral n, c.isDigit = true := fun _ => Text.isDigit_of_mem_numeral
  have htake : (Text.numeral n).takeWhile Char.isDigit = Text.numeral n :=
    List.takeWhile_eq_self_iff.2 hall
  have hdrop : (Text.numeral n).dropWhile Char.isDigit = [] := List.dropWhile_eq_nil_iff.2 hall
  have hvalue : Nat.ofDigitChars 10 (Text.numeral n) 0 = n := Text.readNumeral_numeral n
  have hwhole : Magnitude.ofWhole (Text.numeral n) = ⟨n, 0⟩ := by
    rw [Magnitude.ofWhole, Magnitude.appendDigits_eq (by rw [hvalue]; exact h), hvalue]
    rfl
  have hrange : (((Magnitude.ofWhole (Text.numeral n)).appendFraction []).scale 0).isOutOfRange = false := by
    rw [hwhole]
    simp [Magnitude.appendFraction, Magnitude.appendDigits, Magnitude.scale, Magnitude.isOutOfRange]
  have hzero : (negative && n == 0) = false := by
    cases negative with
    | false => rfl
    | true => simpa using hneg rfl
  simp only [number?, htake, hdrop, fraction?, exponent?, isWhole_numeral, Option.bind_eq_bind,
    Option.bind_some, hrange, Text.readNumeral_numeral, hzero, Bool.not_true, Bool.false_eq_true,
    if_false, List.isEmpty_nil, Bool.or_false]

theorem word?_of_digit {c : Char} {cs : List Char} (h : c.isDigit = true) :
    word? (c :: cs) = number? false (c :: cs) := by
  unfold word?
  split
  case h_5 => rfl
  -- The other words begin with a letter or a sign.
  all_goals
    rename_i heq
    obtain ⟨rfl, -⟩ := List.cons.inj heq
    exact absurd h (by decide)

theorem word?_signedNumeral {n : Int} (hlo : -9223372036854775808 ≤ n) (hhi : n ≤ 18446744073709551615) :
    word? (Text.signedNumeral n) = some (int n) := by
  cases n with
  | ofNat n =>
    have hn : n < 18446744073709551616 := by
      have : (n : Int) ≤ 18446744073709551615 := hhi
      omega
    obtain ⟨c, cs, hcs⟩ := List.exists_cons_of_ne_nil (Text.numeral_ne_nil n)
    have hc : c.isDigit = true := Text.isDigit_of_mem_numeral (n := n) (by rw [hcs]; simp)
    rw [Text.signedNumeral, hcs, word?_of_digit hc, ← hcs, number?_numeral hn (by simp)]
    rfl
  | negSucc n =>
    have hn : n + 1 < 18446744073709551616 := by omega
    rw [Text.signedNumeral, show word? ('-' :: Text.numeral (n + 1)) = number? true _ from rfl,
      number?_numeral hn (by simp)]
    rfl

theorem isWordChar_of_mem_signedNumeral {n : Int} {c : Char} (h : c ∈ Text.signedNumeral n) :
    isWordChar c = true := by
  have hdigit : ∀ {m : Nat}, c ∈ Text.numeral m → isWordChar c = true := fun hc => by
    have := Text.isDigit_of_mem_numeral hc
    simp [isWordChar, Char.isAlphanum, this]
  cases n with
  | ofNat n => exact hdigit h
  | negSucc n =>
    rcases List.mem_cons.1 h with rfl | h
    · decide
    · exact hdigit h

theorem signedNumeral_ne_nil (n : Int) : Text.signedNumeral n ≠ [] := by
  cases n with
  | ofNat n => exact Text.numeral_ne_nil n
  | negSucc n => simp [Text.signedNumeral]

end Json

end FormPress
