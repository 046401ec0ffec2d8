/-!
# Quoted strings

The string literals of JSON: text between double quotes, with escapes behind a backslash. Every
character can be escaped as its UTF-16 units, of which some make up a character only in pairs. A
literal with half a pair is well formed and has no text. Control characters cannot stand for
themselves.
-/
namespace FormPress.Json.Quoted

/-! ## Reading -/

def hexDigit? (c : Char) : Option Nat :=
  if '0' ≤ c ∧ c ≤ '9' then some (c.toNat - '0'.toNat)
  else if 'a' ≤ c ∧ c ≤ 'f' then some (c.toNat - 'a'.toNat + 10)
  else if 'A' ≤ c ∧ c ≤ 'F' then some (c.toNat - 'A'.toNat + 10)
  else none

/-- The number that hexadecimal digits denote. -/
def hexNumber? (cs : List Char) : Option Nat :=
  cs.foldl (fun n c => n.bind fun n => (hexDigit? c).map (16 * n + ·)) (some 0)

def isHighSurrogate (u : Nat) : Bool := 0xD800 ≤ u && u ≤ 0xDBFF

def isLowSurrogate (u : Nat) : Bool := 0xDC00 ≤ u && u ≤ 0xDFFF

/-- What a letter behind a backslash stands for. -/
def unescape? : Char → Option Char
  | '"' => some '"'
  | '\\' => some '\\'
  | '/' => some '/'
  | 'b' => some '\x08'
  | 'f' => some '\x0c'
  | 'n' => some '\n'
  | 'r' => some '\r'
  | 't' => some '\t'
  | _ => none

/-- One character more before what has been read. -/
def push {α : Type} (c : α) (read : Option (List α × List Char)) : Option (List α × List Char) :=
  read.map fun (cs, more) => (c :: cs, more)

theorem exists_of_push {α : Type} {c : α} {read : Option (List α × List Char)}
    {text : List α} {rest : List Char} (h : push c read = some (text, rest)) :
    ∃ cs, read = some (cs, rest) ∧ text = c :: cs := by
  obtain ⟨⟨cs, more⟩, hr, heq⟩ := Option.map_eq_some_iff.1 h
  obtain ⟨rfl, rfl⟩ := Prod.mk.inj heq
  exact ⟨cs, hr, rfl⟩

/-- What a literal is made of. -/
inductive Piece
  | char (c : Char)
  /-- An escaped UTF-16 unit. -/
  | unit (u : Nat)

/-- Reads the rest of a literal, up to and with its closing quote: its pieces, and what follows. -/
def scan : List Char → Option (List Piece × List Char)
  | [] => none
  | '"' :: rest => some ([], rest)
  | '\\' :: 'u' :: a :: b :: c :: d :: rest =>
    match hexNumber? [a, b, c, d] with
    | none => none
    | some u => push (.unit u) (scan rest)
  | '\\' :: letter :: rest =>
    match unescape? letter with
    | none => none
    | some c => push (.char c) (scan rest)
  | c :: rest =>
    if c = '\\' ∨ c.toNat < 0x20 then none
    else push (.char c) (scan rest)

/-- What follows a literal is shorter than what the literal stood at the head of. -/
theorem scan_length {cs : List Char} {pieces : List Piece} {rest : List Char}
    (h : scan cs = some (pieces, rest)) : rest.length < cs.length := by
  fun_induction scan cs generalizing pieces rest
  case case2 => simp_all
  case case4 ih | case6 ih | case8 ih =>
    obtain ⟨_, hr, _⟩ := exists_of_push h
    have := ih hr
    simp only [List.length_cons]
    omega
  all_goals cases h

/-- The character of a surrogate pair. -/
def pairChar (high low : Nat) : Char :=
  Char.ofNat (0x10000 + 0x400 * (high - 0xD800) + (low - 0xDC00))

/-- The text of pieces, unless half a pair is among them. -/
def text? : List Piece → Option (List Char)
  | [] => some []
  | .char c :: pieces => (text? pieces).map (c :: ·)
  | .unit u :: pieces =>
    if isLowSurrogate u then none
    else if isHighSurrogate u then
      match pieces with
      | .unit v :: pieces =>
        if isLowSurrogate v then (text? pieces).map (pairChar u v :: ·) else none
      | _ => none
    else (text? pieces).map (Char.ofNat u :: ·)

/-! ## Writing -/

/-- A character as it stands in a string. -/
def escapeChar (c : Char) : List Char :=
  match c with
  | '"' => ['\\', '"']
  | '\\' => ['\\', '\\']
  | '\x08' => ['\\', 'b']
  | '\x0c' => ['\\', 'f']
  | '\n' => ['\\', 'n']
  | '\r' => ['\\', 'r']
  | '\t' => ['\\', 't']
  | c =>
    if c.toNat < 0x20 then
      ['\\', 'u', '0', '0', Nat.digitChar (c.toNat / 16), Nat.digitChar (c.toNat % 16)]
    else [c]

/-- The literal of a text. -/
def encode (s : String) : List Char := '"' :: (s.toList.flatMap escapeChar ++ ['"'])

end FormPress.Json.Quoted
