import FormPress.Json.Quoted
/-!
# TOML strings

Four ways to write text: between double quotes with escapes, between single quotes as it is, and
either over several lines between tripled quotes. A line break right behind tripled quotes does not
count; behind a backslash at the end of a line, all blanks up to the next text are left out. One or
two quotes may stand right before tripled quotes that close.
-/
namespace FormPress.Toml

open Json.Quoted (push hexNumber?)

/-- The single quote. -/
def quote : Char := Char.ofNat 0x27

/-- What may stand in a comment or, as itself, in text: no control characters but the tab. -/
def isPlain (c : Char) : Bool := c == '\t' || (0x20 ≤ c.toNat && c.toNat != 0x7F)

/-- The character of a code point, if it is one. -/
def charOf? (n : Nat) : Option Char := if n.isValidChar then some (Char.ofNat n) else none

/-- What a letter behind a backslash stands for. -/
def unescape? : Char → Option Char
  | '"' => some '"'
  | '\\' => some '\\'
  | 'b' => some '\x08'
  | 'f' => some '\x0c'
  | 'n' => some '\n'
  | 'r' => some '\r'
  | 't' => some '\t'
  | _ => none

/-- The character that hexadecimal digits name. -/
def hexChar? (digits : List Char) : Option Char := (hexNumber? digits).bind charOf?

/-- Reads text up to and with its closing double quote. -/
def scanBasic : List Char → Option (List Char × List Char)
  | [] => none
  | '"' :: rest => some ([], rest)
  | '\\' :: 'u' :: a :: b :: c :: d :: rest =>
    (hexChar? [a, b, c, d]).bind fun x => push x (scanBasic rest)
  | '\\' :: 'U' :: a :: b :: c :: d :: e :: f :: g :: h :: rest =>
    (hexChar? [a, b, c, d, e, f, g, h]).bind fun x => push x (scanBasic rest)
  | '\\' :: letter :: rest => (unescape? letter).bind fun x => push x (scanBasic rest)
  | c :: rest => if c = '\\' ∨ !isPlain c then none else push c (scanBasic rest)

/-- Reads text up to and with its closing single quote. -/
def scanLiteral : List Char → Option (List Char × List Char)
  | [] => none
  | c :: rest =>
    if c = quote then some ([], rest)
    else if isPlain c then push c (scanLiteral rest)
    else none

/-! ## Several lines -/

/-- How many quotes of a kind stand at the head, up to six. -/
def countQuotes (q : Char) (cs : List Char) : Nat := ((cs.take 6).takeWhile (· == q)).length

/-- The end of a text between tripled quotes, if it is here: the one or two quotes that still belong
to the text, and what follows. Six quotes in a row end no text. -/
def closing? (q : Char) (cs : List Char) : Option (List Char × List Char) :=
  let n := countQuotes q cs
  if 3 ≤ n ∧ n ≤ 5 then some (List.replicate (n - 3) q, cs.drop n) else none

/-- How blanks are taken between tripled double quotes. -/
inductive Folding
  /-- They are text. -/
  | none
  /-- Behind a backslash: only blanks may stand before the line break. -/
  | toBreak
  /-- Behind that line break: blanks are left out. -/
  | skip
  deriving DecidableEq

/-- Reads text up to and with its closing tripled double quotes. -/
def scanLines : Folding → List Char → Option (List Char × List Char)
  | _, [] => Option.none
  | .toBreak, '\n' :: rest => scanLines .skip rest
  | .toBreak, '\r' :: '\n' :: rest => scanLines .skip rest
  | .toBreak, c :: rest => if c = ' ' ∨ c = '\t' then scanLines .toBreak rest else Option.none
  | .skip, ' ' :: rest => scanLines .skip rest
  | .skip, '\t' :: rest => scanLines .skip rest
  | .skip, '\n' :: rest => scanLines .skip rest
  | .skip, '\r' :: '\n' :: rest => scanLines .skip rest
  | _, '\r' :: '\n' :: rest => push '\n' (scanLines .none rest)
  | _, '\n' :: rest => push '\n' (scanLines .none rest)
  | _, '\\' :: 'u' :: a :: b :: c :: d :: rest =>
    (hexChar? [a, b, c, d]).bind fun x => push x (scanLines .none rest)
  | _, '\\' :: 'U' :: a :: b :: c :: d :: e :: f :: g :: h :: rest =>
    (hexChar? [a, b, c, d, e, f, g, h]).bind fun x => push x (scanLines .none rest)
  | _, '\\' :: '\n' :: rest => scanLines .skip rest
  | _, '\\' :: '\r' :: '\n' :: rest => scanLines .skip rest
  | _, '\\' :: c :: rest =>
    if c = ' ' ∨ c = '\t' then scanLines .toBreak rest
    else (unescape? c).bind fun x => push x (scanLines .none rest)
  | _, c :: rest =>
    match closing? '"' (c :: rest) with
    | some ended => some ended
    | Option.none =>
      if c = '\\' ∨ !isPlain c ∨ countQuotes '"' (c :: rest) = 6 then Option.none
      else push c (scanLines .none rest)

/-- Reads text up to and with its closing tripled single quotes. -/
def scanLiteralLines : List Char → Option (List Char × List Char)
  | [] => none
  | '\r' :: '\n' :: rest => push '\n' (scanLiteralLines rest)
  | '\n' :: rest => push '\n' (scanLiteralLines rest)
  | c :: rest =>
    match closing? quote (c :: rest) with
    | some ended => some ended
    | none =>
      if !isPlain c ∨ countQuotes quote (c :: rest) = 6 then none
      else push c (scanLiteralLines rest)

/-- Leaves out a line break at the head. -/
def dropBreak : List Char → List Char
  | '\n' :: rest => rest
  | '\r' :: '\n' :: rest => rest
  | cs => cs

/-- Reads a text on one line, which can also be a key. -/
def quoted? : List Char → Option (List Char × List Char)
  | [] => none
  | c :: rest =>
    if c = '"' then scanBasic rest
    else if c = quote then scanLiteral rest
    else none

/-- Reads a text in any of its four forms. -/
def string? (cs : List Char) : Option (List Char × List Char) :=
  if countQuotes '"' cs ≥ 3 then scanLines .none (dropBreak (cs.drop 3))
  else if countQuotes quote cs ≥ 3 then scanLiteralLines (dropBreak (cs.drop 3))
  else quoted? cs

end FormPress.Toml
