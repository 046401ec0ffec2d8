import FormPress.Document.Basic
/-!
# Markup

Commands and their bodies, escaped text, and what each part of a document is written as once its own
parts are written. A body is passed through untouched: what is text in it has been escaped before.

| here | there |
| --- | --- |
| `Markup.command`, `Markup.commandWith` | `wrap`, `wrap_with` |
| `Markup.bracketed` | `group` |
| `Markup.specialChars`, `Markup.escape` | `ESCAPED`, `escape` |
| `Markup.linkStyleLine`, `Markup.languageLine`, `Markup.titleLine` | `LINK_COLOR`, `language`, `title` |
| `Mark.apply` | `apply_mark`, with `link` |
| `TextAlign.wrap` | `align` |
| `Heading.wrap` | `heading` around its written content |
| `ListStyle.command`, `ListStyle.wrap` | `ListKind::command`, `join_list` |
-/
namespace FormPress

/-! ## Commands -/

/-- Markup, character by character. -/
abbrev Markup := List Char

namespace Markup

/-- A body in brackets, which is also an item of a list. -/
def bracketed (body : Markup) : Markup := '[' :: (body ++ [']'])

/-- The text between double quotes, as it is. -/
def quoted (text : String) : List Char := '"' :: (text.toList ++ ['"'])

/-- A command and its body. -/
def command (name : String) (body : Markup) : Markup := '#' :: (name.toList ++ bracketed body)

/-- A command with arguments and its body. -/
def commandWith (name : String) (args : List Char) (body : Markup) : Markup :=
  '#' :: (name.toList ++ '(' :: (args ++ ')' :: bracketed body))

/-! ## Escaped text -/

/-- The characters that mean something in markup. -/
def specialChars : List Char := ['\\', '#', '\x7b', '\x7d', '[', ']', '*', '_', '~', '^', '|']

/-- The text with a backslash before each character that means something in markup. -/
def escape : List Char → Markup
  | [] => []
  | c :: cs => if c ∈ specialChars then '\\' :: c :: escape cs else c :: escape cs

theorem escape_append (s t : List Char) : escape (s ++ t) = escape s ++ escape t := by
  induction s with
  | nil => rfl
  | cons c s ih => by_cases h : c ∈ specialChars <;> simp [escape, h, ih]

end Markup

/-! ## The commands of documents -/

/-- The line that colours links, the first of every document. -/
def Markup.linkStyleLine : Markup := "#show link: set text(fill: blue)\n".toList

/-- The line that sets the language. -/
def Markup.languageLine (language : String) : Markup :=
  "#set text(lang: ".toList ++ quoted language ++ ")\n".toList

/-- The line that sets the title. -/
def Markup.titleLine (title : Markup) : Markup :=
  "#set document(title: ".toList ++ bracketed title ++ ")\n".toList

/-- What a mark makes of the text that it marks. -/
def Mark.apply (body : Markup) : Mark → Markup
  | .bold => .command "strong" body
  | .italic => .command "emph" body
  | .underline => .command "underline" body
  | .highlight => .command "highlight" body
  | .strike => .command "strike" body
  | .code => .command "raw" body
  | .textStyle _ => body
  | .link href _ _ => .commandWith "link" (Markup.quoted href) body

/-- Only centred and right-aligned text is wrapped. -/
def TextAlign.wrap : Option TextAlign → Markup → Markup
  | some .center, body => .commandWith "align" "center".toList body
  | some .right, body => .commandWith "align" "right".toList body
  | _, body => body

/-- A heading around its content, with a newline behind it. -/
def Heading.wrap (h : Heading) (body : Markup) : Markup :=
  let level := "level: ".toList ++ Text.numeral h.level.toNat
  TextAlign.wrap h.align (.commandWith "heading" level body) ++ ['\n']

/-- A paragraph around its content, with a newline behind it. -/
def Paragraph.wrap (body : Markup) : Markup := .command "par" body ++ ['\n']

def ListStyle.command : ListStyle → String
  | ordered => "enum"
  | bullet => "list"

/-- A list around its items, with a newline behind it; without items there is nothing. -/
def ListStyle.wrap (style : ListStyle) : List Markup → Markup
  | [] => []
  | items => '#' :: (style.command.toList ++ '(' :: ([','].intercalate items ++ ")\n".toList))

end FormPress
