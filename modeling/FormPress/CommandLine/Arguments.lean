import FormPress.Value
/-!
# Arguments

What the words of a command line ask for. Flags that hold for every command may stand before the
command's name or behind it, each at most once in either place; behind it wins. A flag's value is the
next word or stands behind an equals sign. A lone `--` ends the flags. Words are taken from left to
right, and the first that is wrong makes the whole line wrong.

| here | there |
| --- | --- |
| `Options` | the global flags of `Cli` |
| `OutputForm` | `OutputFormat` |
| `Command` | `Commands`: `Eval`, `Cast`, `Reconcile`, `Compile` |
| `FlagType.accepts` | `parse_kind`, and what the flags of `Cli` take |
| `Request.ofWords?` | `Cli::parse` |
-/
namespace FormPress

/-- How answers are written. -/
inductive OutputForm
  | text | json
  deriving DecidableEq

def OutputForm.ofName? : String → Option OutputForm
  | "text" => some .text
  | "json" => some .json
  | _ => none

/-- The flags that hold for every command. -/
structure Options where
  output : OutputForm := .text
  quiet : Bool := false
  config : Option String := none
  deriving DecidableEq

/-- A command and the paths it works on. -/
inductive Command
  | evaluate (condition data : String)
  | cast (value : String) (target : Kind)
  | reconcile (data columns : String) (submission : Bool)
  | compile (document : String) (data subData out : Option String)
  deriving DecidableEq

structure Invocation where
  options : Options
  command : Command
  deriving DecidableEq

inductive Request
  | version
  | help
  | run (invocation : Invocation)
  deriving DecidableEq

/-! ## Words -/

inductive Word
  /-- A long flag, with what stands behind an equals sign. -/
  | long (name : String) (value : Option String)
  /-- Short flags, of which the first decides. -/
  | short (letters : List Char)
  /-- The end of the flags. -/
  | endOfFlags
  | plain (s : String)

def Word.ofString (s : String) : Word :=
  match s.toList with
  | ['-', '-'] => .endOfFlags
  | '-' :: '-' :: cs =>
    match cs.dropWhile (· != '=') with
    | [] => .long (String.ofList cs) none
    | _ :: value => .long (String.ofList (cs.takeWhile (· != '='))) (some (String.ofList value))
  | '-' :: c :: cs => .short (c :: cs)
  | _ => .plain s

/-! ## Flags -/

/-- What the value of a flag must be; a flag without a value is a switch. -/
inductive FlagType
  | switch
  | path
  | kind
  | outputForm
  deriving DecidableEq

def FlagType.accepts : FlagType → String → Bool
  | .switch, _ => false
  | .path, s => !s.isEmpty
  | .kind, s => (Kind.ofName? s).isSome
  | .outputForm, s => (OutputForm.ofName? s).isSome

/-- A flag's type by its name. -/
abbrev FlagTable := List (String × FlagType)

def FlagTable.get? (table : FlagTable) (name : String) : Option FlagType :=
  (table.find? fun e => e.1 == name).map (·.2)

def commonFlags : FlagTable :=
  [("output", .outputForm), ("quiet", .switch), ("config", .path)]

/-- The flags that have been given, with their values, and the words that are no flags. -/
structure Given where
  flags : List (String × String) := []
  words : List String := []

namespace Given

/-- The value of a flag; a switch that is set has an empty one. -/
def value? (g : Given) (name : String) : Option String :=
  (g.flags.find? fun e => e.1 == name).map (·.2)

def has (g : Given) (name : String) : Bool := (g.value? name).isSome

/-- A flag more; none is given twice. -/
def addFlag (g : Given) (name value : String) : Option Given :=
  if g.has name then none else some { g with flags := (name, value) :: g.flags }

/-- A word more. A command takes one path as its word. -/
def addWord (g : Given) (s : String) : Option Given :=
  if g.words.isEmpty ∧ s ≠ "" then some { g with words := [s] } else none

/-- Words that are no flags whatever they look like. -/
def addWords (g : Given) : List String → Option Given
  | [] => some g
  | s :: rest => (g.addWord s).bind (·.addWords rest)

end Given

/-- The value of a flag, attached or the next word, and the words left. A switch has no value and
counts as the empty text. -/
def flagValue? : FlagType → Option String → List String → Option (String × List String)
  | .switch, none, rest => some ("", rest)
  | .switch, some _, _ => none
  | _, none, [] => none
  | type, some value, rest => if type.accepts value then some (value, rest) else none
  | type, none, word :: rest =>
    match Word.ofString word with
    | .plain value => if type.accepts value then some (value, rest) else none
    | _ => none

theorem flagValue?_length {type : FlagType} {attached : Option String} {words left : List String}
    {value : String} (h : flagValue? type attached words = some (value, left)) :
    left.length ≤ words.length := by
  unfold flagValue? at h
  repeat' split at h
  all_goals simp_all

/-- Takes a long flag: what is given then, and the words left. -/
def takeLong (table : FlagTable) (g : Given) (name : String) (attached : Option String)
    (words : List String) : Option (Given × List String) :=
  (table.get? name).bind fun type =>
    (flagValue? type attached words).bind fun (value, left) =>
      (g.addFlag name value).map (·, left)

theorem takeLong_length {table : FlagTable} {g g' : Given} {name : String}
    {attached : Option String} {words left : List String}
    (h : takeLong table g name attached words = some (g', left)) : left.length ≤ words.length := by
  obtain ⟨type, _, h⟩ := Option.bind_eq_some_iff.1 h
  obtain ⟨⟨value, left'⟩, hv, h⟩ := Option.bind_eq_some_iff.1 h
  obtain ⟨_, _, heq⟩ := Option.map_eq_some_iff.1 h
  obtain ⟨_, rfl⟩ := Prod.mk.inj heq
  exact flagValue?_length hv

/-! ## Commands -/

/-- What reading words comes to. -/
inductive Reading
  | help
  | given (g : Given)

/-- Reads the words behind a command's name. -/
def readWords (table : FlagTable) (g : Given) : List String → Option Reading
  | [] => some (.given g)
  | s :: rest =>
    match Word.ofString s with
    | .endOfFlags => (g.addWords rest).map .given
    | .short ('h' :: _) => some .help
    | .short _ => none
    | .long "help" none => some .help
    | .long name attached =>
      match h : takeLong table g name attached rest with
      | none => none
      | some (g, left) =>
        have := takeLong_length h
        readWords table g left
    | .plain s => (g.addWord s).bind fun g => readWords table g rest
termination_by words => words.length

/-- The flags of a command and what it makes of them. -/
structure CommandForm where
  flags : FlagTable
  build : String → Given → Option Command

/-- The commands by name. -/
def commandForm? : String → Option CommandForm
  | "eval" => some ⟨[("data", .path)], fun path g => do
    return .evaluate path (← g.value? "data")⟩
  | "cast" => some ⟨[("kind", .kind)], fun path g => do
    return .cast path (← Kind.ofName? (← g.value? "kind"))⟩
  | "reconcile" => some ⟨[("columns", .path), ("submission", .switch)], fun path g => do
    return .reconcile path (← g.value? "columns") (g.has "submission")⟩
  | "compile" => some ⟨[("data", .path), ("sub-data", .path), ("out", .path)], fun path g =>
    some (.compile path (g.value? "data") (g.value? "sub-data") (g.value? "out"))⟩
  | _ => none

/-- The options from what was given before the command's name and behind it. -/
def optionsOf (before behind : Given) : Options :=
  let value? (name : String) := (behind.value? name).or (before.value? name)
  { output := ((value? "output").bind OutputForm.ofName?).getD .text
    quiet := (value? "quiet").isSome
    config := value? "config" }

/-- Reads a command behind its name. -/
def readCommand (before : Given) (form : CommandForm) (words : List String) : Option Request := do
  match ← readWords (commonFlags ++ form.flags) {} words with
  | .help => return .help
  | .given g =>
    let path ← g.words.head?
    return .run ⟨optionsOf before g, ← form.build path g⟩

/-- Asks for help on a command, or in general. -/
def readHelp : List String → Option Request
  | [] => some .help
  | [name] => if name = "help" ∨ (commandForm? name).isSome then some .help else none
  | _ => none

/-- Reads the words of a line from where no command has been named yet. -/
def readRequest (g : Given) : List String → Option Request
  | [] => none
  | s :: rest =>
    match Word.ofString s with
    | .endOfFlags => none
    | .short ('h' :: _) => some .help
    | .short ('V' :: _) => some .version
    | .short _ => none
    | .long "help" none => some .help
    | .long "version" none => some .version
    | .long name attached =>
      match h : takeLong commonFlags g name attached rest with
      | none => none
      | some (g, left) =>
        have := takeLong_length h
        readRequest g left
    | .plain "help" => readHelp rest
    | .plain name => (commandForm? name).bind fun form => readCommand g form rest
termination_by words => words.length

/-- What a command line asks for; `none` if it is wrong. -/
def Request.ofWords? (words : List String) : Option Request := readRequest {} words

end FormPress
