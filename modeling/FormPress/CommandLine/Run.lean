import FormPress.CommandLine.Arguments
import FormPress.Json.Parser
import FormPress.Log
import FormPress.Toml.Parser
import FormPress.Wire.Document
/-!
# Runs

A run of a command as a function of the files: it loads the settings and the inputs, in order, does
its work, and says what is printed, what is written to a file, and with which status it ends. The
first step that fails decides the error. Nothing is printed or written before all steps are done.

Settings are what a configuration file can say: other labels for display text. Every setting may be
left out. As a record, settings are strict: a field they do not know makes them unreadable. They are
read from JSON and from TOML.

| here | there |
| --- | --- |
| `Settings`, `Settings.labels` | `FormatConfig`, `Config::formatter` |
| `Settings.ofToml?`, `loadLabels` | `Config::load` |
| `load` | `read_json` |
| `Command.load`, `Job.work` | `cmd_eval`, `cmd_cast`, `cmd_reconcile`, `cmd_compile`: what they read, and what they do |
| `Product.report` | how these four answer, through `print_json` |
| `RunError.report` | `fail`, `report_error` |
| `runWords` | `main` |
-/
namespace FormPress

/-! ## Settings -/

/-- The labels that a configuration overrides. -/
structure Settings where
  trueLabel : Option String := none
  falseLabel : Option String := none
  separator : Option String := none
  choices : FieldMap String := .empty
  deriving DecidableEq

namespace Settings

/-- The labels under these settings. -/
def labels (s : Settings) : Labels :=
  let standard : Labels := {}
  { trueLabel := s.trueLabel.getD standard.trueLabel
    falseLabel := s.falseLabel.getD standard.falseLabel
    separator := s.separator.getD standard.separator
    choices := s.choices }

/-- A record that has no other fields than the named ones. -/
def closedRecord (names : List String) : Wire.Reader (List (Option Json)) := fun j =>
  match j with
  | .obj fields => if fields.all (fun f => names.contains f.1) then Wire.record names j else none
  | _ => Wire.record names j

/-- Reads the settings on display text. -/
def ofFormat? : Wire.Reader Settings := fun j => do
  match ← closedRecord ["true_label", "false_label", "separator", "choices"] j with
  | [trueLabel, falseLabel, separator, choices] =>
    return {
      trueLabel := ← Wire.optionField Wire.text trueLabel
      falseLabel := ← Wire.optionField Wire.text falseLabel
      separator := ← Wire.optionField Wire.text separator
      choices := ← Wire.withDefault .empty (Wire.table Wire.text) choices }
  | _ => none

def ofJson? : Wire.Reader Settings := fun j => do
  match ← closedRecord ["format"] j with
  | [format] => Wire.withDefault {} ofFormat? format
  | _ => none

/-- An array without the items behind a number of them. -/
def shorten (n : Nat) : Json → Json
  | .arr js => .arr (js.take n)
  | j => j

/-- Reads a TOML text. In TOML, items behind the last setting of an array do not count. -/
def ofToml? (text : String) : Option Settings := do
  match ← closedRecord ["format"] (← Toml.parse? text).toJson with
  | [format] => Wire.withDefault {} (fun j => ofFormat? (shorten 4 j)) format
  | _ => none

end Settings

/-! ## A run -/

/-- What a run sees of the files: the text of a path, if it can be read as text, and whether a path
can be written. -/
structure Files where
  read : String → Option String
  writable : String → Bool

/-- What an input file holds, by its name in messages. -/
inductive Input
  | condition | data | value | columns | document | subData
  deriving DecidableEq

def Input.name : Input → String
  | condition => "expression"
  | data => "data"
  | value => "value"
  | columns => "columns"
  | document => "document"
  | subData => "sub-data"

/-- Why a run fails. -/
inductive RunError
  | configUnreadable (path : String)
  | configMalformed (path : String)
  | inputUnreadable (input : Input) (path : String)
  | inputMalformed (input : Input) (path : String)
  | condition (e : ConditionError)
  | compile (e : CompileError)
  | unwritable (path : String)
  deriving DecidableEq

def RunError.message : RunError → String
  | configUnreadable path => "error: could not read '" ++ path ++ "': no readable text"
  | configMalformed path => "error: could not parse '" ++ path ++ "': no valid settings"
  | inputUnreadable input path => "error: " ++ input.name ++ " file not found: " ++ path
  | inputMalformed input path =>
    "error: invalid " ++ input.name ++ " in " ++ path ++ ": malformed or of another shape"
  | condition e => "error: " ++ e.message
  | compile e => "error: " ++ e.message
  | unwritable path => "error: could not write " ++ path ++ ": no writable file"

/-! ### Loading -/

/-- A command with all that it works on. -/
inductive Job
  | evaluate (condition : Condition) (data : Data)
  | cast (value : Value) (target : Kind)
  | reconcile (data : Data) (columns : Columns) (submission : Bool)
  | compile (labels : Labels) (document : Document) (ctx : Context) (out : Option String)

/-- The labels under the settings at a path, the standard ones without a path. -/
def loadLabels (files : Files) : Option String → Except RunError Labels
  | none => .ok {}
  | some path =>
    match files.read path with
    | none => .error (.configUnreadable path)
    | some text =>
      match Settings.ofToml? text with
      | none => .error (.configMalformed path)
      | some settings => .ok settings.labels

/-- The value that an input file holds. -/
def load {α : Type} (files : Files) (input : Input) (read : Wire.Reader α) (path : String) :
    Except RunError α :=
  match files.read path with
  | none => .error (.inputUnreadable input path)
  | some text =>
    match (Json.parse? text).bind read with
    | none => .error (.inputMalformed input path)
    | some a => .ok a

/-- The value that an input file holds, if there is one. -/
def loadOptional {α : Type} (files : Files) (input : Input) (read : Wire.Reader α) :
    Option String → Except RunError (Option α)
  | none => .ok none
  | some path => do return some (← load files input read path)

/-- Loads what a command works on. -/
def Command.load (labels : Labels) (files : Files) : Command → Except RunError Job
  | .evaluate condition data => do
    let condition ← FormPress.load files .condition Condition.ofJson? condition
    let data ← FormPress.load files .data Data.ofJson? data
    return .evaluate condition data
  | .cast value target => do
    let value ← FormPress.load files .value Value.ofJson? value
    return .cast value target
  | .reconcile data columns submission => do
    let data ← FormPress.load files .data Data.ofJson? data
    let columns ← FormPress.load files .columns Columns.ofJson? columns
    return .reconcile data columns submission
  | .compile document data subData out => do
    let document ← FormPress.load files .document Document.ofJson? document
    let data ← loadOptional files .data Data.ofJson? data
    let subData ← loadOptional files .subData SubData.ofJson? subData
    return .compile labels document ⟨data.getD .empty, subData⟩ out

/-- Loads the settings and then the inputs. -/
def Invocation.load (inv : Invocation) (files : Files) : Except RunError Job := do
  let labels ← loadLabels files inv.options.config
  inv.command.load labels files

/-! ### Work -/

/-- What a job comes to: an answer to print, or markup that belongs into a file. -/
inductive Product
  | verdict (b : Bool)
  | json (j : Json)
  | markup (text : String)
  | file (path text : String)

/-- Blames a failure on the run. -/
def failRun {ε α : Type} (wrap : ε → RunError) (x : Except (Failure ε) α) :
    Except (Failure RunError) α :=
  x.mapError fun
    | .abort a => .abort a
    | .error e => .error (wrap e)

def Job.work (writable : String → Bool) : Job → Except (Failure RunError) Product
  | .evaluate condition data => do
    return .verdict (← failRun .condition (condition.evaluate data))
  | .cast value target => .ok (.json (Wire.ofOption Value.toJson (value.cast target)))
  | .reconcile data columns submission =>
    .ok (.json (if submission then (data.submit columns).toJson
      else (data.reconcile columns).toJson))
  | .compile labels document ctx out => do
    let text ← failRun .compile (document.compile labels ctx)
    match out with
    | none => return .markup text
    | some path =>
      if writable path then return .file path text else throw (.error (.unwritable path))

def Job.events : Job → List Event
  | .evaluate condition data => condition.events data
  | .cast value target => value.castEvents target
  | .reconcile data columns submission =>
    if submission then [] else data.reconcileEvents columns
  | .compile labels document ctx _ => document.events labels.display ctx

/-! ### Outcome -/

/-- How a run ends, what it prints, and the file it writes, with its text. -/
structure Outcome where
  status : Nat
  stdout : String
  stderr : String
  written : Option (String × String)
  deriving DecidableEq

def prettyLine (j : Json) : String := j.pretty ++ "\n"

/-- What is printed of a product, on either stream. -/
def Product.report (options : Options) : Product → Outcome
  | .verdict b =>
    match options.output with
    | .text => ⟨0, String.ofList (Json.boolWord b) ++ "\n", "", none⟩
    | .json => ⟨0, prettyLine (.obj [("result", .bool b)]), "", none⟩
  | .json j => ⟨0, prettyLine j, "", none⟩
  | .markup text =>
    match options.output with
    | .text => ⟨0, text, "", none⟩
    | .json => ⟨0, prettyLine (.obj [("markup", .str text)]), "", none⟩
  | .file path text =>
    let summary := Json.obj [("bytes", .int text.utf8ByteSize), ("written", .str path)]
    match options.quiet, options.output with
    | true, _ => ⟨0, "", "", some (path, text)⟩
    | false, .text => ⟨0, "", "wrote " ++ path ++ "\n", some (path, text)⟩
    | false, .json => ⟨0, prettyLine summary, "", some (path, text)⟩

def RunError.report (options : Options) (e : RunError) : Outcome :=
  let line :=
    match options.quiet, options.output with
    | true, _ => ""
    | false, .text => e.message ++ "\n"
    | false, .json => (Json.obj [("error", .str e.message)]).print ++ "\n"
  ⟨1, "", line, none⟩

/-- Loads and works. -/
def Invocation.execute (inv : Invocation) (files : Files) : Except (Failure RunError) Product := do
  let job ← (inv.load files).mapError Failure.error
  job.work files.writable

/-- The outcome of a run, unless reading a text breaks off. -/
def Invocation.run (inv : Invocation) (files : Files) : Except Abort Outcome :=
  match inv.execute files with
  | .ok product => .ok (product.report inv.options)
  | .error (.error e) => .ok (e.report inv.options)
  | .error (.abort a) => .error a

/-- The events of a run. -/
def Invocation.events (inv : Invocation) (files : Files) : List Event :=
  match inv.load files with
  | .ok job => job.events
  | .error _ => []

/-- The paths that a run may read. -/
def Invocation.inputs (inv : Invocation) : List String :=
  inv.options.config.toList ++
    match inv.command with
    | .evaluate condition data => [condition, data]
    | .cast value _ => [value]
    | .reconcile data columns _ => [data, columns]
    | .compile document data subData _ => document :: (data.toList ++ subData.toList)

/-! ### Command lines -/

def versionLine : String := "cellform 0.1.0\n"

def usage : String :=
  "Usage: cellform [--output text|json] [--quiet] [--config <file>] <command>\n\n"
    ++ "  eval <expression> --data <file>\n"
    ++ "  cast <value> --kind <kind>\n"
    ++ "  reconcile <data> --columns <file> [--submission]\n"
    ++ "  compile <document> [--data <file>] [--sub-data <file>] [--out <file>]\n"

/-- The outcome of a command line. A wrong one ends with status 2. -/
def runWords (words : List String) (files : Files) : Except Abort Outcome :=
  match Request.ofWords? words with
  | none => .ok ⟨2, "", usage, none⟩
  | some .version => .ok ⟨0, versionLine, "", none⟩
  | some .help => .ok ⟨0, usage, "", none⟩
  | some (.run inv) => inv.run files

end FormPress
