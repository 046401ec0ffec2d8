import FormPress.Document.Render
/-!
# The log

What can be worth a line in the log, how important it is, and the line itself. A log is kept from a
level on: the events below it are left out. The events of an evaluation, a reconciliation or a
compilation stand in the order in which they happen. A trace follows what is traced: it ends where
that fails or breaks off.

| here | there |
| --- | --- |
| `Level.threshold?`, `Event.filter` | `EnvFilter` |
| `Event` | the calls of `tracing` in `reconcile_row`, `evaluate_binary`, `section`, `list_placeholder` and `cmd_cast` |
| `Data.reconcileEvents` | what `reconcile_row` logs |
| `Comparison.events`, `Condition.events` | what `evaluate_binary` logs, and under `evaluate` |
| `Document.events` | what `compile` logs |
-/
namespace FormPress

/-! ## Events -/

/-- How important an event is, from the least to the most. -/
inductive Level
  | trace | debug | info | warn | error
  deriving DecidableEq

namespace Level

def rank : Level → Nat
  | trace => 0
  | debug => 1
  | info => 2
  | warn => 3
  | error => 4

/-- The level as it stands at the head of a line. -/
def name : Level → String
  | trace => "TRACE"
  | debug => "DEBUG"
  | info => "INFO"
  | warn => "WARN"
  | error => "ERROR"

/-- The level that a log is kept from, by its name; `off` keeps none. -/
def threshold? : String → Option (Option Level)
  | "trace" => some (some trace)
  | "debug" => some (some debug)
  | "info" => some (some info)
  | "warn" => some (some warn)
  | "error" => some (some error)
  | "off" => some none
  | _ => none

end Level

inductive Event
  /-- A cast found no value of the target kind. -/
  | notCastable (stored target : Kind)
  /-- A row lost a value that no column holds any more. -/
  | unknownColumn (field : String)
  /-- A row lost a value that no longer fits its column. -/
  | columnMismatch (field : String) (stored declared : Kind)
  /-- A comparison could not be decided. -/
  | comparisonFailed (comparison : Comparison) (error : ConditionError)
  /-- A section was left out, with so many blocks. -/
  | sectionSkipped (blocks : Nat)
  /-- There were no rows of a placeholder list's id. -/
  | rowsMissing (id : String)
  /-- A placeholder list kept some of its rows. -/
  | rowsKept (id : String) (rows kept : Nat)

namespace Event

def level : Event → Level
  | notCastable .. => .info
  | unknownColumn _ | columnMismatch .. | comparisonFailed .. => .debug
  | sectionSkipped _ | rowsMissing _ | rowsKept .. => .trace

/-- The part of the program that an event belongs to. -/
def target : Event → String
  | notCastable .. => "cellform::commands::cast"
  | unknownColumn _ | columnMismatch .. => "cellform_core::cast"
  | comparisonFailed .. => "cellform_eval::evaluate"
  | sectionSkipped _ | rowsMissing _ | rowsKept .. => "cellform_codegen::compile"

/-- What happened, and to what. -/
def message : Event → String
  | notCastable stored target =>
    "value not castable from=" ++ stored.name ++ " to=" ++ target.name
  | unknownColumn field => "dropping value for unknown column field=" ++ field
  | columnMismatch field stored declared =>
    "dropping value that no longer matches its column field=" ++ field ++ " stored="
      ++ stored.name ++ " declared=" ++ declared.name
  | comparisonFailed comparison error =>
    "condition failed field=" ++ comparison.field ++ " operator=" ++ comparison.operator.name
      ++ " error=" ++ error.message
  | sectionSkipped blocks => "section condition false, skipping blocks=" ++ toString blocks
  | rowsMissing id => "no rows for list placeholder placeholder=" ++ id
  | rowsKept id rows kept =>
    "list placeholder placeholder=" ++ id ++ " rows=" ++ toString rows ++ " kept="
      ++ toString kept

/-- The line of an event. -/
def line (e : Event) : String := e.level.name ++ " " ++ e.target ++ ": " ++ e.message

/-- The events from a level on; a log that is off keeps none. -/
def filter (threshold : Option Level) (events : List Event) : List Event :=
  match threshold with
  | none => []
  | some least => events.filter fun e => least.rank ≤ e.level.rank

end Event

/-! ## Traces -/

/-- The event of a cast that found no value. -/
def Value.castEvents (v : Value) (target : Kind) : List Event :=
  if (v.cast target).isNone then [.notCastable v.kind target] else []

/-- The events of the values that a row loses, in the order of their ids. -/
def Data.reconcileEvents (data : Data) (columns : Columns) : List Event :=
  data.entries.flatMap fun (id, v) =>
    match columns.get? id with
    | none => [.unknownColumn id]
    | some kind => if (v.cast kind).isNone then [.columnMismatch id v.kind kind] else []

/-! ### Conditions -/

def Comparison.events (c : Comparison) (data : Data) : List Event :=
  match c.evaluate data with
  | .error (.error e) => [.comparisonFailed c e]
  | _ => []

/-- The event of the first member that is not the given verdict, if it fails. -/
def memberEvents (data : Data) (verdict : Bool) : List Comparison → List Event
  | [] => []
  | c :: cs =>
    match c.evaluate data with
    | .ok b => if b = verdict then memberEvents data verdict cs else []
    | .error _ => c.events data

def Condition.events (c : Condition) (data : Data) : List Event :=
  match c with
  | .single c => c.events data
  | .all members => memberEvents data true members
  | .any members => memberEvents data false members

/-! ### Documents -/

/-- The events of the members of a list up to the first that cannot be rendered. -/
def sequenceEvents {α : Type} (render : α → Compiled Markup) (events : α → List Event) :
    List α → List Event
  | [] => []
  | a :: as =>
    match render a with
    | .ok _ => events a ++ sequenceEvents render events as
    | .error _ => events a

/-- The event of the first row whose filter cannot be decided. -/
def RowList.filterEvents (format : Formatter) (rows : RowList) : List Data → List Event
  | [] => []
  | row :: more =>
    match rows.renderRows format [row] with
    | .ok _ => rows.filterEvents format more
    | .error _ => rows.filter.elim [] (·.events row)

def RowList.events (format : Formatter) (ctx : Context) (rows : RowList) : List Event :=
  match ctx.subData.bind (·.get? rows.id), rows.template with
  | none, _ => [.rowsMissing rows.id]
  | some _, [] => []
  | some data, _ :: _ =>
    match rows.renderRows format data with
    | .ok items => [.rowsKept rows.id data.length items.length]
    | .error _ => rows.filterEvents format data

def Block.events (format : Formatter) (ctx : Context) : Block → List Event
  | .rows _ repeated => repeated.events format ctx
  | _ => []

def Node.events (format : Formatter) (ctx : Context) : Node → List Event
  | .block b => b.events format ctx
  | .conditional condition blocks =>
    match condition.evaluate ctx.data with
    | .ok true => sequenceEvents (Block.render format ctx) (Block.events format ctx) blocks
    | .ok false => [.sectionSkipped blocks.length]
    | .error _ => condition.events ctx.data

def Document.events (format : Formatter) (doc : Document) (ctx : Context) : List Event :=
  sequenceEvents (Node.render format ctx) (Node.events format ctx) doc.content

end FormPress
