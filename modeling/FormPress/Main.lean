import FormPress.CommandLine.Run
/-!
# The program

Reads the files that a command line names, runs it, writes what the run writes, prints what it
prints. A run that breaks off ends with status 101. The log goes to the error stream; the variable
`RUST_LOG` names the level it is kept from, `warn` if it is not set.

| here | there |
| --- | --- |
| `readText`, `writeText` | `read_to_string`, `write` |
| `logEvents` | the layer that `main` sets up, with its `EnvFilter` |
| `runProgram` | `main` |
-/
namespace FormPress

/-- The text of a file, if it can be read as text. -/
def readText (path : String) : IO (Option String) := do
  try
    return some (← IO.FS.readFile path)
  catch _ => return none

/-- Writes a file and tells whether that was possible. -/
def writeText (path text : String) : IO Bool := do
  try
    IO.FS.writeFile path text
    return true
  catch _ => return false

/-- The files that a run may read, as they are now; every path counts as writable. -/
def snapshot (inv : Invocation) : IO Files := do
  let texts ← inv.inputs.mapM fun path => do return (path, ← readText path)
  return ⟨fun path => (texts.find? fun e => e.1 == path).bind (·.2), fun _ => true⟩

def logEvents (events : List Event) : IO Unit := do
  let name := (← IO.getEnv "RUST_LOG").getD ""
  let threshold := (Level.threshold? name).getD (some .warn)
  for event in Event.filter threshold events do
    IO.eprintln event.line

def finish (outcome : Outcome) : IO UInt32 := do
  IO.print outcome.stdout
  IO.eprint outcome.stderr
  return outcome.status.toUInt32

/-- Runs a command line and writes its file. If that turns out to be impossible, the run counts as
one without writable files. -/
def runProgram (words : List String) : IO UInt32 := do
  let files ←
    match Request.ofWords? words with
    | some (.run inv) => do
      let files ← snapshot inv
      logEvents (inv.events files)
      pure files
    | _ => pure ⟨fun _ => none, fun _ => true⟩
  match runWords words files with
  | .error _ => return 101
  | .ok outcome =>
    match outcome.written with
    | none => finish outcome
    | some (path, text) =>
      if ← writeText path text then finish outcome
      else
        match runWords words ⟨files.read, fun _ => false⟩ with
        | .error _ => return 101
        | .ok outcome => finish outcome

end FormPress

def main (args : List String) : IO UInt32 := FormPress.runProgram args
