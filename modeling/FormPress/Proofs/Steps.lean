import FormPress.CommandLine.Run
import FormPress.Proofs.Outcome
/-!
# Steps of a run

A run takes its steps in order: the settings, the inputs as the command reads them, the work, and the
file written in the end. Whether a step can be taken is a question about the files alone, whatever the
other steps come to, and a run goes as far as the first step that fails (`Invocation.execute_alike`).

Main theorem `Invocation.run_stops`: a run has status 1 exactly if one of its steps fails. It reports the
failure of the first of these, prints no answer and writes no file. How answers are written and whether
they are suppressed changes neither the status nor the file; and of the answers, suppressing takes away
nothing but the summary of a file that has been written.

| here | there |
| --- | --- |
| `Invocation.steps`, `Command.steps` | the order of `Config::load`, `read_json`, the work and `write` in `main` and the four commands |
| `Invocation.attempt` | whether one of these fails, by itself |
-/
namespace FormPress

/-! ## Attempts in a row -/

section Attempts

variable {σ ε α β : Type}

/-- The steps before `s` succeed, and `s` fails with `e`. -/
def StopsAt (attempt : σ → Except ε Unit) (steps : List σ) (s : σ) (e : ε) : Prop :=
  ∃ before after, steps = before ++ s :: after ∧ (∀ u ∈ before, attempt u = .ok ()) ∧
    attempt s = .error e

theorem stopsAt_cons {attempt : σ → Except ε Unit} {t : σ} {steps : List σ} {s : σ} {e : ε} :
    StopsAt attempt (t :: steps) s e ↔
      (t = s ∧ attempt s = .error e) ∨ (attempt t = .ok () ∧ StopsAt attempt steps s e) := by
  constructor
  · rintro ⟨before, after, hsteps, hbefore, hs⟩
    cases before with
    | nil =>
      obtain ⟨rfl, rfl⟩ := List.cons.inj hsteps
      exact .inl ⟨rfl, hs⟩
    | cons u before =>
      obtain ⟨rfl, rfl⟩ := List.cons.inj hsteps
      exact .inr ⟨hbefore _ (by simp), before, after, rfl, fun u hu => hbefore u (by simp [hu]), hs⟩
  · rintro (⟨rfl, hs⟩ | ⟨ht, before, after, rfl, hbefore, hs⟩)
    · exact ⟨[], steps, rfl, by simp, hs⟩
    · refine ⟨t :: before, after, rfl, ?_, hs⟩
      intro u hu
      rcases List.mem_cons.1 hu with rfl | hu
      · exact ht
      · exact hbefore u hu

/-- Steps in a row fail with what the first step that fails fails with. -/
theorem forM_eq_error_iff {attempt : σ → Except ε Unit} {steps : List σ} {e : ε} :
    forM steps attempt = .error e ↔ ∃ s, StopsAt attempt steps s e := by
  induction steps with
  | nil =>
    constructor
    · intro h
      cases h
    · rintro ⟨s, before, after, h, -⟩
      simp at h
  | cons t steps ih =>
    rw [List.forM_cons, bind_eq_error_iff, ih]
    simp only [stopsAt_cons]
    constructor
    · rintro (ht | ⟨_, ht, s, hs⟩)
      · exact ⟨t, .inl ⟨rfl, ht⟩⟩
      · exact ⟨s, .inr ⟨ht, hs⟩⟩
    · rintro ⟨s, ⟨rfl, hs⟩ | ⟨ht, hs⟩⟩
      · exact .inl hs
      · exact .inr ⟨(), ht, s, hs⟩

end Attempts

/-! ## The steps of a run -/

/-- What a run does, apart from printing. -/
inductive Step
  | settings (path : String)
  | input (input : Input) (path : String)
  | work
  | write (path : String)
  deriving DecidableEq

/-- The steps of a command. Casting and reconciling cannot fail and are no steps of their own. -/
def Command.steps : Command → List Step
  | .evaluate condition data => [.input .condition condition, .input .data data, .work]
  | .cast value _ => [.input .value value]
  | .reconcile data columns _ => [.input .data data, .input .columns columns]
  | .compile document data subData out =>
    .input .document document ::
      (data.toList.map (.input .data) ++ (subData.toList.map (.input .subData) ++
        .work :: out.toList.map .write))

def Invocation.steps (inv : Invocation) : List Step :=
  inv.options.config.toList.map .settings ++ inv.command.steps

/-- Whether an input can be made of a JSON value. -/
def Input.accepts : Input → Json → Bool
  | .condition, j => (Condition.ofJson? j).isSome
  | .data, j => (Data.ofJson? j).isSome
  | .value, j => (Value.ofJson? j).isSome
  | .columns, j => (Columns.ofJson? j).isSome
  | .document, j => (Document.ofJson? j).isSome
  | .subData, j => (SubData.ofJson? j).isSome

namespace Files

/-- What the text at a path stands for, if it can be read as such. -/
def holds? {α : Type} (files : Files) (read : Wire.Reader α) (path : String) : Option α :=
  (files.read path).bind fun text => (Json.parse? text).bind read

/-- The labels under the settings at a path. -/
def labels (files : Files) (config : Option String) : Labels :=
  match config.bind fun path => (files.read path).bind Settings.ofToml? with
  | none => {}
  | some settings => settings.labels

end Files

/-- Works on the inputs, if the files hold them. -/
def Invocation.attemptWork (inv : Invocation) (files : Files) : Except (Failure RunError) Unit :=
  match inv.command with
  | .evaluate condition data =>
    match files.holds? Condition.ofJson? condition, files.holds? Data.ofJson? data with
    | some condition, some data => do
      let _ ← failRun .condition (condition.evaluate data)
      return ()
    | _, _ => .ok ()
  | .compile document data subData _ =>
    match files.holds? Document.ofJson? document with
    | some document => do
      let data := data.bind (files.holds? Data.ofJson?)
      let subData := subData.bind (files.holds? SubData.ofJson?)
      let _ ← failRun .compile
        (document.compile (files.labels inv.options.config) ⟨data.getD .empty, subData⟩)
      return ()
    | none => .ok ()
  | _ => .ok ()

/-- Whether a step can be taken, by the files alone. -/
def Invocation.attempt (inv : Invocation) (files : Files) : Step → Except (Failure RunError) Unit
  | .settings path =>
    match files.read path with
    | none => .error (.error (.configUnreadable path))
    | some text =>
      if (Settings.ofToml? text).isSome then .ok () else .error (.error (.configMalformed path))
  | .input input path =>
    match files.read path with
    | none => .error (.error (.inputUnreadable input path))
    | some text =>
      if (Json.parse? text).any input.accepts then .ok ()
      else .error (.error (.inputMalformed input path))
  | .work => inv.attemptWork files
  | .write path => if files.writable path then .ok () else .error (.error (.unwritable path))

/-- A run stops at a step: those before it can be taken, and it fails. -/
def Invocation.StopsAt (inv : Invocation) (files : Files) : Step → Failure RunError → Prop :=
  FormPress.StopsAt (inv.attempt files) inv.steps

/-! ## A run takes its steps -/

/-- A product goes into a file only where the command names one. -/
def Product.FitsOut (command : Command) : Product → Prop
  | .file path _ => ∃ document data subData, command = .compile document data subData (some path)
  | _ => True

section Steps

variable (inv : Invocation) (files : Files)

theorem loadLabels_alike (config : Option String) :
    Alike (fun labels _ => labels = files.labels config)
      ((loadLabels files config).mapError Failure.error)
      (forM (config.toList.map Step.settings) (inv.attempt files)) := by
  cases config with
  | none => exact .ok rfl
  | some path =>
    simp only [Option.toList_some, List.map_singleton, List.forM_cons, loadLabels, Files.labels,
      Invocation.attempt, Option.bind_some]
    cases files.read path with
    | none => exact .error (Failure.error (RunError.configUnreadable path))
    | some text =>
      simp only [Option.bind_some]
      cases Settings.ofToml? text with
      | none => exact .error (Failure.error (RunError.configMalformed path))
      | some settings => exact .ok rfl

variable {α : Type} {input : Input} {read : Wire.Reader α}

theorem load_alike (hread : ∀ j, input.accepts j = (read j).isSome) (path : String) :
    Alike (fun a _ => files.holds? read path = some a)
      ((load files input read path).mapError Failure.error)
      (inv.attempt files (.input input path)) := by
  simp only [load, Files.holds?, Invocation.attempt]
  cases files.read path with
  | none => exact .error (Failure.error (RunError.inputUnreadable input path))
  | some text =>
    simp only [Option.bind_some]
    cases Json.parse? text with
    | none => exact .error (Failure.error (RunError.inputMalformed input path))
    | some j =>
      simp only [Option.any_some, hread, Option.bind_some]
      cases read j with
      | none => exact .error (Failure.error (RunError.inputMalformed input path))
      | some a => exact .ok rfl

theorem loadOptional_alike (hread : ∀ j, input.accepts j = (read j).isSome)
    (path : Option String) :
    Alike (fun a _ => path.bind (files.holds? read) = a)
      ((loadOptional files input read path).mapError Failure.error)
      (forM (path.toList.map (Step.input input)) (inv.attempt files)) := by
  cases path with
  | none => exact .ok rfl
  | some path =>
    rw [loadOptional, mapError_bind, Option.toList_some, List.map_singleton, List.forM_cons]
    refine (load_alike inv files hread path).bind fun a _ ha => ?_
    exact .ok ha

/-- A command does its work by taking its steps. -/
theorem command_alike (options : Options) (command : Command) :
    Alike (fun product _ => product.FitsOut command)
      ((command.load (files.labels options.config) files).mapError Failure.error >>=
        Job.work files.writable)
      (forM command.steps (Invocation.attempt ⟨options, command⟩ files)) := by
  cases command with
  | evaluate condition data =>
    -- The inputs are loaded beside their steps. The work is then on what the files hold, on both sides.
    simp only [Command.load, Command.steps, mapError_bind, bind_assoc, List.forM_cons, List.forM_nil]
    refine (load_alike _ files (fun _ => rfl) condition).bind fun c _ hc => ?_
    refine (load_alike _ files (fun _ => rfl) data).bind fun d _ hd => ?_
    simp only [Except.mapError, pure_eq_ok, ok_bind, Job.work, Invocation.attempt,
      Invocation.attemptWork, hc, hd]
    cases failRun RunError.condition (c.evaluate d) with
    | error e => exact .error e
    | ok b => exact .ok trivial
  | cast value target =>
    simp only [Command.load, Command.steps, mapError_bind, bind_assoc, List.forM_cons, List.forM_nil]
    refine (load_alike _ files (fun _ => rfl) value).bind fun v _ _ => ?_
    exact .ok (a := Product.json _) trivial
  | reconcile data columns submission =>
    simp only [Command.load, Command.steps, mapError_bind, bind_assoc, List.forM_cons, List.forM_nil]
    refine (load_alike _ files (fun _ => rfl) data).bind fun d _ _ => ?_
    refine (load_alike _ files (fun _ => rfl) columns).bind fun c _ _ => ?_
    exact .ok (a := Product.json _) trivial
  | compile document data subData out =>
    simp only [Command.load, Command.steps, mapError_bind, bind_assoc, List.forM_cons,
      List.forM_append]
    refine (load_alike _ files (fun _ => rfl) document).bind fun doc _ hdoc => ?_
    refine (loadOptional_alike _ files (fun _ => rfl) data).bind fun d _ hd => ?_
    refine (loadOptional_alike _ files (fun _ => rfl) subData).bind fun sub _ hsub => ?_
    simp only [Except.mapError, pure_eq_ok, ok_bind, Job.work, Invocation.attempt,
      Invocation.attemptWork, hdoc, hd, hsub]
    cases failRun RunError.compile
      (doc.compile (files.labels options.config) ⟨d.getD .empty, sub⟩) with
    | error e => exact .error e
    | ok text =>
      cases out with
      | none => exact .ok trivial
      | some path =>
        simp only [ok_bind, Option.toList_some, List.map_singleton, List.forM_cons,
          Invocation.attempt]
        cases files.writable path with
        | false => exact .error (Failure.error (RunError.unwritable path))
        | true => exact .ok ⟨document, data, subData, rfl⟩

/-- A run executes by taking its steps, up to the first that stops it. -/
theorem Invocation.execute_alike :
    Alike (fun product _ => product.FitsOut inv.command) (inv.execute files)
      (forM inv.steps (inv.attempt files)) := by
  unfold Invocation.execute Invocation.load Invocation.steps
  rw [mapError_bind, bind_assoc, List.forM_append]
  refine (loadLabels_alike inv files inv.options.config).bind fun labels _ hlabels => ?_
  subst hlabels
  exact command_alike files inv.options inv.command

/-- A run fails with what the first step that stops it fails with. -/
theorem Invocation.execute_eq_error_iff {e : Failure RunError} :
    inv.execute files = .error e ↔ ∃ s, inv.StopsAt files s e := by
  rw [(inv.execute_alike files).eq_error_iff]
  exact forM_eq_error_iff

variable {inv files}

theorem Invocation.StopsAt.unique {s s' : Step} {e e' : Failure RunError}
    (h : inv.StopsAt files s e) (h' : inv.StopsAt files s' e') : e = e' := by
  have hexec := (inv.execute_eq_error_iff files).2 ⟨s, h⟩
  rw [(inv.execute_eq_error_iff files).2 ⟨s', h'⟩] at hexec
  exact (Except.error.inj hexec).symm

theorem Invocation.not_stopsAt_of_execute {product : Product} (h : inv.execute files = .ok product)
    (s : Step) (e : Failure RunError) : ¬ inv.StopsAt files s e := by
  intro hs
  rw [(inv.execute_eq_error_iff files).2 ⟨s, hs⟩] at h
  cases h

theorem Invocation.fitsOut_of_execute {product : Product} (h : inv.execute files = .ok product) :
    product.FitsOut inv.command := by
  obtain ⟨_, _, hfits⟩ := (inv.execute_alike files).exists_of_eq_ok h
  exact hfits

/-- Reading breaks off at no step but the work. -/
theorem Invocation.StopsAt.eq_work {s : Step} {a : Abort}
    (h : inv.StopsAt files s (.abort a)) : s = .work := by
  obtain ⟨_, _, _, _, h⟩ := h
  cases s with
  | work => rfl
  | settings _ | input _ _ | write _ =>
    exfalso
    simp only [Invocation.attempt] at h
    repeat' split at h
    all_goals cases h

end Steps

/-! ## What is printed of a product -/

/-- What is printed in JSON about a file that has been written. -/
def summaryLine (path text : String) : String :=
  prettyLine (.obj [("bytes", .int text.utf8ByteSize), ("written", .str path)])

namespace Product

/-- The file that a product goes into, with its text. -/
def written? : Product → Option (String × String)
  | .file path text => some (path, text)
  | _ => none

variable (product : Product) (options : Options)

theorem report_status : (product.report options).status = 0 := by
  unfold report
  repeat' split
  all_goals rfl

theorem report_written : (product.report options).written = product.written? := by
  unfold report
  repeat' split
  all_goals rfl

/-- What is printed depends on how answers are written, and on whether they are suppressed only for
the summary of a file. -/
theorem report_stdout (quiet : Bool) :
    (product.report { options with quiet }).stdout = (product.report options).stdout ∨
      ∃ path text, product = .file path text ∧ options.output = .json ∧
        (product.report options).stdout = (if options.quiet then "" else summaryLine path text) ∧
        (product.report { options with quiet }).stdout =
          if quiet then "" else summaryLine path text := by
  cases product with
  | verdict b => exact .inl rfl
  | json j => exact .inl rfl
  | markup text => exact .inl rfl
  | file path text =>
    obtain ⟨output, q, config⟩ := options
    cases output with
    | text =>
      left
      cases q <;> cases quiet <;> rfl
    | json =>
      refine .inr ⟨path, text, rfl, rfl, ?_, ?_⟩
      · cases q <;> rfl
      · cases quiet <;> rfl

end Product

/-! ## Outcomes of runs -/

/-- The same invocation with answers written in another way, or suppressed or not. -/
def Invocation.under (inv : Invocation) (output : OutputForm) (quiet : Bool) : Invocation :=
  { inv with options := { inv.options with output, quiet } }

theorem Invocation.execute_under (inv : Invocation) (files : Files) (output : OutputForm)
    (quiet : Bool) : (inv.under output quiet).execute files = inv.execute files := rfl

/-- Suppressing takes nothing from what a command prints but the summary of a file that it names. -/
theorem Invocation.report_suppressed {inv : Invocation} {files : Files} {product : Product}
    (h : inv.execute files = .ok product) (quiet : Bool) :
    (product.report { inv.options with quiet }).stdout = (product.report inv.options).stdout ∨
      ∃ document data subData path text,
        inv.command = .compile document data subData (some path) ∧ inv.options.output = .json ∧
        (product.report inv.options).written = some (path, text) ∧
        (product.report inv.options).stdout =
          (if inv.options.quiet then "" else summaryLine path text) ∧
        (product.report { inv.options with quiet }).stdout =
          if quiet then "" else summaryLine path text := by
  rcases product.report_stdout inv.options quiet with heq | ⟨path, text, hfile, hjson, hout, hout'⟩
  · exact .inl heq
  · have hfits := Invocation.fitsOut_of_execute h
    rw [hfile] at hfits
    obtain ⟨document, data, subData, hcommand⟩ := hfits
    refine .inr ⟨document, data, subData, path, text, hcommand, hjson, ?_, hout, hout'⟩
    rw [product.report_written, hfile, Product.written?]

/-- **A failing run leaves nothing behind.** Unless reading a text breaks off in its work, a run ends with
status 0 or 1, and with 1 exactly if one of its steps fails. It reports then how the first such step
fails, prints no answer and writes no file. How answers are written and whether they are suppressed
decides neither the status nor what is written; and suppressing changes an answer only where it is the
summary of a file. -/
theorem Invocation.run_stops (inv : Invocation) (files : Files)
    (hread : ∀ a, ¬ inv.StopsAt files .work (.abort a)) :
    ∃ o, inv.run files = .ok o ∧ (o.status = 0 ∨ o.status = 1) ∧
      (o.status = 1 ↔ ∃ s e, inv.StopsAt files s (.error e)) ∧
      (∀ s e, inv.StopsAt files s (.error e) →
        o.stdout = "" ∧
        o.stderr = (if inv.options.quiet then "" else
          match inv.options.output with
          | .text => e.message ++ "\n"
          | .json => (Json.obj [("error", .str e.message)]).print ++ "\n") ∧
        ((∀ path, s ≠ .write path) → o.written = none)) ∧
      ∀ output quiet, ∃ o', (inv.under output quiet).run files = .ok o' ∧
        o'.status = o.status ∧ o'.written = o.written ∧
        (output = inv.options.output → o'.stdout = o.stdout ∨
          ∃ document data subData path text,
            inv.command = .compile document data subData (some path) ∧ output = .json ∧
            o.written = some (path, text) ∧
            o.stdout = (if inv.options.quiet then "" else summaryLine path text) ∧
            o'.stdout = if quiet then "" else summaryLine path text) := by
  unfold Invocation.run
  simp only [Invocation.execute_under]
  cases hexec : inv.execute files with
  | ok product =>
    have hnone := Invocation.not_stopsAt_of_execute hexec
    refine ⟨product.report inv.options, rfl, .inl (product.report_status _), ?_, ?_, ?_⟩
    · rw [product.report_status]
      constructor
      · intro h
        cases h
      · rintro ⟨s, e, hs⟩
        exact absurd hs (hnone s _)
    · intro s e hs
      exact absurd hs (hnone s _)
    · intro output quiet
      refine ⟨_, rfl, ?_, ?_, ?_⟩
      · rw [product.report_status, product.report_status]
      · rw [product.report_written, product.report_written]
      · rintro rfl
        exact Invocation.report_suppressed hexec quiet
  | error failure =>
    obtain ⟨s, hs⟩ := (inv.execute_eq_error_iff files).1 hexec
    cases failure with
    | abort a =>
      obtain rfl := hs.eq_work
      exact absurd hs (hread a)
    | error e =>
      refine ⟨e.report inv.options, rfl, .inr rfl, ?_, ?_, ?_⟩
      · exact ⟨fun _ => ⟨s, e, hs⟩, fun _ => rfl⟩
      · intro s' e' hs'
        obtain rfl := Failure.error.inj (hs.unique hs')
        refine ⟨rfl, ?_, fun _ => rfl⟩
        unfold RunError.report
        cases inv.options.quiet <;> cases inv.options.output <;> rfl
      · intro output quiet
        exact ⟨_, rfl, rfl, rfl, fun _ => .inl rfl⟩

/-- A folder with a notice in it and nothing else, where no file can be written. -/
def noticeFolder : Files where
  read path := if path = "notice.json" then some "[[\"Notice\"]]" else none
  writable _ := false

/-- The notice is compiled with rows that are not there, into a file that cannot be written. -/
def noticeRun : Invocation :=
  ⟨{}, .compile "notice.json" none (some "rows.json") (some "notice.typ")⟩

theorem run_noticeFolder :
    (∀ a, ¬ noticeRun.StopsAt noticeFolder .work (.abort a)) ∧
      noticeRun.StopsAt noticeFolder (.input .subData "rows.json")
        (.error (.inputUnreadable .subData "rows.json")) ∧
      noticeRun.attempt noticeFolder (.write "notice.typ") = .error (.error (.unwritable "notice.typ")) ∧
      ∃ o, noticeRun.run noticeFolder = .ok o ∧ o.status = 1 ∧ o.stdout = "" ∧
        o.stderr = "error: sub-data file not found: rows.json\n" ∧ o.written = none := by
  have hread : ∀ a, ¬ noticeRun.StopsAt noticeFolder .work (.abort a) := by
    rintro a ⟨_, _, _, _, h⟩
    have hwork : noticeRun.attempt noticeFolder .work = .ok () := by decide +kernel
    rw [hwork] at h
    cases h
  have hstops : noticeRun.StopsAt noticeFolder (.input .subData "rows.json")
      (.error (.inputUnreadable .subData "rows.json")) := by
    refine ⟨[.input .document "notice.json"], [.work, .write "notice.typ"], rfl, ?_, rfl⟩
    intro u hu
    obtain rfl := List.mem_singleton.1 hu
    decide +kernel
  obtain ⟨o, hrun, -, hstatus, hfails, -⟩ := Invocation.run_stops noticeRun noticeFolder hread
  obtain ⟨hout, herr, hwritten⟩ := hfails _ _ hstops
  have hnone : o.written = none := hwritten (by simp)
  exact ⟨hread, hstops, rfl, o, hrun, hstatus.2 ⟨_, _, hstops⟩, hout, herr, hnone⟩

end FormPress
