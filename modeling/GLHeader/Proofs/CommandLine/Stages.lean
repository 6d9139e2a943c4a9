import GLHeader.Generation
import Mathlib.Data.List.Basic

namespace GLHeader

open GLHeader.Files

variable {σ α β ε ε' : Type}

def faultOf : Except ε α → Option ε
  | .error fault => some fault
  | .ok _ => none

theorem faultOf_mapError (failure : ε → ε') (result : Except ε α) :
    faultOf (result.mapError failure) = (faultOf result).map failure := by
  cases result <;> rfl

namespace Stage

def on (stage : Stage (StateM (Surroundings σ)) α) (desk : Surroundings σ) : Except Failure α × Surroundings σ :=
  stage.run.run desk

theorem on_bind_of_ok {stage : Stage (StateM (Surroundings σ)) α} {next : α → Stage (StateM (Surroundings σ)) β}
    {desk later : Surroundings σ} {value : α} (first : stage.on desk = (.ok value, later)) :
    (stage >>= next).on desk = (next value).on later := by
  unfold on at first ⊢
  rw [ExceptT.run_bind, StateT.run_bind, first]
  rfl

theorem on_bind_of_error {stage : Stage (StateM (Surroundings σ)) α}
    {next : α → Stage (StateM (Surroundings σ)) β} {desk later : Surroundings σ} {failure : Failure}
    (first : stage.on desk = (.error failure, later)) :
    (stage >>= next).on desk = (.error failure, later) := by
  unfold on at first ⊢
  rw [ExceptT.run_bind, StateT.run_bind, first]
  rfl

/-- A stage that looks for faults on the desk. It fails with the first one or gives a fit value, whatever
    has been logged, and it changes nothing but the log. -/
def Checks (stage : Stage (StateM (Surroundings σ)) α) (desk : Surroundings σ) (faults : List (Option Failure))
    (fit : α → Prop) : Prop :=
  -- The log is left open, since the stages before write to it.
  ∀ log, ∃ later,
    match faults.findSome? id with
    | some failure => stage.on { desk with log } = (.error failure, { desk with log := later })
    | none => ∃ value, fit value ∧ stage.on { desk with log } = (.ok value, { desk with log := later })

namespace Checks

variable {stage : Stage (StateM (Surroundings σ)) α} {desk : Surroundings σ} {faults others : List (Option Failure)}
  {fit : α → Prop} {fit' : β → Prop}

theorem fails (checks : stage.Checks desk faults fit) {failure : Failure}
    (first : faults.findSome? id = some failure) (log : List LogEntry) :
    ∃ later, stage.on { desk with log } = (.error failure, { desk with log := later }) := by
  have outcome := checks log
  rwa [first] at outcome

theorem succeeds (checks : stage.Checks desk faults fit) (sound : faults.findSome? id = none)
    (log : List LogEntry) :
    ∃ later value, fit value ∧ stage.on { desk with log } = (.ok value, { desk with log := later }) := by
  have outcome := checks log
  rwa [sound] at outcome

theorem value (checks : stage.Checks desk faults fit) (sound : faults.findSome? id = none) :
    ∃ value, fit value ∧ (stage.on desk).1 = .ok value := by
  obtain ⟨later, value, fits, on⟩ := checks.succeeds sound desk.log
  exact ⟨value, fits, congrArg Prod.fst on⟩

theorem sound_of_ok (checks : stage.Checks desk faults fit) {value : α}
    (accepted : (stage.on desk).1 = .ok value) : faults.findSome? id = none ∧ fit value := by
  cases first : faults.findSome? id with
  | some failure =>
    obtain ⟨later, on⟩ := checks.fails first desk.log
    have refused : (stage.on desk).1 = .error failure := congrArg Prod.fst on
    rw [accepted] at refused
    cases refused
  | none =>
    obtain ⟨other, fits, given⟩ := checks.value first
    obtain rfl : other = value := Except.ok.inj (given.symm.trans accepted)
    exact ⟨rfl, fits⟩

theorem mono {fit' : α → Prop} (checks : stage.Checks desk faults fit)
    (same : faults.findSome? id = others.findSome? id) (fits : ∀ value, fit value → fit' value) :
    stage.Checks desk others fit' := by
  intro log
  rw [← same]
  cases first : faults.findSome? id with
  | some failure => exact checks.fails first log
  | none =>
    obtain ⟨later, value, fitting, on⟩ := checks.succeeds first log
    exact ⟨later, value, fits value fitting, on⟩

theorem pure {value : α} (sound : faults.findSome? id = none) (fits : fit value) :
    Checks (Pure.pure value) desk faults fit := by
  intro log
  rw [sound]
  exact ⟨log, value, fits, rfl⟩

theorem throw (failure : Failure) : Checks (throw failure) desk [some failure] fit := fun log => ⟨log, rfl⟩

theorem of_run {action : StateM (Surroundings σ) α} (answer : α)
    (runs : ∀ log, ∃ later, action.run { desk with log } = (answer, { desk with log := later })) :
    Checks (liftM action) desk [] (answer = ·) := by
  intro log
  obtain ⟨later, run⟩ := runs log
  refine ⟨later, answer, rfl, ?_⟩
  change (action >>= fun value =>
    (Pure.pure (.ok value) : StateM (Surroundings σ) (Except Failure α))).run { desk with log } = _
  rw [StateT.run_bind, run]
  rfl

theorem bind {next : α → Stage (StateM (Surroundings σ)) β} (first : stage.Checks desk faults fit)
    (second : ∀ value, fit value → (next value).Checks desk others fit') :
    (stage >>= next).Checks desk (faults ++ others) fit' := by
  intro log
  rw [List.findSome?_append]
  cases found : faults.findSome? id with
  | some failure =>
    obtain ⟨later, on⟩ := first.fails found log
    exact ⟨later, on_bind_of_error on⟩
  | none =>
    obtain ⟨middle, value, fits, on⟩ := first.succeeds found log
    obtain ⟨later, outcome⟩ := second value fits middle
    refine ⟨later, ?_⟩
    rw [on_bind_of_ok on]
    exact outcome

end Checks

variable [Storage σ] {desk : Surroundings σ}

omit [Storage σ] in
theorem checks_ofResult (result : Except Failure α) :
    (ofResult id result).Checks desk [faultOf result] (result = .ok ·) := by
  intro log
  refine ⟨log, ?_⟩
  cases result with
  | error failure => rfl
  | ok value => exact ⟨value, rfl, rfl⟩

theorem checks_record (entry : LogEntry) :
    Checks (liftM (Host.record entry : StateM (Surroundings σ) Unit)) desk [] (() = ·) :=
  .of_run () fun log => ⟨log ++ [entry], rfl⟩

end Stage

open Stage

variable [Storage σ] {desk : Surroundings σ}

def inputFault? (disk : σ) (path : String) : Option Failure :=
  if !Storage.isPresent disk path then some (.unfitPath .absent path)
  else if fileName? path != some registryName then some (.unfitPath .wrongName path)
  else none

def directoryFault? (disk : σ) (path : String) : Option Failure :=
  if Storage.isDirectory disk path then none else some (.unfitPath .notDirectory path)

def readFault? (disk : σ) (path : String) : Option Failure :=
  (faultOf (Storage.readText disk path)).map (.file path)

def writeFault? (disk : σ) (path content : String) : Option Failure :=
  (faultOf (Storage.write disk path content.toUTF8)).map (.file path)

def libraryFault? (libraries : List (String × Library)) (name : String) : Option Failure :=
  if (libraries.lookup name).isSome then none else some .unopenedLibrary

theorem fileName?_of_accepted {disk : σ} {path : String} (accepted : inputFault? disk path = none) :
    fileName? path = some registryName := by
  unfold inputFault? at accepted
  split at accepted
  · cases accepted
  · split at accepted
    · cases accepted
    · rename_i named
      simpa using named

theorem checks_checkInput (path : String) :
    (checkInput path).Checks desk [inputFault? desk.disk path] (path = ·) := by
  refine (Checks.of_run (Storage.isPresent desk.disk path) fun log => ⟨log, rfl⟩).bind fun _ same => ?_
  subst same
  unfold inputFault?
  cases Storage.isPresent desk.disk path with
  | false => exact .throw _
  | true =>
    cases fileName? path != some registryName with
    | true => exact .throw _
    | false => exact .pure rfl rfl

theorem checks_headerIn (directory : String) :
    (headerIn directory).Checks desk [directoryFault? desk.disk directory] (join directory headerName = ·) := by
  refine (Checks.of_run (Storage.isDirectory desk.disk directory) fun log => ⟨log, rfl⟩).bind fun _ same => ?_
  subst same
  unfold directoryFault?
  cases Storage.isDirectory desk.disk directory with
  | false => exact .throw _
  | true => exact .pure rfl rfl

theorem checks_readFile (path : String) :
    (readFile path).Checks desk [readFault? desk.disk path] (Storage.readText desk.disk path = .ok ·) := by
  intro log
  refine ⟨log, ?_⟩
  have read : (readFile path).on { desk with log } =
      ((Storage.readText desk.disk path).mapError (.file path), { desk with log }) := rfl
  rw [read]
  unfold readFault?
  cases Storage.readText desk.disk path with
  | error fault => rfl
  | ok text => exact ⟨text, rfl, rfl⟩

theorem checks_openLibrary (name : String) :
    (openLibrary name).Checks desk [libraryFault? desk.libraries name] fun _ => True := by
  refine (Checks.of_run (desk.libraries.lookup name) fun log => ⟨log, rfl⟩).bind fun _ same => ?_
  subst same
  unfold libraryFault?
  cases desk.libraries.lookup name with
  | none => exact .throw _
  | some library => exact .pure rfl trivial

theorem forIn_record_run (entry : α → LogEntry) (items : List α) (desk : Surroundings σ) :
    (forIn items PUnit.unit fun item _ => do
      Host.record (entry item)
      pure (.yield PUnit.unit) : StateM (Surroundings σ) PUnit).run desk =
      (PUnit.unit, { desk with log := desk.log ++ items.map entry }) := by
  induction items generalizing desk with
  | nil =>
    rw [List.map_nil, List.append_nil]
    rfl
  | cons item items ih =>
    have rest := ih { desk with log := desk.log ++ [entry item] }
    rw [List.append_assoc] at rest
    rw [List.forIn_cons, StateT.run_bind]
    exact rest

theorem ofAction_writeText_on (desk : Surroundings σ) (path content : String) :
    (ofAction (.file path) (Host.writeText path content : StateM (Surroundings σ) (Except Fault Unit))).on desk =
      ((desk.writeText path content).1.mapError (.file path), (desk.writeText path content).2) := rfl

theorem writeFile_on_of_fault {path content : String} {failure : Failure}
    (refused : writeFault? desk.disk path content = some failure) :
    (writeFile path content).on desk = (.error failure, desk) := by
  have wrote := ofAction_writeText_on desk path content
  rw [Surroundings.writeText] at wrote
  rw [writeFault?] at refused
  cases written : Storage.write desk.disk path content.toUTF8 with
  | ok disk =>
    rw [written] at refused
    cases refused
  | error fault =>
    rw [written] at refused wrote
    cases refused
    exact on_bind_of_error wrote

theorem writeFile_on_of_sound (desk : Surroundings σ) {path content : String}
    (accepted : writeFault? desk.disk path content = none) :
    ∃ disk, Storage.write desk.disk path content.toUTF8 = .ok disk ∧ (writeFile path content).on desk =
      (.ok (), { desk with disk, log := desk.log ++ [.fileWritten path content.utf8ByteSize] }) := by
  have wrote := ofAction_writeText_on desk path content
  rw [Surroundings.writeText] at wrote
  rw [writeFault?] at accepted
  cases written : Storage.write desk.disk path content.toUTF8 with
  | error fault =>
    rw [written] at accepted
    cases accepted
  | ok disk =>
    rw [written] at wrote
    exact ⟨disk, rfl, on_bind_of_ok wrote⟩

end GLHeader
