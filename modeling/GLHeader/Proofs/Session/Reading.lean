import GLHeader.Proofs.CommandLine.Stages

namespace GLHeader

open GLHeader.Files

structure Surroundings.GoOn {σ : Type} (desk after : Surroundings σ) : Prop where
  libraries : after.libraries = desk.libraries
  log : desk.log <+: after.log

theorem Surroundings.GoOn.refl {σ : Type} (desk : Surroundings σ) : desk.GoOn desk := ⟨rfl, List.prefix_rfl⟩

theorem Surroundings.GoOn.trans {σ : Type} {desk middle after : Surroundings σ} (first : desk.GoOn middle)
    (second : middle.GoOn after) : desk.GoOn after :=
  ⟨second.libraries.trans first.libraries, first.log.trans second.log⟩

namespace Stage

variable {σ α β ε : Type} {stage : Stage (StateM (Surroundings σ)) α}
  {next : α → Stage (StateM (Surroundings σ)) β}

def Reads (stage : Stage (StateM (Surroundings σ)) α) : Prop :=
  ∀ desk, desk.GoOn (stage.on desk).2 ∧ (stage.on desk).2.disk = desk.disk

theorem reads_of_eq (same : ∀ desk, (stage.on desk).2 = desk) : stage.Reads := by
  intro desk
  rw [same]
  exact ⟨.refl desk, rfl⟩

theorem reads_pure (value : α) : Reads (pure value : Stage (StateM (Surroundings σ)) α) := reads_of_eq fun _ => rfl

theorem reads_throw (failure : Failure) : Reads (throw failure : Stage (StateM (Surroundings σ)) α) :=
  reads_of_eq fun _ => rfl

theorem reads_ofResult (failure : ε → Failure) (result : Except ε α) :
    Reads (ofResult failure result : Stage (StateM (Surroundings σ)) α) := reads_of_eq fun _ => rfl

theorem Reads.bind (first : stage.Reads) (second : ∀ value, (next value).Reads) : (stage >>= next).Reads := by
  intro desk
  obtain ⟨goesOn, untouched⟩ := first desk
  cases result : stage.on desk with
  | mk outcome middle =>
    rw [result] at goesOn untouched
    cases outcome with
    | error failure =>
      rw [on_bind_of_error result]
      exact ⟨goesOn, untouched⟩
    | ok value =>
      obtain ⟨goesOn', untouched'⟩ := second value middle
      rw [on_bind_of_ok result]
      exact ⟨goesOn.trans goesOn', untouched'.trans untouched⟩

theorem on_bind_ok {desk : Surroundings σ} {value : β} (ended : ((stage >>= next).on desk).1 = .ok value) :
    ∃ first middle, stage.on desk = (.ok first, middle) ∧ ((next first).on middle).1 = .ok value := by
  cases result : stage.on desk with
  | mk outcome middle =>
    cases outcome with
    | error failure =>
      rw [on_bind_of_error result] at ended
      cases ended
    | ok first =>
      rw [on_bind_of_ok result] at ended
      exact ⟨first, middle, rfl, ended⟩

theorem reads_question (answer : Surroundings σ → α) :
    Reads (liftM (do return answer (← get) : StateM (Surroundings σ) α) : Stage (StateM (Surroundings σ)) α) :=
  reads_of_eq fun _ => rfl

variable [Storage σ]

theorem reads_record (entry : LogEntry) :
    Reads (liftM (Host.record entry : StateM (Surroundings σ) Unit) : Stage (StateM (Surroundings σ)) Unit) :=
  fun desk => ⟨⟨rfl, List.prefix_append desk.log [entry]⟩, rfl⟩

theorem reads_readFile (path : String) : Reads (readFile path : Stage (StateM (Surroundings σ)) String) :=
  reads_of_eq fun _ => rfl

theorem reads_checkInput (path : String) : Reads (checkInput path : Stage (StateM (Surroundings σ)) String) := by
  refine (reads_question fun desk => Storage.isPresent desk.disk path).bind fun present => ?_
  cases present with
  | false => exact reads_throw _
  | true =>
    cases fileName? path != some registryName with
    | true => exact reads_throw _
    | false => exact reads_pure _

theorem reads_headerIn (directory : String) :
    Reads (headerIn directory : Stage (StateM (Surroundings σ)) String) := by
  refine (reads_question fun desk => Storage.isDirectory desk.disk directory).bind fun present => ?_
  cases present with
  | false => exact reads_throw _
  | true => exact reads_pure _

theorem reads_readTemplates (directory : String) :
    Reads (readTemplates directory : Stage (StateM (Surroundings σ)) Header.Templates) :=
  (reads_readFile _).bind fun _ => (reads_readFile _).bind fun _ => (reads_readFile _).bind fun _ =>
    (reads_readFile _).bind fun _ => reads_pure _

theorem reads_readSurface (settings : Settings) :
    Reads (readSurface settings : Stage (StateM (Surroundings σ)) Surface) :=
  (reads_readFile _).bind fun _ => (reads_ofResult _ _).bind fun _ => (reads_record _).bind fun _ => reads_pure _

theorem reads_makeHeader (settings : Settings) (templates : Header.Templates) (options : Header.Options) :
    Reads (makeHeader settings templates options : Stage (StateM (Surroundings σ)) String) :=
  (reads_readSurface settings).bind fun _ => reads_ofResult _ _

theorem reads_openLibrary (name : String) : Reads (openLibrary name : Stage (StateM (Surroundings σ)) Library) := by
  refine (reads_question fun desk => desk.libraries.lookup name).bind fun library => ?_
  cases library with
  | none => exact reads_throw _
  | some library => exact reads_pure _

end Stage

end GLHeader
