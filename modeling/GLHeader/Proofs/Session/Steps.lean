import GLHeader.Proofs.Files.Places
import GLHeader.Proofs.Session.Reading
import GLHeader.Proofs.Traversal
import GLHeader.Session

namespace GLHeader

open GLHeader.Files

open Stage

namespace Session

variable {s t : Session} {request : Step} {answer : Answer} {complaint : Complaint}

/-- What a step leaves on the desk, also if it fails. -/
def leaves (s : Session) : Step → Desk
  | .store path bytes => { s.desk with disk := s.desk.disk.store path bytes }
  | .makeDirectory path => { s.desk with disk := s.desk.disk.makeDirectories path }
  | .checkInput path => ((GLHeader.checkInput path).on s.desk).2
  | .headerIn directory => ((GLHeader.headerIn directory).on s.desk).2
  | .readTemplates directory => ((GLHeader.readTemplates directory).on s.desk).2
  | .readSurface => ((GLHeader.readSurface s.settings).on s.desk).2
  | .makeHeader => ((GLHeader.makeHeader s.settings s.templates s.options).on s.desk).2
  | .lookUpSymbols (.library name) =>
    if s.surface.isSome then ((openLibrary name).on s.desk).2 else s.desk
  | .write path => ((writeFile (path.getD s.settings.output) s.header).on s.desk).2
  | _ => s.desk

inductive Part where
  | disk
  | settings
  | templates
  | options
  | surface
  | header
deriving DecidableEq

def Step.part? : Step → Option Part
  | .store .. | .makeDirectory _ | .write _ => some .disk
  | .checkInput _ | .headerIn _ | .setInput _ | .setOutput _ | .setVersion _ | .setProfile _ | .setApi _ =>
    some .settings
  | .setTemplates _ | .readTemplates _ => some .templates
  | .setOptions _ => some .options
  | .readSurface => some .surface
  | .fillTemplates | .makeHeader => some .header
  | .read _ | .lookUpSymbols _ => none

def Agree (s t : Session) : Part → Prop
  | .disk => t.desk.disk = s.desk.disk
  | .settings => t.settings = s.settings
  | .templates => t.templates = s.templates
  | .options => t.options = s.options
  | .surface => t.surface = s.surface
  | .header => t.header = s.header

theorem Agree.trans {r : Session} {part : Part} (first : Agree r s part) (second : Agree s t part) :
    Agree r t part := by
  cases part <;> exact Eq.trans second first

/-- All that may differ is the log, which goes on, and some parts. -/
structure KeepsAllBut (parts : List Part) (s t : Session) : Prop where
  desk : s.desk.GoOn t.desk
  others : ∀ part ∉ parts, Agree s t part

theorem KeepsAllBut.refl (parts : List Part) (s : Session) : KeepsAllBut parts s s where
  desk := .refl s.desk
  others part _ := by cases part <;> rfl

theorem KeepsAllBut.trans {r : Session} {parts others : List Part} (first : KeepsAllBut parts r s)
    (second : KeepsAllBut others s t) : KeepsAllBut (parts ++ others) r t where
  desk := first.desk.trans second.desk
  others part absent := by
    obtain ⟨early, late⟩ := not_or.mp (mt List.mem_append.mpr absent)
    exact (first.others part early).trans (second.others part late)

theorem perform_ok {α : Type} {stage : Stage (StateM Desk) α} {value : α}
    (performed : s.perform stage = .ok (value, t)) :
    (stage.on s.desk).1 = .ok value ∧ t = { s with desk := (stage.on s.desk).2 } := by
  unfold perform at performed
  split at performed
  · rename_i result desk run
    cases performed
    have on : stage.on s.desk = (.ok value, desk) := run
    rw [on]
    exact ⟨rfl, rfl⟩
  · cases performed

theorem perform_of_on {α : Type} {stage : Stage (StateM Desk) α} {value : α} {desk : Desk}
    (ended : stage.on s.desk = (.ok value, desk)) : s.perform stage = .ok (value, { s with desk }) := by
  have run : stage.run.run s.desk = (.ok value, desk) := ended
  rw [perform, run]

theorem perform_error {α : Type} {stage : Stage (StateM Desk) α} (failed : s.perform stage = .error complaint) :
    ∃ failure, (stage.on s.desk).1 = .error failure := by
  unfold perform at failed
  split at failed
  · cases failed
  · rename_i failure desk run
    have on : stage.on s.desk = (.error failure, desk) := run
    rw [on]
    exact ⟨failure, rfl⟩

theorem changeSettings_ok {settings : Except Failure Settings} (changed : s.changeSettings settings = .ok (answer, t)) :
    ∃ later, settings = .ok later ∧ t = { s with settings := later } := by
  unfold changeSettings at changed
  split at changed
  · cases changed
    exact ⟨_, rfl, rfl⟩
  · cases changed

theorem surface_of_loaded {surface : Surface} (loaded : s.loaded = .ok surface) : s.surface = some surface := by
  unfold Session.loaded at loaded
  cases kept : s.surface with
  | none =>
    rw [kept] at loaded
    cases loaded
  | some other =>
    rw [kept] at loaded
    cases loaded
    rfl

theorem lookUpSymbols_ok {source : SymbolSource} {check : SymbolCheck}
    (looked : s.lookUpSymbols source = .ok (check, t)) :
    t = { s with desk := s.leaves (.lookUpSymbols source) } := by
  cases source with
  | names available =>
    obtain ⟨surface, -, done⟩ := bind_ok looked
    cases done
    rfl
  | library name =>
    obtain ⟨surface, loaded, opened⟩ := bind_ok looked
    obtain ⟨⟨library, later⟩, performed, done⟩ := bind_ok opened
    obtain ⟨-, rfl⟩ := perform_ok performed
    cases done
    rw [leaves, surface_of_loaded loaded]
    rfl

theorem step_ok (stepped : s.step request = .ok (answer, t)) : t.desk = s.leaves request ∧
    ∀ part, part ≠ .disk → request.part? ≠ some part → Agree s t part := by
  cases request with
  | store path bytes | makeDirectory path | read path | setInput path | setOutput path | setApi text
  | setOptions options | setTemplates templates =>
    cases stepped
    exact ⟨rfl, fun part => by cases part <;> simp [Agree, Step.part?]⟩
  | setVersion text | setProfile text =>
    obtain ⟨later, -, rfl⟩ := changeSettings_ok stepped
    exact ⟨rfl, fun part => by cases part <;> simp [Agree, Step.part?]⟩
  | checkInput path | headerIn directory | readTemplates directory | readSurface | makeHeader | write path =>
    obtain ⟨⟨value, later⟩, performed, done⟩ := bind_ok stepped
    obtain ⟨-, rfl⟩ := perform_ok performed
    cases done
    exact ⟨rfl, fun part => by cases part <;> simp [Agree, Step.part?]⟩
  | fillTemplates =>
    obtain ⟨surface, -, filled⟩ := bind_ok stepped
    split at filled
    · cases filled
      exact ⟨rfl, fun part => by cases part <;> simp [Agree, Step.part?]⟩
    · cases filled
  | lookUpSymbols source =>
    obtain ⟨⟨check, later⟩, looked, done⟩ := bind_ok stepped
    obtain rfl := lookUpSymbols_ok looked
    cases done
    exact ⟨rfl, fun part => by cases part <;> simp [Agree, Step.part?]⟩

theorem writeFile_goOn (path content : String) (desk : Desk) : desk.GoOn ((writeFile path content).on desk).2 := by
  cases fault : writeFault? desk.disk path content with
  | some failure =>
    rw [writeFile_on_of_fault fault]
    exact .refl desk
  | none =>
    obtain ⟨disk, -, on⟩ := writeFile_on_of_sound desk fault
    rw [on]
    exact ⟨rfl, List.prefix_append desk.log _⟩

theorem disk_of_failed_write {path content : String} {desk : Desk} {failure : Failure}
    (failed : ((writeFile path content).on desk).1 = .error failure) :
    ((writeFile path content).on desk).2.disk = desk.disk := by
  cases fault : writeFault? desk.disk path content with
  | some failure' => rw [writeFile_on_of_fault fault]
  | none =>
    obtain ⟨disk, -, on⟩ := writeFile_on_of_sound desk fault
    rw [on] at failed
    cases failed

theorem leaves_goOn (s : Session) (request : Step) : s.desk.GoOn (s.leaves request) ∧
    (request.part? ≠ some .disk → (s.leaves request).disk = s.desk.disk) := by
  have reading {α : Type} {stage : Stage (StateM Desk) α} (reads : stage.Reads) :
      s.desk.GoOn (stage.on s.desk).2 ∧
        (request.part? ≠ some .disk → (stage.on s.desk).2.disk = s.desk.disk) :=
    ⟨(reads s.desk).1, fun _ => (reads s.desk).2⟩
  cases request with
  | checkInput path => exact reading (reads_checkInput path)
  | headerIn directory => exact reading (reads_headerIn directory)
  | readTemplates directory => exact reading (reads_readTemplates directory)
  | readSurface => exact reading (reads_readSurface s.settings)
  | makeHeader => exact reading (reads_makeHeader s.settings s.templates s.options)
  | write path => exact ⟨writeFile_goOn _ _ s.desk, fun other => absurd rfl other⟩
  | store path bytes | makeDirectory path => exact ⟨⟨rfl, List.prefix_rfl⟩, fun other => absurd rfl other⟩
  | lookUpSymbols source =>
    cases source with
    | names available => exact ⟨.refl s.desk, fun _ => rfl⟩
    | library name =>
      rw [leaves]
      split
      · exact reading (reads_openLibrary name)
      · exact ⟨.refl s.desk, fun _ => rfl⟩
  | _ => exact ⟨.refl s.desk, fun _ => rfl⟩

theorem step_keeps (stepped : s.step request = .ok (answer, t)) : KeepsAllBut request.part?.toList s t := by
  obtain ⟨desk, others⟩ := step_ok stepped
  obtain ⟨goesOn, untouched⟩ := leaves_goOn s request
  refine ⟨desk ▸ goesOn, fun part absent => ?_⟩
  have other : request.part? ≠ some part := fun same => absent (Option.mem_toList.mpr same)
  by_cases same : part = .disk
  · subst same
    exact (congrArg Surroundings.disk desk).trans (untouched other)
  · exact others part same other

/-- What a session gives up when it goes back to before a failed step is nothing but log entries. -/
theorem failed_step_leaves_disk (failed : s.step request = .error complaint) :
    s.desk.GoOn (s.leaves request) ∧ (s.leaves request).disk = s.desk.disk := by
  obtain ⟨goesOn, untouched⟩ := leaves_goOn s request
  refine ⟨goesOn, ?_⟩
  cases request with
  | store path bytes | makeDirectory path => cases failed
  | write path =>
    rcases bind_error failed with refused | ⟨_, _, done⟩
    · obtain ⟨failure, ended⟩ := perform_error refused
      exact disk_of_failed_write ended
    · cases done
  | _ => exact untouched (by simp [Step.part?])

def next (s : Session) (request : Step) : Session :=
  match s.step request with
  | .ok (_, later) => later
  | .error _ => s

def run (s : Session) (requests : List Step) : Session := requests.foldl next s

theorem run_induction {p : Session → Prop} {requests : List Step} (start : p s)
    (kept : ∀ request ∈ requests, ∀ s answer t, p s → s.step request = .ok (answer, t) → p t) :
    p (s.run requests) := by
  induction requests generalizing s with
  | nil => exact start
  | cons request requests ih =>
    obtain ⟨first, later⟩ := List.forall_mem_cons.mp kept
    refine ih ?_ later
    unfold next
    split
    · exact first _ _ _ start ‹_›
    · exact start

/-- A run keeps every part that none of its steps is for. -/
theorem run_keeps (s : Session) (requests : List Step) :
    KeepsAllBut (requests.filterMap Step.part?) s (s.run requests) := by
  refine run_induction (p := KeepsAllBut (requests.filterMap Step.part?) s) (.refl _ s) ?_
  intro request member middle answer t kept stepped
  have both := kept.trans (step_keeps stepped)
  refine ⟨both.desk, fun part absent => both.others part ?_⟩
  rw [List.mem_append, not_or]
  exact ⟨absent, fun own => absent (List.mem_filterMap.mpr ⟨request, member, Option.mem_toList.mp own⟩)⟩

theorem step_fillTemplates {surface : Surface} {header : String} (loaded : s.surface = some surface)
    (made : surface.header s.templates s.options = .ok header) :
    s.step .fillTemplates = .ok (.text header, { s with header }) := by
  simp only [step, Session.loaded, loaded, Option.elim_some, bind, Except.bind, made]
  rfl

/-- A header that is made at once is the one that is made step by step. -/
theorem makeHeader_by_steps (stepped : s.step .makeHeader = .ok (answer, t)) :
    ∃ surface middle last, s.step .readSurface = .ok (.surface surface, middle) ∧
      middle.step .fillTemplates = .ok (answer, last) ∧ last.header = t.header ∧ last.desk = t.desk := by
  obtain ⟨⟨header, later⟩, performed, done⟩ := bind_ok stepped
  obtain ⟨ended, rfl⟩ := perform_ok performed
  obtain ⟨surface, middle, read, filled⟩ := on_bind_ok ended
  obtain ⟨-, made⟩ := (checks_ofResult _).sound_of_ok filled
  have whole : (GLHeader.makeHeader s.settings s.templates s.options).on s.desk =
      (ofResult id (surface.header s.templates s.options)).on middle := on_bind_of_ok read
  cases done
  refine ⟨surface, { s with desk := middle, surface }, { s with desk := middle, surface, header }, ?_, ?_, rfl, ?_⟩
  · rw [step, perform_of_on read]
    rfl
  · exact step_fillTemplates rfl made
  · rw [whole]
    rfl

def OwnNames (settings : Settings) : Prop :=
  fileName? settings.input = some registryName ∧ fileName? settings.output = some headerName

def Step.setsPath : Step → Bool
  | .setInput _ | .setOutput _ => true
  | _ => false

theorem ownNames_step (names : OwnNames s.settings) (checked : request.setsPath = false)
    (stepped : s.step request = .ok (answer, t)) : OwnNames t.settings := by
  cases request with
  | checkInput path =>
    obtain ⟨⟨value, later⟩, performed, done⟩ := bind_ok stepped
    obtain ⟨accepted, rfl⟩ := perform_ok performed
    obtain ⟨sound, rfl⟩ := (checks_checkInput path).sound_of_ok accepted
    cases done
    exact ⟨fileName?_of_accepted (by simpa using sound), names.2⟩
  | headerIn directory =>
    obtain ⟨⟨value, later⟩, performed, done⟩ := bind_ok stepped
    obtain ⟨accepted, rfl⟩ := perform_ok performed
    obtain ⟨-, rfl⟩ := (checks_headerIn directory).sound_of_ok accepted
    cases done
    exact ⟨names.1, fileName?_join (by decide) ⟨by decide, by decide⟩ directory⟩
  | setVersion text | setProfile text =>
    obtain ⟨later, changed, rfl⟩ := changeSettings_ok stepped
    obtain ⟨value, -, done⟩ := bind_ok changed
    cases done
    exact names
  | setApi api =>
    cases stepped
    exact names
  | setInput path | setOutput path => cases checked
  | _ =>
    have same : t.settings = s.settings := (step_keeps stepped).others .settings (by simp [Step.part?])
    rwa [same]

/-- As long as no path is taken unchecked, a session reads a registry and writes a header by their names. -/
theorem ownNames_run {requests : List Step} (names : OwnNames s.settings)
    (checked : ∀ request ∈ requests, request.setsPath = false) : OwnNames (s.run requests).settings :=
  run_induction (p := (OwnNames ·.settings)) names fun request member _ _ _ held =>
    ownNames_step held (checked request member)

/-- The surface is that of a document, and the header is nothing or made as a whole for such a surface. -/
structure IsGenuine (s : Session) : Prop where
  surface : ∀ surface, s.surface = some surface → ∃ document target, Surface.ofDocument document target = .ok surface
  header : s.header = "" ∨ ∃ document target surface templates options,
    Surface.ofDocument document target = .ok surface ∧ surface.header templates options = .ok s.header

theorem document_of_readSurface {settings : Settings} {desk : Desk} {surface : Surface}
    (read : ((readSurface settings).on desk).1 = .ok surface) :
    ∃ document, Surface.ofDocument document settings.target = .ok surface := by
  obtain ⟨document, middle, -, rest⟩ := on_bind_ok read
  obtain ⟨described, later, built, logged⟩ := on_bind_ok rest
  obtain ⟨_, _, -, done⟩ := on_bind_ok logged
  cases done
  refine ⟨document, ?_⟩
  have same := congrArg Prod.fst built
  exact (checks_ofResult _).sound_of_ok same |>.2

theorem isGenuine_step (genuine : s.IsGenuine) (stepped : s.step request = .ok (answer, t)) : t.IsGenuine := by
  cases request with
  | readSurface =>
    obtain ⟨⟨surface, later⟩, performed, done⟩ := bind_ok stepped
    obtain ⟨read, rfl⟩ := perform_ok performed
    obtain ⟨document, built⟩ := document_of_readSurface read
    cases done
    refine ⟨fun other same => ⟨document, s.settings.target, ?_⟩, genuine.header⟩
    rw [built, Option.some.inj same]
  | fillTemplates =>
    obtain ⟨surface, loaded, filled⟩ := bind_ok stepped
    obtain ⟨document, target, built⟩ := genuine.surface surface (surface_of_loaded loaded)
    split at filled
    · rename_i header made
      cases filled
      exact ⟨genuine.surface, .inr ⟨document, target, surface, s.templates, s.options, built, made⟩⟩
    · cases filled
  | makeHeader =>
    obtain ⟨⟨header, later⟩, performed, done⟩ := bind_ok stepped
    obtain ⟨ended, rfl⟩ := perform_ok performed
    obtain ⟨surface, middle, read, filled⟩ := on_bind_ok ended
    obtain ⟨document, built⟩ := document_of_readSurface (congrArg Prod.fst read)
    have made := (checks_ofResult _).sound_of_ok filled |>.2
    cases done
    exact ⟨genuine.surface, .inr ⟨document, s.settings.target, surface, s.templates, s.options, built, made⟩⟩
  | _ =>
    have surface : t.surface = s.surface := (step_keeps stepped).others .surface (by simp [Step.part?])
    have header : t.header = s.header := (step_keeps stepped).others .header (by simp [Step.part?])
    exact ⟨surface ▸ genuine.surface, header ▸ genuine.header⟩

theorem isGenuine_run (genuine : s.IsGenuine) (requests : List Step) : (s.run requests).IsGenuine :=
  run_induction genuine fun _ _ _ _ _ held => isGenuine_step held

end Session

end GLHeader
