import GLHeader.CommandLine.Run
import GLHeader.Proofs.CommandLine.Stages

namespace GLHeader.CommandLine

open GLHeader.Files

variable {σ : Type} [Storage σ]

namespace Arguments

def versionText (a : Arguments) : String := (a.value? .version).getD ({} : Settings).version.text

def profileText (a : Arguments) : String := (a.value? .profile).getD ({} : Settings).profile.text

def inputPath (a : Arguments) : String := (a.value? .input).getD ({} : Settings).input

def outputPath (a : Arguments) : String :=
  (a.value? .output).elim ({} : Settings).output (join · headerName)

def settings? (a : Arguments) : Option Settings := do
  let version ← (Version.parse a.versionText).toOption
  let profile ← (Profile.parse a.profileText).toOption
  return { version, profile, input := a.inputPath, output := a.outputPath }

def templates? (a : Arguments) (disk : σ) : Option Header.Templates :=
  match a.value? .templates with
  | none => some {}
  | some directory => do
    let file (name : String) := (Storage.readText disk (join directory name)).toOption
    return {
      skeleton := ← file "loader.txt"
      interface := ← file "api-dec.txt"
      implementation := ← file "api-def.txt"
      support := ← file "api-static.txt" }

def root? (a : Arguments) (disk : σ) : Option Xml.Element := do
  Xml.read? (← (Storage.readText disk a.inputPath).toOption)

def surface? (a : Arguments) (disk : σ) : Option Surface := do
  (Surface.ofDocument (← (Storage.readText disk a.inputPath).toOption) (← a.settings?).target).toOption

def header? (a : Arguments) (disk : σ) : Option String := do
  ((← a.surface? disk).header (← a.templates? disk) a.options).toOption

def written? (a : Arguments) (disk : σ) : Option σ := do
  (Storage.write disk a.outputPath (← a.header? disk).toUTF8).toOption

end Arguments

inductive Check where
  | version
  | profile
  | input
  | output
  | template (file : String)
  | registry
  | xml
  | definitions
  | features
  | placeholders
  | header
  | dump
  | library
deriving DecidableEq, Repr

namespace Check

def beforeWriting : List Check :=
  [.version, .profile, .input, .output, .template "loader.txt", .template "api-dec.txt",
    .template "api-def.txt", .template "api-static.txt", .registry, .xml, .definitions, .features,
    .placeholders]

def throughHeader : List Check := beforeWriting ++ [header]

def afterHeader : List Check := [.dump, .library]

def all : List Check := throughHeader ++ afterHeader

end Check

/-- What a check finds wrong on a desk. Where there is nothing to check, it finds nothing. -/
def Arguments.fault? (a : Arguments) (desk : Surroundings σ) : Check → Option Failure
  | .version => faultOf (Version.parse a.versionText)
  | .profile => faultOf (Profile.parse a.profileText)
  | .input => (a.value? .input).bind (inputFault? desk.disk)
  | .output => (a.value? .output).bind (directoryFault? desk.disk)
  | .template file => (a.value? .templates).bind fun directory => readFault? desk.disk (join directory file)
  | .registry => readFault? desk.disk a.inputPath
  | .xml => do
    let document ← (Storage.readText desk.disk a.inputPath).toOption
    if (Xml.read? document).isSome then none else some .malformedXml
  | .definitions => do
    let root ← a.root? desk.disk
    (faultOf (Registry.ofRoot root)).map .incompleteRegistry
  | .features => do
    let root ← a.root? desk.disk
    (faultOf (Release.ofRoot root ({} : Settings).api)).map .incompleteRegistry
  | .placeholders => do
    faultOf ((← a.surface? desk.disk).header (← a.templates? desk.disk) a.options)
  | .header => do
    writeFault? desk.disk a.outputPath (← a.header? desk.disk)
  | .dump => do
    -- By then the header is on the disk, and may be in the way.
    writeFault? (← a.written? desk.disk) (← a.value? .dump) (← a.surface? desk.disk).dump
  | .library => (a.value? .library).bind (libraryFault? desk.libraries)

namespace Arguments

variable {a : Arguments} {desk : Surroundings σ}

theorem settings_eq (a : Arguments) : (a.settings : Stage (StateM (Surroundings σ)) Settings) = do
    let version ← Stage.ofResult id (Version.parse a.versionText)
    let profile ← Stage.ofResult id (Profile.parse a.profileText)
    let input ← (a.value? .input).elim (pure ({} : Settings).input) checkInput
    let output ← (a.value? .output).elim (pure ({} : Settings).output) headerIn
    return { version, profile, input, output } := by
  unfold settings versionText profileText
  cases a.value? .input <;> cases a.value? .output <;> rfl

theorem checks_settings : a.settings.Checks desk
    ([.version, .profile, .input, .output].map (a.fault? desk)) (a.settings? = some ·) := by
  have input : ((a.value? .input).elim (pure ({} : Settings).input) checkInput).Checks desk
      [a.fault? desk .input] (a.inputPath = ·) := by
    unfold fault? inputPath
    cases a.value? .input with
    | none => exact .pure rfl rfl
    | some path => exact checks_checkInput path
  have output : ((a.value? .output).elim (pure ({} : Settings).output) headerIn).Checks desk
      [a.fault? desk .output] (a.outputPath = ·) := by
    unfold fault? outputPath
    cases a.value? .output with
    | none => exact .pure rfl rfl
    | some directory => exact checks_headerIn directory
  rw [settings_eq]
  refine (Stage.checks_ofResult _).bind fun version known => ?_
  refine (Stage.checks_ofResult _).bind fun profile permitted => ?_
  refine input.bind fun path same => ?_
  refine output.bind fun header same' => .pure rfl ?_
  subst same same'
  simp [settings?, known, permitted, Except.toOption]

theorem checks_templates : a.templates.Checks desk
    ([.template "loader.txt", .template "api-dec.txt", .template "api-def.txt",
      .template "api-static.txt"].map (a.fault? desk)) (a.templates? desk.disk = some ·) := by
  unfold templates templates? fault?
  cases a.value? .templates with
  | none => exact .pure rfl rfl
  | some directory =>
    refine (checks_readFile _).bind fun skeleton first => ?_
    refine (checks_readFile _).bind fun interface second => ?_
    refine (checks_readFile _).bind fun implementation third => ?_
    refine (checks_readFile _).bind fun support fourth => .pure rfl ?_
    simp [first, second, third, fourth, Except.toOption]

theorem fields_of_settings? {settings : Settings} (given : a.settings? = some settings) :
    settings.input = a.inputPath ∧ settings.output = a.outputPath ∧ settings.api = ({} : Settings).api := by
  simp only [settings?, Option.bind_eq_bind, Option.bind_eq_some_iff] at given
  obtain ⟨version, -, profile, -, same⟩ := given
  cases same
  exact ⟨rfl, rfl, rfl⟩

theorem faultOf_ofRoot (root : Xml.Element) (target : Target) : faultOf (Surface.ofRoot root target) =
    (faultOf (Registry.ofRoot root)).or (faultOf (Release.ofRoot root target.api)) := by
  unfold Surface.ofRoot
  cases Registry.ofRoot root with
  | error defect => rfl
  | ok registry => cases Release.ofRoot root target.api <;> rfl

theorem first_fault_of_document {document : String} {settings : Settings} (given : a.settings? = some settings)
    (read : Storage.readText desk.disk a.inputPath = .ok document) :
    faultOf (Surface.ofDocument document settings.target) =
      [Check.xml, .definitions, .features].findSome? (a.fault? desk) := by
  have api : settings.target.api = ({} : Settings).api := (fields_of_settings? given).2.2
  have root : a.root? desk.disk = Xml.read? document := by simp [root?, read, Except.toOption]
  cases tree : Xml.read? document with
  | none => simp [Surface.ofDocument, fault?, tree, read, Except.toOption, faultOf]
  | some element =>
    have wellFormed : a.fault? desk .xml = none := by simp [fault?, tree, read, Except.toOption]
    have definitions : a.fault? desk .definitions =
        (faultOf (Registry.ofRoot element)).map .incompleteRegistry := by simp [fault?, root, tree]
    have features : a.fault? desk .features =
        (faultOf (Release.ofRoot element settings.target.api)).map .incompleteRegistry := by
      simp [fault?, root, tree, api]
    have first : faultOf (Surface.ofDocument document settings.target) =
        (a.fault? desk .definitions).or (a.fault? desk .features) := by
      simp only [Surface.ofDocument, tree, faultOf_mapError, faultOf_ofRoot, definitions, features, Option.map_or]
    simp only [List.findSome?_cons, List.findSome?_nil, wellFormed, first]
    cases a.fault? desk .definitions <;> cases a.fault? desk .features <;> rfl

theorem checks_ofDocument {document : String} {settings : Settings} (given : a.settings? = some settings)
    (read : Storage.readText desk.disk a.inputPath = .ok document) :
    (Stage.ofResult id (Surface.ofDocument document settings.target)).Checks desk
      ([.xml, .definitions, .features].map (a.fault? desk)) (a.surface? desk.disk = some ·) := by
  refine (Stage.checks_ofResult _).mono ?_ fun surface described => ?_
  · rw [List.findSome?_singleton, id_eq, first_fault_of_document given read, List.findSome?_map, Function.id_comp]
  · simp [surface?, read, given, described, Except.toOption]

theorem checks_readSurface {settings : Settings} (given : a.settings? = some settings) :
    (readSurface settings).Checks desk ([.registry, .xml, .definitions, .features].map (a.fault? desk))
      (a.surface? desk.disk = some ·) := by
  have path : settings.input = a.inputPath := (fields_of_settings? given).1
  unfold readSurface
  rw [path]
  refine (checks_readFile _).bind fun document read => ?_
  refine (checks_ofDocument given read).bind fun surface described => ?_
  exact (Stage.checks_record _).bind fun _ _ => .pure rfl described

theorem checks_header {surface : Surface} {templates : Header.Templates}
    (described : a.surface? desk.disk = some surface) (given : a.templates? desk.disk = some templates) :
    (Stage.ofResult id (surface.header templates a.options)).Checks desk ([.placeholders].map (a.fault? desk))
      (a.header? desk.disk = some ·) := by
  have fault : a.fault? desk .placeholders = faultOf (surface.header templates a.options) := by
    simp [fault?, described, given]
  rw [List.map_singleton, fault]
  refine (Stage.checks_ofResult _).mono rfl fun header made => ?_
  simp [header?, described, given, made, Except.toOption]

theorem checks_makeHeader {settings : Settings} {templates : Header.Templates}
    (given : a.settings? = some settings) (given' : a.templates? desk.disk = some templates) :
    (makeHeader settings templates a.options).Checks desk
      ([.registry, .xml, .definitions, .features, .placeholders].map (a.fault? desk))
      (a.header? desk.disk = some ·) :=
  (checks_readSurface given).bind fun _ described => checks_header described given'

def prepare {m : Type → Type} [Monad m] [Host m] (a : Arguments) : Stage m (Settings × Surface × String) := do
  let settings ← a.settings
  let templates ← a.templates
  let surface ← readSurface settings
  let header ← Stage.ofResult id (surface.header templates a.options)
  return (settings, surface, header)

theorem checks_prepare : a.prepare.Checks desk (Check.beforeWriting.map (a.fault? desk))
    fun (settings, surface, header) => a.settings? = some settings ∧ a.surface? desk.disk = some surface ∧
      a.header? desk.disk = some header := by
  refine checks_settings.bind fun settings given => ?_
  refine checks_templates.bind fun templates given' => ?_
  refine (checks_readSurface given).bind fun surface described => ?_
  exact (checks_header described given').bind fun header made => .pure rfl ⟨given, described, made⟩

end Arguments

end GLHeader.CommandLine
