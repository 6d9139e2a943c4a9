import GLHeader.Generation
import GLHeader.Proofs.Registry.Aliases
import GLHeader.Proofs.Registry.Definitions
import GLHeader.Proofs.Release.Families
import Mathlib.Data.List.Induction

namespace GLHeader

open GLHeader.Xml

theorem latest?_concat {α : Type} (definitions : List (String × α)) (key name : String) (value : α) :
    latest? (definitions ++ [(key, value)]) name =
      if name == key then some value else latest? definitions name := by
  simp only [latest?, List.reverse_append, List.reverse_singleton, List.singleton_append,
    List.lookup_cons]
  cases name == key <;> rfl

theorem latest?_map {ι α : Type} (key : ι → String) (value : ι → α) (xs : List ι) (name : String) :
    latest? (xs.map fun x => (key x, value x)) name =
      (xs.filter (key · == name)).getLast?.map value := by
  induction xs using List.reverseRecOn with
  | nil => rfl
  | append_singleton xs x ih =>
    rw [List.map_append, List.map_singleton, latest?_concat, ih, List.filter_append, List.getLast?_append]
    by_cases same : key x = name
    · simp [same]
    · simp [same, Ne.symm same]

namespace Surface

def definedConstants (root : Element) : List Element :=
  ((root.elementsNamed "enums").flatMap (Element.elementsNamed · "enum")).filter fun e =>
    (e.attribute? "name").isSome && (e.attribute? "value").isSome

def definedValue? (root : Element) (name : String) : Option String :=
  ((definedConstants root).filter (·.attribute? "name" == some name)).getLast?.bind
    (·.attribute? "value")

def definedSignature? (root : Element) (name : String) : Option Signature :=
  ((Registry.commandElements root).filter (Registry.commandName? · == some name)).getLast?.map
    Registry.statedSignature

/-- What a feature exposes: the names it requires, as often as it requires them, so far as they are
defined. -/
def exposedFeature (root e : Element) : Feature where
  version := (e.attribute? "number").getD ""
  name := (e.attribute? "name").getD ""
  constants := (Release.required "enum" e).filterMap fun name =>
    (definedValue? root name).map (Constant.mk name)
  commands := (Release.required "command" e).filterMap fun name =>
    (definedSignature? root name).map (Command.mk name)

def versionIndex? (version : String) (features : List Element) : Option Nat :=
  features.findIdx? (·.attribute? "number" == some version)

/-- What a document exposes for a target. -/
def exposed (root : Element) (target : Target) : Surface :=
  let family := Release.familyElements root target.api
  let position := versionIndex? target.version family
  { target
    types := ((root.elementsNamed "types").flatMap Element.elements).filterMap Registry.typeAlias?
    features := (position.elim family fun i => family.take (i + 1)).map (exposedFeature root)
    hasVersion := position.isSome }

theorem latest?_constantsOf (root : Element) (name : String) :
    latest? (Registry.constantsOf root) name = definedValue? root name := by
  have stated (e : Element) : Registry.constant? e =
      if (e.attribute? "name").isSome && (e.attribute? "value").isSome then
        some ((e.attribute? "name").getD "", (e.attribute? "value").getD "") else none := by
    cases named : e.attribute? "name" <;> cases valued : e.attribute? "value" <;>
      simp [Registry.constant?, named, valued]
  have table : Registry.constantsOf root = (definedConstants root).map fun e =>
      ((e.attribute? "name").getD "", (e.attribute? "value").getD "") := by
    rw [Registry.constantsOf, definedConstants, ← List.filterMap_eq_map, List.filterMap_filter]
    congr 1
    funext e
    simp [stated e]
  have parts : ∀ e ∈ definedConstants root,
      ∃ key value, e.attribute? "name" = some key ∧ e.attribute? "value" = some value := by
    intro e member
    have both := (List.mem_filter.mp member).2
    rw [Bool.and_eq_true, Option.isSome_iff_exists, Option.isSome_iff_exists] at both
    obtain ⟨⟨key, named⟩, value, valued⟩ := both
    exact ⟨key, value, named, valued⟩
  have same : (definedConstants root).filter (fun e => (e.attribute? "name").getD "" == name) =
      (definedConstants root).filter (·.attribute? "name" == some name) := by
    apply List.filter_congr
    intro e member
    obtain ⟨key, -, named, -⟩ := parts e member
    simp [named]
  rw [table, latest?_map, same, definedValue?]
  cases last : ((definedConstants root).filter (·.attribute? "name" == some name)).getLast? with
  | none => rfl
  | some e =>
    obtain ⟨-, value, -, valued⟩ := parts e (List.mem_filter.mp (List.mem_of_getLast? last)).1
    simp [valued]

theorem latest?_commands {root : Element} (name : String)
    (sound : ∀ e ∈ Registry.commandElements root, Registry.SoundCommand e) :
    latest? (Registry.statedRegistry root).commands name = definedSignature? root name := by
  have same : (Registry.commandElements root).filter (fun e => (Registry.commandName? e).getD "" == name) =
      (Registry.commandElements root).filter (Registry.commandName? · == some name) := by
    apply List.filter_congr
    intro e member
    obtain ⟨prototype, found, named, -⟩ := sound e member
    obtain ⟨key, named⟩ := Option.isSome_iff_exists.mp named
    simp [Registry.commandName?, found, named]
  rw [Registry.statedRegistry, latest?_map, same, definedSignature?]

theorem through_map {ι : Type} (release : ι → Release) (version : String) (xs : List ι) :
    Release.through version (xs.map release) =
      ((xs.findIdx? fun x => (release x).version == version).elim xs fun i => xs.take (i + 1)).map
        release := by
  induction xs with
  | nil => rfl
  | cons x xs ih =>
    rw [List.map_cons, Release.through, List.findIdx?_cons]
    cases here : (release x).version == version with
    | true => simp
    | false =>
      rw [ih]
      cases List.findIdx? (fun x => (release x).version == version) xs <;> simp

theorem versionIndex?_eq (version : String) {features : List Element}
    (numbered : ∀ e ∈ features, (e.attribute? "number").isSome) :
    features.findIdx? (fun e => (Release.statedRelease e).version == version) =
      versionIndex? version features := by
  induction features with
  | nil => rfl
  | cons e es ih =>
    obtain ⟨first, later⟩ := List.forall_mem_cons.mp numbered
    obtain ⟨number, stated⟩ := Option.isSome_iff_exists.mp first
    rw [versionIndex?, List.findIdx?_cons, List.findIdx?_cons, ih later, versionIndex?]
    simp [Release.statedRelease, stated]

theorem any_eq_isSome_versionIndex? (version : String) {features : List Element}
    (numbered : ∀ e ∈ features, (e.attribute? "number").isSome) :
    (features.map Release.statedRelease).any (·.version == version) =
      (versionIndex? version features).isSome := by
  rw [← versionIndex?_eq version numbered, List.any_map, List.findIdx?_isSome]
  rfl

/-- Every command is sound, and every feature so far as the API reads it. -/
def SoundRoot (api : String) (root : Element) : Prop :=
  (∀ e ∈ Registry.commandElements root, Registry.SoundCommand e) ∧
    ∀ e ∈ root.elementsNamed "feature", Release.SoundFeature api e

/-- Commands are judged before features, wherever they stand. -/
inductive RootFault (api : String) (root : Element) : Defect → Prop
  | command {d : Defect}
    (fault : FirstFault Registry.SoundCommand Registry.CommandFault (Registry.commandElements root) d) :
    RootFault api root d
  | feature {d : Defect} (sound : ∀ e ∈ Registry.commandElements root, Registry.SoundCommand e)
    (fault : FirstFault (Release.SoundFeature api) (Release.FeatureFault api)
      (root.elementsNamed "feature") d) :
    RootFault api root d

theorem ofReleases_eq_exposed {root : Element} {target : Target} (sound : SoundRoot target.api root) :
    ofReleases (Registry.statedRegistry root)
        ((Release.familyElements root target.api).map Release.statedRelease) target =
      exposed root target := by
  have numbered : ∀ e ∈ Release.familyElements root target.api, (e.attribute? "number").isSome := by
    intro e member
    obtain ⟨inside, own⟩ := List.mem_filter.mp member
    exact ((sound.2 e inside).2 (of_decide_eq_true own)).1
  have constants (name : String) :
      latest? (Registry.statedRegistry root).constants name = definedValue? root name :=
    latest?_constantsOf root name
  have feature (e : Element) :
      Release.toFeature (Registry.statedRegistry root) (Release.statedRelease e) = exposedFeature root e := by
    simp only [Release.toFeature, Release.statedRelease, constants, latest?_commands _ sound.1,
      exposedFeature]
  simp only [ofReleases, exposed, through_map, versionIndex?_eq target.version numbered,
    any_eq_isSome_versionIndex? target.version numbered, List.map_map]
  congr 2
  funext e
  exact feature e

theorem reads_surface (target : Target) :
    Reads (ofRoot · target) (SoundRoot target.api) (exposed · target) (RootFault target.api) where
  ok root sound := by
    have registry := Registry.reads_registry.ok root sound.1
    have releases := (Release.reads_releases target.api).ok root sound.2
    simp only [ofRoot, registry, releases, bind, Except.bind, pure, Except.pure]
    exact congrArg Except.ok (ofReleases_eq_exposed sound)
  error root d fault := by
    cases fault with
    | command fault =>
      have registry := Registry.reads_registry.error root d fault
      simp only [ofRoot, registry, bind, Except.bind]
    | feature sound fault =>
      have registry := Registry.reads_registry.ok root sound
      have releases := (Release.reads_releases target.api).error root d fault
      simp only [ofRoot, registry, releases, bind, Except.bind]
  faulty root unsound := by
    by_cases commands : ∀ e ∈ Registry.commandElements root, Registry.SoundCommand e
    · obtain ⟨d, fault⟩ := (Release.reads_releases target.api).faulty root fun h => unsound ⟨commands, h⟩
      exact ⟨d, .feature commands fault⟩
    · obtain ⟨d, fault⟩ := Registry.reads_registry.faulty root commands
      exact ⟨d, .command fault⟩

theorem ofDocument_of_read {document : String} {root : Element} (read : Xml.read? document = some root)
    (target : Target) : ofDocument document target = (ofRoot root target).mapError .incompleteRegistry := by
  rw [ofDocument, read]

theorem ofDocument_by_api (document api : String) :
    (∃ failure, ∀ version profile, ofDocument document ⟨api, version, profile⟩ = .error failure) ∨
      ∃ root, Xml.read? document = some root ∧ ∀ version profile,
        ofDocument document ⟨api, version, profile⟩ = .ok (exposed root ⟨api, version, profile⟩) := by
  cases read : Xml.read? document with
  | none => exact .inl ⟨.malformedXml, fun version profile => by rw [ofDocument, read]⟩
  | some root =>
    by_cases sound : SoundRoot api root
    · refine .inr ⟨root, rfl, fun version profile => ?_⟩
      have built := (reads_surface ⟨api, version, profile⟩).ok root sound
      rw [ofDocument_of_read read, built]
      rfl
    · obtain ⟨d, fault⟩ := (reads_surface ⟨api, "", ""⟩).faulty root sound
      refine .inl ⟨.incompleteRegistry d, fun version profile => ?_⟩
      have failed := (reads_surface ⟨api, version, profile⟩).error root d fault
      rw [ofDocument_of_read read, failed]
      rfl

/-- No surface has a type that is not a declaration from a registry. -/
theorem isAlias_of_ofRoot {root : Element} {target : Target} {s : Surface}
    (built : ofRoot root target = .ok s) : ∀ t ∈ s.types, Registry.IsAlias t := by
  have same : s = exposed root target := ((reads_surface target).ok_iff.mp built).2
  rw [same]
  exact fun t member => Registry.isAlias_of_mem member

/-- A surface that can be built is what the tree exposes, and so is the surface of every document
with that tree. -/
theorem surface_eq_exposed {root : Element} {target : Target} {s : Surface}
    (built : ofRoot root target = .ok s) :
    s = exposed root target ∧
      ∀ document, Xml.read? document = some root → ofDocument document target = .ok (exposed root target) := by
  have same : s = exposed root target := ((reads_surface target).ok_iff.mp built).2
  refine ⟨same, fun document read => ?_⟩
  subst same
  simp [ofDocument, read, built, Except.mapError]

/-- A constant and a command are defined twice, and a definition without a value counts for nothing. The feature
requires a name twice and one that nothing defines, and a feature of another API has the same version. -/
theorem surface_eq_exposed_redefined :
    let named (tag name : String) : Node := .element tag [⟨none, "name", name⟩] []
    let valued (name value : String) : Node :=
      .element "enum" [⟨none, "name", name⟩, ⟨none, "value", value⟩] []
    let called (name : String) : Node := .element "name" [] [.text name]
    let command (result name : String) (parameters : List Node) : Node :=
      .element "command" [] (.element "proto" [] [.text result, called name] :: parameters)
    let feature (api number name : String) (children : List Node) : Node :=
      .element "feature" [⟨none, "api", api⟩, ⟨none, "number", number⟩, ⟨none, "name", name⟩]
        [.element "require" [] children]
    let root : Element := ⟨"registry", [], [
      .element "commands" [] [command "void " "glDraw" []],
      feature "gles" "1.0" "GLES_1_0" [named "enum" "GL_ONE"],
      feature "gl" "1.0" "GL_1_0" [named "enum" "GL_ONE", named "command" "glDraw", named "enum" "GL_TWO",
        named "command" "glNone", named "enum" "GL_ONE"],
      feature "gl" "1.1" "GL_1_1" [named "enum" "GL_ONE"],
      .element "enums" [] [valued "GL_ONE" "1", valued "GL_ONE" "0x1", named "enum" "GL_ONE"],
      .element "types" [] [.element "type" [] [.text "typedef int ", called "GLint", .text ";"]],
      .element "commands" [] [command "int " "glDraw" [.element "param" [] [.text "GLint ", called "first"]]]]⟩
    ∃ s, ofRoot root ⟨"gl", "1.0", "core"⟩ = .ok s ∧ s = exposed root ⟨"gl", "1.0", "core"⟩ ∧
      s.types = ["typedef int GLint;"] ∧
        s.features = [⟨"1.0", "GL_1_0", [⟨"GL_ONE", "0x1"⟩, ⟨"GL_ONE", "0x1"⟩],
          [⟨"glDraw", ⟨⟨"int", "int"⟩, [⟨⟨"GLint ", "GLint"⟩, "first"⟩]⟩⟩]⟩] := by
  intro named valued called command feature root
  have built : ofRoot root ⟨"gl", "1.0", "core"⟩ = .ok ⟨⟨"gl", "1.0", "core"⟩, ["typedef int GLint;"],
      [⟨"1.0", "GL_1_0", [⟨"GL_ONE", "0x1"⟩, ⟨"GL_ONE", "0x1"⟩],
        [⟨"glDraw", ⟨⟨"int", "int"⟩, [⟨⟨"GLint ", "GLint"⟩, "first"⟩]⟩⟩]⟩], true⟩ := by decide +kernel
  exact ⟨_, built, (surface_eq_exposed built).1, rfl, rfl⟩

end Surface

end GLHeader
