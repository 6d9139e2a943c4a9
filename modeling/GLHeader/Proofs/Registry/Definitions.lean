import GLHeader.Proofs.Traversal
import GLHeader.Registry

namespace GLHeader.Registry

open GLHeader.Text GLHeader.Xml

/-- A type is stated by a marker or by leading text. -/
def StatesType (e : Element) : Prop := e.elementsNamed "ptype" ≠ [] ∨ e.leadText?.isSome

theorem shortText?_eq (e : Element) (marker : Option Element)
    (marks : marker = none ↔ e.elementsNamed "ptype" = []) :
    StatesType e ∧ (marker.map Element.leadText <|> e.leadText?) =
        some ((marker.map Element.leadText).getD e.leadText) ∨
      ¬ StatesType e ∧ (marker.map Element.leadText <|> e.leadText?) = none := by
  cases marker with
  | some m =>
    have marked : e.elementsNamed "ptype" ≠ [] := fun h => by cases marks.mpr h
    exact .inl ⟨.inl marked, rfl⟩
  | none =>
    have unmarked := marks.mp rfl
    cases lead : e.leadText? with
    | none => exact .inr ⟨by simp [StatesType, unmarked, lead], rfl⟩
    | some text => exact .inl ⟨by simp [StatesType, lead], by simp [Element.leadText, lead]⟩

def parameterName? (e : Element) : Option String :=
  (e.elementsNamed "name").getLast?.bind Element.leadText?

def SoundParameter (e : Element) : Prop := (parameterName? e).isSome ∧ StatesType e

def statedParameter (e : Element) : Parameter where
  type := ⟨((e.elementsNamed "ptype").getLast?.map Element.leadText).getD e.leadText, fullType e⟩
  name := (parameterName? e).getD ""

inductive ParameterFault (command : String) (e : Element) : Defect → Prop
  | name (unnamed : parameterName? e = none) : ParameterFault command e (.parameterName command)
  | type {name : String} (named : parameterName? e = some name) (untyped : ¬ StatesType e) :
    ParameterFault command e (.parameterType name command)

theorem reads_parameter (command : String) :
    Reads (parameter command) SoundParameter statedParameter (ParameterFault command) := by
  have short (e : Element) := shortText?_eq e (e.elementsNamed "ptype").getLast? (by simp)
  constructor
  · rintro e ⟨named, typed⟩
    obtain ⟨name, named⟩ := Option.isSome_iff_exists.mp named
    rcases short e with ⟨-, found⟩ | ⟨untyped, -⟩
    · rw [parameterName?] at named
      simp [parameter, statedParameter, parameterName?, named, found, pure, Except.pure]
    · exact absurd typed untyped
  · rintro e d (unnamed | ⟨named, untyped⟩)
    · rw [parameterName?] at unnamed
      simp [parameter, unnamed]
    · rcases short e with ⟨typed, -⟩ | ⟨-, absent⟩
      · exact absurd typed untyped
      · rw [parameterName?] at named
        simp [parameter, named, absent]
  · intro e unsound
    cases named : parameterName? e with
    | none => exact ⟨_, .name named⟩
    | some name =>
      have untyped : ¬ StatesType e := fun typed => unsound ⟨by simp [named], typed⟩
      exact ⟨_, .type named untyped⟩

def prototypeName? (prototype : Element) : Option String :=
  ((prototype.firstNamed? "name").bind Element.leadText?).map trim

/-- The first prototype counts. It needs a name and a type, and every parameter must be sound. -/
def SoundCommand (e : Element) : Prop :=
  ∃ prototype, e.firstNamed? "proto" = some prototype ∧ (prototypeName? prototype).isSome ∧
    StatesType prototype ∧ ∀ p ∈ e.elementsNamed "param", SoundParameter p

def commandName? (e : Element) : Option String := (e.firstNamed? "proto").bind prototypeName?

def statedSignature (e : Element) : Signature :=
  let prototype := (e.firstNamed? "proto").getD default
  let short := ((prototype.firstNamed? "ptype").map Element.leadText).getD prototype.leadText
  ⟨⟨trim short, fullType prototype⟩, (e.elementsNamed "param").map statedParameter⟩

inductive CommandFault (e : Element) : Defect → Prop
  | prototype (absent : e.firstNamed? "proto" = none) : CommandFault e .prototype
  | name {prototype : Element} (found : e.firstNamed? "proto" = some prototype)
    (unnamed : prototypeName? prototype = none) : CommandFault e .commandName
  | result {prototype : Element} {name : String} (found : e.firstNamed? "proto" = some prototype)
    (named : prototypeName? prototype = some name) (untyped : ¬ StatesType prototype) :
    CommandFault e (.returnType name)
  | parameter {prototype : Element} {name : String} {d : Defect}
    (found : e.firstNamed? "proto" = some prototype)
    (named : prototypeName? prototype = some name) (typed : StatesType prototype)
    (fault : FirstFault SoundParameter (ParameterFault name) (e.elementsNamed "param") d) :
    CommandFault e d

theorem firstNamed?_eq_none_iff (e : Element) (tag : String) :
    e.firstNamed? tag = none ↔ e.elementsNamed tag = [] := by
  simp [Element.firstNamed?, Element.elementsNamed]

theorem prototypeName?_eq_some_iff {prototype : Element} {name : String} :
    prototypeName? prototype = some name ↔
      ∃ text, (prototype.firstNamed? "name").bind Element.leadText? = some text ∧ trim text = name := by
  simp only [prototypeName?, Option.map_eq_some_iff]

theorem prototypeName?_eq_none_iff {prototype : Element} :
    prototypeName? prototype = none ↔
      (prototype.firstNamed? "name").bind Element.leadText? = none := by
  simp only [prototypeName?, Option.map_eq_none_iff]

theorem reads_command :
    Reads command SoundCommand (fun e => ((commandName? e).getD "", statedSignature e))
      CommandFault := by
  have short (e : Element) :=
    shortText?_eq e (e.firstNamed? "ptype") (firstNamed?_eq_none_iff e "ptype")
  constructor
  · rintro e ⟨prototype, found, named, typed, parameters⟩
    obtain ⟨name, named⟩ := Option.isSome_iff_exists.mp named
    obtain ⟨text, stated, rfl⟩ := prototypeName?_eq_some_iff.mp named
    have read := (reads_parameter (trim text)).mapM.ok _ parameters
    rcases short prototype with ⟨-, type⟩ | ⟨untyped, -⟩
    · simp [command, statedSignature, commandName?, found, named, stated, type, read, bind, Except.bind,
        pure, Except.pure]
    · exact absurd typed untyped
  · rintro e d (absent | ⟨found, unnamed⟩ | @⟨prototype, _, found, named, untyped⟩ |
      @⟨prototype, _, _, found, named, typed, fault⟩)
    · simp [command, absent]
    · rw [prototypeName?_eq_none_iff] at unnamed
      simp [command, found, unnamed]
    · obtain ⟨text, stated, rfl⟩ := prototypeName?_eq_some_iff.mp named
      rcases short prototype with ⟨typed, -⟩ | ⟨-, absent⟩
      · exact absurd typed untyped
      · simp [command, found, stated, absent]
    · obtain ⟨text, stated, rfl⟩ := prototypeName?_eq_some_iff.mp named
      have failed := (reads_parameter (trim text)).mapM.error _ d fault
      rcases short prototype with ⟨-, type⟩ | ⟨untyped, -⟩
      · simp [command, found, stated, type, failed, bind, Except.bind]
      · exact absurd typed untyped
  · intro e unsound
    cases found : e.firstNamed? "proto" with
    | none => exact ⟨_, .prototype found⟩
    | some prototype =>
      cases named : prototypeName? prototype with
      | none => exact ⟨_, .name found named⟩
      | some name =>
        by_cases typed : StatesType prototype
        · have parameters : ¬ ∀ p ∈ e.elementsNamed "param", SoundParameter p :=
            fun h => unsound ⟨prototype, found, by simp [named], typed, h⟩
          obtain ⟨d, fault⟩ := exists_firstFault (reads_parameter name).faulty parameters
          exact ⟨d, .parameter found named typed fault⟩
        · exact ⟨_, .result found named typed⟩

def commandElements (root : Element) : List Element :=
  (root.elementsNamed "commands").flatMap (Element.elementsNamed · "command")

def statedRegistry (root : Element) : Registry where
  types := typesOf root
  constants := constantsOf root
  commands := (commandElements root).map fun e => ((commandName? e).getD "", statedSignature e)

theorem reads_registry :
    Reads ofRoot (fun root => ∀ e ∈ commandElements root, SoundCommand e) statedRegistry
      (fun root => FirstFault SoundCommand CommandFault (commandElements root)) where
  ok root sound := by
    have read := reads_command.mapM.ok (commandElements root) sound
    rw [commandElements] at read
    simp [ofRoot, commandsOf, statedRegistry, commandElements, read, bind, Except.bind, pure, Except.pure]
  error root d fault := by
    have failed := reads_command.mapM.error (commandElements root) d fault
    rw [commandElements] at failed
    simp [ofRoot, commandsOf, failed, bind, Except.bind]
  faulty root := reads_command.mapM.faulty (commandElements root)

end GLHeader.Registry
