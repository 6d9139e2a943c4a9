import GLHeader.Proofs.Traversal
import GLHeader.Release

namespace GLHeader.Release

open GLHeader.Xml

def SoundReference (e : Element) : Prop :=
  e.name = "enum" ∨ e.name = "command" → (e.attribute? "name").isSome

def statedReference? (e : Element) : Option Reference :=
  if e.name = "enum" then (e.attribute? "name").map .constant
  else if e.name = "command" then (e.attribute? "name").map .command
  else none

inductive ReferenceFault (feature : String) (e : Element) : Defect → Prop
  | name (refers : e.name = "enum" ∨ e.name = "command") (unnamed : e.attribute? "name" = none) :
    ReferenceFault feature e (.referenceName feature)

theorem reads_reference (feature : String) :
    Reads (reference? feature) SoundReference statedReference? (ReferenceFault feature) := by
  constructor
  · intro e sound
    by_cases constant : e.name = "enum"
    · obtain ⟨name, named⟩ := Option.isSome_iff_exists.mp (sound (.inl constant))
      simp [reference?, statedReference?, constant, named]
    · by_cases command : e.name = "command"
      · obtain ⟨name, named⟩ := Option.isSome_iff_exists.mp (sound (.inr command))
        simp [reference?, statedReference?, command, named]
      · simp [reference?, statedReference?, constant, command]
  · rintro e d ⟨refers, unnamed⟩
    rcases refers with constant | command
    · simp [reference?, constant, unnamed]
    · simp [reference?, command, unnamed]
  · intro e unsound
    simp only [SoundReference, Classical.not_imp, Option.not_isSome_iff_eq_none] at unsound
    exact ⟨_, .name unsound.1 unsound.2⟩

def required (tag : String) (e : Element) : List String :=
  ((e.elementsNamed "require").flatMap (Element.elementsNamed · tag)).filterMap (·.attribute? "name")

def references (e : Element) : List Element := (e.elementsNamed "require").flatMap Element.elements

theorem required_eq (tag : String) (e : Element) :
    required tag e = ((references e).filter (·.name == tag)).filterMap (·.attribute? "name") := by
  rw [required, references, List.filter_flatMap]
  rfl

theorem statedReference?_constant (e : Element) :
    (statedReference? e).bind Reference.constant? =
      if e.name == "enum" then e.attribute? "name" else none := by
  by_cases constant : e.name = "enum"
  · cases named : e.attribute? "name" <;> simp [statedReference?, constant, named, Reference.constant?]
  · by_cases command : e.name = "command"
    · cases named : e.attribute? "name" <;> simp [statedReference?, command, named, Reference.constant?]
    · simp [statedReference?, constant, command]

theorem statedReference?_command (e : Element) :
    (statedReference? e).bind Reference.command? =
      if e.name == "command" then e.attribute? "name" else none := by
  by_cases constant : e.name = "enum"
  · cases named : e.attribute? "name" <;> simp [statedReference?, constant, named, Reference.command?]
  · by_cases command : e.name = "command"
    · cases named : e.attribute? "name" <;> simp [statedReference?, command, named, Reference.command?]
    · simp [statedReference?, constant, command]

theorem required_of_kind (kind? : Reference → Option String) (tag : String)
    (kind : ∀ e, (statedReference? e).bind kind? = if e.name == tag then e.attribute? "name" else none)
    (e : Element) :
    (((references e).map statedReference?).filterMap id).filterMap kind? = required tag e := by
  rw [required_eq, List.filterMap_map, List.filterMap_filterMap, List.filterMap_filter]
  congr 1
  funext r
  exact kind r

/-- Every feature needs an API. One of the API in question needs a number and a name, and all its
references must be sound. -/
def SoundFeature (api : String) (e : Element) : Prop :=
  (e.attribute? "api").isSome ∧ (e.attribute? "api" = some api →
    (e.attribute? "number").isSome ∧ (e.attribute? "name").isSome ∧
      ∀ r ∈ references e, SoundReference r)

def statedRelease (e : Element) : Release where
  version := (e.attribute? "number").getD ""
  name := (e.attribute? "name").getD ""
  constants := required "enum" e
  commands := required "command" e

inductive FeatureFault (api : String) (e : Element) : Defect → Prop
  | family (absent : e.attribute? "api" = none) : FeatureFault api e .featureApi
  | number (own : e.attribute? "api" = some api) (absent : e.attribute? "number" = none) :
    FeatureFault api e .featureNumber
  | name {number : String} (own : e.attribute? "api" = some api)
    (numbered : e.attribute? "number" = some number) (absent : e.attribute? "name" = none) :
    FeatureFault api e (.featureName number)
  | reference {number name : String} {d : Defect} (own : e.attribute? "api" = some api)
    (numbered : e.attribute? "number" = some number) (named : e.attribute? "name" = some name)
    (fault : FirstFault SoundReference (ReferenceFault name) (references e) d) :
    FeatureFault api e d

theorem reads_feature (api : String) :
    Reads (ofElement? api) (SoundFeature api)
      (fun e => if e.attribute? "api" = some api then some (statedRelease e) else none)
      (FeatureFault api) := by
  constructor
  · rintro e ⟨family, parts⟩
    obtain ⟨family, stated⟩ := Option.isSome_iff_exists.mp family
    by_cases own : family = api
    · subst own
      obtain ⟨numbered, named, sound⟩ := parts stated
      obtain ⟨number, numbered⟩ := Option.isSome_iff_exists.mp numbered
      obtain ⟨name, named⟩ := Option.isSome_iff_exists.mp named
      have read := (reads_reference name).mapM.ok _ sound
      have constants := required_of_kind _ "enum" statedReference?_constant e
      have commands := required_of_kind _ "command" statedReference?_command e
      rw [references] at read constants commands
      simp [ofElement?, stated, numbered, named, read, statedRelease, ← constants, ← commands, bind,
        Except.bind, pure, Except.pure]
    · simp [ofElement?, stated, own, pure, Except.pure]
  · rintro e d (absent | ⟨own, absent⟩ | ⟨own, numbered, absent⟩ |
      @⟨_, name, _, own, numbered, named, fault⟩)
    · simp [ofElement?, absent]
    · simp [ofElement?, own, absent]
    · simp [ofElement?, own, numbered, absent]
    · have failed := (reads_reference name).mapM.error _ d fault
      rw [references] at failed
      simp [ofElement?, own, numbered, named, failed, bind, Except.bind]
  · intro e unsound
    cases family : e.attribute? "api" with
    | none => exact ⟨_, .family family⟩
    | some family' =>
      by_cases own : family' = api
      · subst own
        cases numbered : e.attribute? "number" with
        | none => exact ⟨_, .number family numbered⟩
        | some number =>
          cases named : e.attribute? "name" with
          | none => exact ⟨_, .name family numbered named⟩
          | some name =>
            have faulty : ¬ ∀ r ∈ references e, SoundReference r := fun h =>
              unsound ⟨by simp [family], fun _ => ⟨by simp [numbered], by simp [named], h⟩⟩
            obtain ⟨d, fault⟩ := exists_firstFault (reads_reference name).faulty faulty
            exact ⟨d, .reference family numbered named fault⟩
      · exact absurd ⟨by simp [family], fun h => absurd (Option.some.inj (family.symm.trans h)) own⟩ unsound

def familyElements (root : Element) (api : String) : List Element :=
  (root.elementsNamed "feature").filter (·.attribute? "api" = some api)

theorem reads_releases (api : String) :
    Reads (ofRoot · api) (fun root => ∀ e ∈ root.elementsNamed "feature", SoundFeature api e)
      (fun root => (familyElements root api).map statedRelease)
      (fun root => FirstFault (SoundFeature api) (FeatureFault api) (root.elementsNamed "feature")) where
  ok root sound := by
    have kept : ((root.elementsNamed "feature").map fun e =>
        if e.attribute? "api" = some api then some (statedRelease e) else none).filterMap id =
          (familyElements root api).map statedRelease := by
      rw [familyElements, List.filterMap_map, ← List.filterMap_eq_map, List.filterMap_filter]
      congr 1
      funext e
      simp
    rw [ofRoot, (reads_feature api).mapM.ok _ sound]
    exact congrArg Except.ok kept
  error root d fault := by
    rw [ofRoot, (reads_feature api).mapM.error _ d fault]
    rfl
  faulty root := (reads_feature api).mapM.faulty _

end GLHeader.Release
