import GLHeader.Proofs.Surface.Exposure

namespace GLHeader

open GLHeader.Xml

/-- The same elements, among which those of one name keep their order. -/
structure Reordered {ι : Type} (name? : ι → Option String) (xs ys : List ι) : Prop where
  perm : xs.Perm ys
  order : ∀ name, xs.filter (name? · == some name) = ys.filter (name? · == some name)

theorem Reordered.forall_iff {ι : Type} {name? : ι → Option String} {xs ys : List ι} {p : ι → Prop}
    (moved : Reordered name? xs ys) : (∀ x ∈ xs, p x) ↔ ∀ y ∈ ys, p y :=
  forall_congr' fun _ => imp_congr_left moved.perm.mem_iff

theorem Reordered.swap {ι : Type} {name? : ι → Option String} {x y : ι} (apart : name? x ≠ name? y) (rest : List ι) :
    Reordered name? (x :: y :: rest) (y :: x :: rest) where
  perm := .swap _ _ _
  order name := by
    by_cases first : name? x = some name
    · have second : name? y ≠ some name := fun same => apart (first.trans same.symm)
      simp [first, second]
    · simp [List.filter_cons, first]

namespace Surface

def typeElements (root : Element) : List Element := (root.elementsNamed "types").flatMap Element.elements

def constantElements (root : Element) : List Element :=
  (root.elementsNamed "enums").flatMap (Element.elementsNamed · "enum")

/-- The second tree has the types, features and definitions of the first one. However they are grouped
and wherever they stand, types and features keep their order, and so do definitions of one name. -/
structure Rearranged (root other : Element) : Prop where
  types : typeElements root = typeElements other
  features : root.elementsNamed "feature" = other.elementsNamed "feature"
  constants : Reordered (·.attribute? "name") (constantElements root) (constantElements other)
  commands : Reordered Registry.commandName? (Registry.commandElements root) (Registry.commandElements other)

/-- Either neither is a surface, or they are equal, and so is everything that is written for them. -/
def SameOutcome {ε : Type} (x y : Except ε Surface) : Prop :=
  ((∃ e, x = .error e) ∧ ∃ e, y = .error e) ∨
    ∃ s t, x = .ok s ∧ y = .ok t ∧ s = t ∧ s.dump = t.dump ∧
      ∀ templates o, s.header templates o = t.header templates o

theorem SameOutcome.mapError {ε δ : Type} {x y : Except ε Surface} (same : SameOutcome x y) (f : ε → δ) :
    SameOutcome (x.mapError f) (y.mapError f) := by
  rcases same with ⟨⟨e, rfl⟩, e', rfl⟩ | ⟨s, t, rfl, rfl, equal⟩
  · exact .inl ⟨⟨f e, rfl⟩, f e', rfl⟩
  · exact .inr ⟨s, t, rfl, rfl, equal⟩

section Rearranged

variable {root other : Element} (same : Rearranged root other)
include same

theorem definedValue?_rearranged (name : String) : definedValue? root name = definedValue? other name := by
  -- A definition counts by what it states itself, so the order among those of other names is no matter.
  have swapped (tree : Element) : (definedConstants tree).filter (·.attribute? "name" == some name) =
      ((constantElements tree).filter (·.attribute? "name" == some name)).filter fun e =>
        (e.attribute? "name").isSome && (e.attribute? "value").isSome := List.filter_comm _ _ _
  rw [definedValue?, definedValue?, swapped, swapped, same.constants.order name]

theorem definedSignature?_rearranged (name : String) :
    definedSignature? root name = definedSignature? other name := by
  rw [definedSignature?, definedSignature?, same.commands.order name]

theorem exposed_rearranged (target : Target) : exposed root target = exposed other target := by
  have family : Release.familyElements root target.api = Release.familyElements other target.api := by
    rw [Release.familyElements, Release.familyElements, same.features]
  have feature : exposedFeature root = exposedFeature other := by
    funext e
    simp only [exposedFeature, definedValue?_rearranged same, definedSignature?_rearranged same]
  have types : (root.elementsNamed "types").flatMap Element.elements =
      (other.elementsNamed "types").flatMap Element.elements := same.types
  simp only [exposed, family, feature, types]

theorem soundRoot_rearranged (api : String) : SoundRoot api root ↔ SoundRoot api other := by
  rw [SoundRoot, SoundRoot, same.commands.forall_iff, same.features]

/-- A surface does not depend on where the definitions stand, as long as those of one name keep their
order, and neither does whether there is one. -/
theorem surface_of_rearranged (target : Target) :
    SameOutcome (ofRoot root target) (ofRoot other target) ∧
      ∀ first second, Xml.read? first = some root → Xml.read? second = some other →
        SameOutcome (ofDocument first target) (ofDocument second target) := by
  have outcome : SameOutcome (ofRoot root target) (ofRoot other target) := by
    have reads := reads_surface target
    have sound := soundRoot_rearranged same target.api
    by_cases here : SoundRoot target.api root
    · have rebuilt := reads.ok other (sound.mp here)
      rw [← exposed_rearranged same target] at rebuilt
      exact .inr ⟨_, _, reads.ok root here, rebuilt, rfl, rfl, fun _ _ => rfl⟩
    · obtain ⟨d, fault⟩ := reads.faulty root here
      obtain ⟨d', fault'⟩ := reads.faulty other fun there => here (sound.mpr there)
      exact .inl ⟨⟨d, reads.error root d fault⟩, d', reads.error other d' fault'⟩
  refine ⟨outcome, fun first second read read' => ?_⟩
  rw [ofDocument_of_read read, ofDocument_of_read read']
  exact outcome.mapError Failure.incompleteRegistry

end Rearranged

/-- A constant and a command that are each defined before and after another one, in several groups around the
feature in the one tree and in one group after it in the other, where the other definitions come first. -/
theorem surface_of_rearranged_gathered :
    let named (tag name : String) : Node := .element tag [⟨none, "name", name⟩] []
    let valued (name value : String) : Node :=
      .element "enum" [⟨none, "name", name⟩, ⟨none, "value", value⟩] []
    let command (result name : String) : Node :=
      .element "command" [] [.element "proto" [] [.text result, .element "name" [] [.text name]]]
    let feature : Node := .element "feature" [⟨none, "api", "gl"⟩, ⟨none, "number", "1.0"⟩, ⟨none, "name", "GL_1_0"⟩]
      [.element "require" [] [named "enum" "B", named "enum" "A", named "command" "f", named "command" "g"]]
    let scattered : Element := ⟨"registry", [],
      [.element "enums" [] [valued "A" "1", valued "B" "2"], .element "enums" [] [valued "A" "3"],
        .element "commands" [] [command "void" " f ", command "int" "g"], feature,
        .element "commands" [] [command "long" "f"]]⟩
    let gathered : Element := ⟨"registry", [],
      [feature, .comment, .element "unused" [] [valued "A" "4"],
        .element "enums" [] [valued "B" "2", .text " ", valued "A" "1", valued "A" "3"],
        .element "commands" [] [command "int" "g", command "void" " f ", command "long" "f"]]⟩
    Rearranged scattered gathered ∧
      ∃ s, ofRoot scattered ⟨"gl", "1.0", "core"⟩ = .ok s ∧ ofRoot gathered ⟨"gl", "1.0", "core"⟩ = .ok s ∧
        s.features = [⟨"1.0", "GL_1_0", [⟨"B", "2"⟩, ⟨"A", "3"⟩],
          [⟨"f", ⟨⟨"long", "long"⟩, []⟩⟩, ⟨"g", ⟨⟨"int", "int"⟩, []⟩⟩]⟩] := by
  intro named valued command feature scattered gathered
  have constants : Reordered (·.attribute? "name") (constantElements scattered) (constantElements gathered) :=
    .swap (by decide) _
  have commands : Reordered Registry.commandName? (Registry.commandElements scattered)
      (Registry.commandElements gathered) := .swap (by decide +kernel) _
  have same : Rearranged scattered gathered := ⟨rfl, rfl, constants, commands⟩
  have built : ofRoot scattered ⟨"gl", "1.0", "core"⟩ = .ok ⟨⟨"gl", "1.0", "core"⟩, [],
      [⟨"1.0", "GL_1_0", [⟨"B", "2"⟩, ⟨"A", "3"⟩],
        [⟨"f", ⟨⟨"long", "long"⟩, []⟩⟩, ⟨"g", ⟨⟨"int", "int"⟩, []⟩⟩]⟩], true⟩ := by decide +kernel
  rcases (surface_of_rearranged same ⟨"gl", "1.0", "core"⟩).1 with ⟨⟨d, failed⟩, -⟩ | ⟨s, t, built', rebuilt, rfl, -⟩
  · rw [built] at failed
    cases failed
  · rw [built] at built'
    cases built'
    exact ⟨same, _, built, rebuilt, rfl⟩

end Surface

end GLHeader
