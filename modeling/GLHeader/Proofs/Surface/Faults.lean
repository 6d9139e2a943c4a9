import GLHeader.Proofs.Surface.Exposure

namespace GLHeader.Surface

open GLHeader.Xml

theorem soundRoot_iff (api : String) (root : Element) :
    SoundRoot api root ↔ (∀ e ∈ Registry.commandElements root, Registry.SoundCommand e) ∧
      (∀ e ∈ root.elementsNamed "feature", (e.attribute? "api").isSome) ∧
      ∀ e ∈ Release.familyElements root api, (e.attribute? "number").isSome ∧
        (e.attribute? "name").isSome ∧ ∀ r ∈ Release.references e, Release.SoundReference r := by
  constructor
  · rintro ⟨commands, features⟩
    refine ⟨commands, fun e member => (features e member).1, ?_⟩
    intro e member
    obtain ⟨inside, own⟩ := List.mem_filter.mp member
    exact (features e inside).2 (of_decide_eq_true own)
  · rintro ⟨commands, families, parts⟩
    refine ⟨commands, fun e member => ⟨families e member, fun own => ?_⟩⟩
    exact parts e (List.mem_filter.mpr ⟨member, decide_eq_true own⟩)

/-- A surface is built exactly from the trees whose commands are sound, whose features all state an
API and whose features of the wanted API state all else; otherwise the first missing part is
reported, that of a command before that of a feature. -/
theorem ofRoot_outcome (root : Element) (target : Target) :
    ((∃ s, ofRoot root target = .ok s) ↔
      (∀ e ∈ Registry.commandElements root, Registry.SoundCommand e) ∧
        (∀ e ∈ root.elementsNamed "feature", (e.attribute? "api").isSome) ∧
        ∀ e ∈ Release.familyElements root target.api, (e.attribute? "number").isSome ∧
          (e.attribute? "name").isSome ∧ ∀ r ∈ Release.references e, Release.SoundReference r) ∧
      ∀ d, ofRoot root target = .error d ↔ RootFault target.api root d := by
  have reads := reads_surface target
  constructor
  · rw [← soundRoot_iff]
    exact reads.sound_iff
  · intro d
    exact reads.error_iff

def twoPrototypes : Element :=
  ⟨"registry", [], [.element "commands" [] [.element "command" [] [
    .element "proto" [] [],
    .element "proto" [] [.text "void ", .element "name" [] [.text "glFlush"]]]]]⟩

/-- It does not help a command that some prototype after the first is whole. -/
theorem later_prototype_unread :
    ¬ ((∃ s, ofRoot twoPrototypes ⟨"gl", "1.0", "core"⟩ = .ok s) ↔
      (∀ e ∈ Registry.commandElements twoPrototypes,
        (∃ prototype ∈ e.elementsNamed "proto", (Registry.prototypeName? prototype).isSome ∧
          Registry.StatesType prototype) ∧
        ∀ p ∈ e.elementsNamed "param", Registry.SoundParameter p) ∧
      (∀ e ∈ twoPrototypes.elementsNamed "feature", (e.attribute? "api").isSome) ∧
      ∀ e ∈ Release.familyElements twoPrototypes "gl", (e.attribute? "number").isSome ∧
        (e.attribute? "name").isSome ∧ ∀ r ∈ Release.references e, Release.SoundReference r) := by
  intro claimed
  have features : twoPrototypes.elementsNamed "feature" = [] := rfl
  have family : Release.familyElements twoPrototypes "gl" = [] := rfl
  obtain ⟨s, built⟩ := claimed.mpr (by
    refine ⟨?_, by simp [features], by simp [family]⟩
    intro e member
    obtain rfl := List.mem_singleton.mp member
    refine ⟨⟨_, List.mem_cons_of_mem _ List.mem_cons_self, rfl, .inr rfl⟩, ?_⟩
    intro p parameter
    cases parameter)
  have failed : ofRoot twoPrototypes ⟨"gl", "1.0", "core"⟩ = .error .commandName := rfl
  cases failed.symm.trans built

end GLHeader.Surface
