import GLHeader.Proofs.Header.SectionLines
import GLHeader.Text.Blank

namespace GLHeader.Header

open GLHeader.Text

/-- The lines are these regions, one for each feature under its name. -/
structure Guards (features : List Feature) (regions : List Region) (ls : List String) : Prop where
  scanned : regions? ls = some regions
  written : ls = regions.flatMap fun r => r.opening :: r.body ++ [r.closing]
  names : regions.map Region.guardName = features.map Feature.name
  inner : ∀ r ∈ regions, ∀ line ∈ r.body, IsInner line

theorem guards_passLines {region : Feature → Region} (features : List Feature)
    (inner : ∀ f, ∀ line ∈ (region f).body, IsInner line)
    (named : ∀ f, (region f).guardName = f.name) :
    Guards features (features.map region) (passLines region features) where
  scanned := regions?_passLines features inner
  written := rfl
  names := by simp [named]
  inner := by
    intro r member
    obtain ⟨f, -, rfl⟩ := List.mem_map.mp member
    exact inner f

/-- Declarations, definitions and load statements are guarded feature by feature, also where a
feature adds nothing. The constants of the declarations stand before the first blank line, one
definition on each line, and the commands after it. -/
theorem sections_guarded {s : Surface} {o : Options} (whole : ∀ f ∈ s.features, f.IsOneLine)
    (pointers : OneLine o.pointerPrefix) (lookup : OneLine o.lookupFunction) :
    ∃ before after constants commands definitions loads,
      lines (sections s o).declarations = before ++ "" :: after ∧
      (∀ line ∈ before, ∃ c ∈ line.toList, isBlank c = false) ∧
      Guards s.features constants before ∧ Guards s.features commands after ∧
      Guards s.features definitions (lines (sections s o).definitions) ∧
      Guards s.features loads (lines (sections s o).loads) ∧
      constants.map Region.body = s.features.map fun f => f.constants.map fun c =>
        "#  define " ++ c.name ++ " " ++ c.value := by
  refine ⟨passLines constantRegion s.features, passLines o.declarationRegion s.features,
    s.features.map constantRegion, s.features.map o.declarationRegion, s.features.map o.definitionRegion,
    s.features.map o.loadRegion, lines_declarations whole pointers, ?_,
    guards_passLines s.features constantRegion_inner fun _ => rfl,
    guards_passLines s.features (declarationRegion_inner o) fun _ => rfl, ?_, ?_, ?_⟩
  · intro line member
    exact ⟨'#', List.mem_of_mem_head? (constantLines_head s.features line member), rfl⟩
  · rw [lines_definitions whole pointers]
    exact guards_passLines s.features (definitionRegion_inner o) fun _ => rfl
  · rw [lines_loads whole pointers lookup]
    exact guards_passLines s.features (loadRegion_inner o) fun _ => rfl
  · have line (c : Constant) : constantLine c = "#  define " ++ c.name ++ " " ++ c.value := by
      simp [constantLine, Region.directive, ← String.toList_inj]
    simp [constantRegion, line]

theorem sections_guarded_lookalikes :
    let close : Command := ⟨"#endif /* A) */", ⟨⟨"# if defined (A)", "#endif"⟩, []⟩⟩
    let s : Surface := ⟨⟨"gl", "1.1", "core"⟩, [],
      [⟨"1.0", "A) */", [⟨"A", "*/ # endif"⟩], [close, close]⟩, ⟨"1.1", "A) */", [], []⟩], true⟩
    (∀ f ∈ s.features, f.IsOneLine) ∧ OneLine (Options.pointerPrefix {}) ∧
      OneLine (Options.lookupFunction {}) ∧
      ∃ before after constants commands, lines (sections s {}).declarations = before ++ "" :: after ∧
        Guards s.features constants before ∧ Guards s.features commands after ∧
        constants.map Region.body = [["#  define A */ # endif"], []] := by
  intro close s
  have whole : ∀ f ∈ s.features, f.IsOneLine := by
    have signature : close.signature.IsOneLine := by
      refine ⟨by unfold TypeText.IsOneLine; decide, ?_⟩
      intro p member
      cases member
    intro f member
    simp only [s, List.mem_cons, List.not_mem_nil, or_false] at member
    rcases member with rfl | rfl
    · refine ⟨by decide, by decide, ?_⟩
      intro c inside
      simp only [List.mem_cons, List.not_mem_nil, or_false, or_self] at inside
      exact inside ▸ ⟨by decide, signature⟩
    · exact ⟨by decide, by decide, by simp⟩
  have pointers : OneLine (Options.pointerPrefix {}) := by decide
  have lookup : OneLine (Options.lookupFunction {}) := by decide
  obtain ⟨before, after, constants, commands, -, -, cut, -, first, second, -, -, bodies⟩ :=
    sections_guarded (o := {}) whole pointers lookup
  exact ⟨whole, pointers, lookup, before, after, constants, commands, cut, first, second, bodies⟩

end GLHeader.Header
