import GLHeader.Proofs.Header.Pointers
import GLHeader.SymbolCheck

namespace GLHeader

/-- Two lists make up a third one, in which each stands in its order. -/
inductive Interleaves {α : Type} : List α → List α → List α → Prop
  | nil : Interleaves [] [] []
  | left {x : α} {xs ys zs : List α} (rest : Interleaves xs ys zs) : Interleaves (x :: xs) ys (x :: zs)
  | right {y : α} {xs ys zs : List α} (rest : Interleaves xs ys zs) : Interleaves xs (y :: ys) (y :: zs)

theorem interleaves_filter {α : Type} (p : α → Bool) (xs : List α) :
    Interleaves (xs.filter p) (xs.filter fun x => !p x) xs := by
  induction xs with
  | nil => exact .nil
  | cons x xs ih =>
    cases kept : p x with
    | true => simpa [kept] using ih.left
    | false => simpa [kept] using ih.right

theorem Interleaves.length {α : Type} {xs ys zs : List α} (h : Interleaves xs ys zs) :
    xs.length + ys.length = zs.length := by
  induction h with
  | nil => rfl
  | left _ ih => rw [List.length_cons, List.length_cons, ← ih, Nat.add_right_comm]
  | right _ ih => rw [List.length_cons, List.length_cons, ← ih, Nat.add_assoc]

/-- An entry tells of some names which are found and which are missing. -/
structure FeatureCheck.Splits (isFound : String → Bool) (names : List String) (entry : FeatureCheck) : Prop where
  interleaved : Interleaves entry.found entry.missing names
  found : entry.found = names.filter isFound
  missing : entry.missing = names.filter fun name => !isFound name

def Feature.commandNames (f : Feature) : List String := f.commands.map Command.name

def Feature.check (f : Feature) (isFound : String → Bool) : FeatureCheck :=
  ⟨f.name, f.commandNames.filter isFound, f.commandNames.filter fun name => !isFound name⟩

theorem Surface.check_eq (s : Surface) (isFound : String → Bool) :
    s.check isFound = s.features.map (Feature.check · isFound) := by
  simp [Surface.check, Feature.check, Feature.commandNames, List.partition_eq_filter_filter, Function.comp_def]

theorem Feature.check_splits (f : Feature) (isFound : String → Bool) :
    (f.check isFound).Splits isFound f.commandNames :=
  ⟨interleaves_filter isFound f.commandNames, rfl, rfl⟩

namespace SymbolCheck

theorem totals_features (features : List Feature) (isFound : String → Bool) :
    foundTotal (features.map (Feature.check · isFound)) + missingTotal (features.map (Feature.check · isFound)) =
      (features.flatMap Feature.commandNames).length := by
  induction features with
  | nil => rfl
  | cons f features ih =>
    have first := (f.check_splits isFound).interleaved.length
    simp only [foundTotal, missingTotal, List.map_cons, List.foldr_cons, List.flatMap_cons, List.length_append]
      at ih ⊢
    omega

theorem findsAll_features (features : List Feature) (isFound : String → Bool) :
    findsAll (features.map (Feature.check · isFound)) = true ↔
      ∀ name ∈ features.flatMap Feature.commandNames, isFound name = true := by
  rw [findsAll, beq_iff_eq]
  induction features with
  | nil => simp [missingTotal]
  | cons f features ih =>
    have first : (f.check isFound).missing.length = 0 ↔ ∀ name ∈ f.commandNames, isFound name = true := by
      simp [Feature.check]
    simp only [missingTotal, List.map_cons, List.foldr_cons, Nat.add_eq_zero_iff, first, List.flatMap_cons,
      List.forall_mem_append] at ih ⊢
    rw [ih]

end SymbolCheck

theorem Surface.commandTotal_eq (s : Surface) :
    s.commandTotal = (s.features.flatMap Feature.commandNames).length := by
  rw [commandTotal, List.length_flatMap]
  simp [Feature.commandNames, List.sum]

namespace Header

open GLHeader.Text

def loadStatements (text : String) : List LoadStatement := (lines text).filterMap load?

theorem load?_directive (depth : Nat) (wording : String) : load? (Region.directive depth wording) = none := by
  apply load?_of_start
  rw [toList_directive]
  simp

def Options.loadStatement (o : Options) (c : Command) : LoadStatement :=
  ⟨o.pointer c.name, procedureType c.name, o.lookupFunction, c.name⟩

section Loads

variable {s : Surface} {o : Options} (names : WellNamed s o)

include names

theorem WellNamed.loadStatements_eq :
    loadStatements (sections s o).loads = s.features.flatMap fun f => f.commands.map o.loadStatement := by
  rw [loadStatements, names.lines_loads, passLines, List.flatMap_map, List.filterMap_flatMap]
  apply List.flatMap_congr
  intro f member
  have body : (o.loadRegion f).body.filterMap load? = f.commands.map o.loadStatement := by
    rw [Options.loadRegion, List.filterMap_map, ← List.filterMap_eq_map]
    apply List.filterMap_congr
    intro c inside
    exact load?_loadLine names.pointers (names.commands f member c inside) names.lookup
  have opens : load? (o.loadRegion f).opening = none := load?_directive _ _
  have closes : load? (o.loadRegion f).closing = none := load?_directive _ _
  simp [Region.lines, opens, closes, body]

/-- The names in the load statements of a region are split by the entry of its feature. All
statements stand in regions, and the check finds all exactly when it finds every name in them. -/
theorem check_of_loads (isFound : String → Bool) :
    ∃ regions, loads? (sections s o).loads = some regions ∧
      regions.flatMap Prod.snd = loadStatements (sections s o).loads ∧
      List.Forall₂ (fun region entry => entry.name = region.1 ∧
        entry.Splits isFound (region.2.map LoadStatement.symbol)) regions (s.check isFound) ∧
      (s.check isFound).foundTotal + (s.check isFound).missingTotal = s.commandTotal ∧
      s.commandTotal = (loadStatements (sections s o).loads).length ∧
      ((s.check isFound).findsAll = true ↔
        ∀ l ∈ loadStatements (sections s o).loads, isFound l.symbol = true) := by
  have symbols (f : Feature) : (f.commands.map o.loadStatement).map LoadStatement.symbol = f.commandNames := by
    simp [Options.loadStatement, Feature.commandNames, Function.comp_def]
  have all : (loadStatements (sections s o).loads).map LoadStatement.symbol =
      s.features.flatMap Feature.commandNames := by
    rw [names.loadStatements_eq, List.map_flatMap]
    exact congrArg s.features.flatMap (funext symbols)
  refine ⟨_, names.loads?_loads, ?_, ?_, ?_, ?_, ?_⟩
  · rw [names.loadStatements_eq, List.flatMap_map]
    rfl
  · rw [Surface.check_eq, List.forall₂_map_left_iff, List.forall₂_map_right_iff, List.forall₂_same]
    intro f member
    refine ⟨rfl, ?_⟩
    have split := f.check_splits isFound
    rwa [← symbols f] at split
  · rw [Surface.check_eq, SymbolCheck.totals_features, Surface.commandTotal_eq]
  · rw [Surface.commandTotal_eq, ← all, List.length_map]
  · rw [Surface.check_eq, SymbolCheck.findsAll_features, ← all, List.forall_mem_map]

end Loads

theorem check_of_loads_repeated :
    let clear : Command := ⟨"glClear", ⟨⟨"void", "void"⟩, []⟩⟩
    let flush : Command := ⟨"glFlush", ⟨⟨"void\n", "\n"⟩, []⟩⟩
    let s : Surface := ⟨⟨"gl", "1.2", "core"⟩, [], [⟨"1.0", "GL_1_0", [], [flush, clear, flush]⟩,
      ⟨"1.1", "GL_1_1", [], []⟩, ⟨"1.2", "GL_1_2", [], [flush]⟩], true⟩
    let library : Library := ⟨["glClear"]⟩
    WellNamed s {} ∧
      s.check library.isFound = [⟨"GL_1_0", ["glClear"], ["glFlush", "glFlush"]⟩, ⟨"GL_1_1", [], []⟩,
        ⟨"GL_1_2", [], ["glFlush"]⟩] ∧
      (loadStatements (sections s {}).loads).length = 4 ∧
      ¬ ∀ l ∈ loadStatements (sections s {}).loads, library.isFound l.symbol = true := by
  intro clear flush s library
  have names : WellNamed s {} := ⟨by decide, by decide, by decide, by decide⟩
  obtain ⟨regions, -, -, -, -, total, all⟩ := check_of_loads names library.isFound
  refine ⟨names, by decide, total.symm, fun found => ?_⟩
  exact absurd (all.mpr found) (by decide)

end Header

end GLHeader
