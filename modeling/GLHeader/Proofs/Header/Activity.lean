import GLHeader.Proofs.Header.Assembled
import GLHeader.Proofs.Header.Directives
import GLHeader.Proofs.Registry.Aliases

namespace GLHeader.Header

open GLHeader.Text GLHeader.Preprocessor Builtin

theorem isTame_of_chars {ls : List String} {chars : List (List Char)} (same : ls.map String.toList = chars)
    (balanced : chars.foldlM (fun depth line => nest? depth (directive? line)) 0 = some 0)
    (readable : chars.all fun line => isReadable (directive? line)) : IsTame ls := by
  refine ⟨?_, forall_of_chars same readable⟩
  subst same
  rwa [List.foldlM_map] at balanced

theorem isTame_builtin : ∀ block ∈ [foreignGuards, environment, interfaceLines, supportLines,
    implementationLines, ending.dropLast], IsTame block := by
  simp only [List.forall_mem_cons]
  refine ⟨?_, ?_, ?_, ?_, ?_, ?_, List.forall_mem_nil _⟩
  all_goals
    apply isTame_of_chars
    · repeat apply map_toList_cons
      exact List.map_nil
    · decide +kernel
    · decide +kernel

def guardNames : List String := ["GLAPI_H", "__gl_h_", "__GL_H__", "__glext_h_", "__gl_glext_h_"]

/-- The macros of a source file that implements the header and includes it first. -/
structure IsFresh (macros : Macros) : Prop where
  implementation : macros "GLAPI_IMPLEMENTATION" = true
  guards : ∀ name ∈ guardNames, macros name = false

theorem inclusionGuard_directives : (inclusionGuard.map fun line => directive? line.toList) =
    [some (.opening (some [[⟨false, "GLAPI_H"⟩]])), some (.define "GLAPI_H"), none,
      some (.opening (some [[⟨true, "__gl_h_"⟩], [⟨true, "__GL_H__"⟩], [⟨true, "__glext_h_"⟩],
        [⟨true, "__gl_glext_h_"⟩]])), some .error, some .closing] := by
  apply map_of_chars
  · repeat apply map_toList_cons
    exact List.map_nil
  · decide +kernel

theorem run_guard {opening define blank foreign error closing : String}
    (directives : ([opening, define, blank, foreign, error, closing].map fun line => directive? line.toList) =
      [some (.opening (some [[⟨false, "GLAPI_H"⟩]])), some (.define "GLAPI_H"), none,
        some (.opening (some [[⟨true, "__gl_h_"⟩], [⟨true, "__GL_H__"⟩], [⟨true, "__glext_h_"⟩],
          [⟨true, "__gl_glext_h_"⟩]])), some .error, some .closing])
    {macros : Macros} (fresh : IsFresh macros) :
    run ⟨macros, []⟩ [opening, define, blank, foreign, error, closing] =
      some (⟨Function.update macros "GLAPI_H" true, [⟨true, true⟩]⟩, [define, blank]) := by
  have unguarded := fresh.guards
  simp only [guardNames, List.forall_mem_cons] at unguarded
  obtain ⟨own, gl, core, glext, gl_glext, -⟩ := unguarded
  simp only [List.map_cons, List.map_nil, List.cons.injEq] at directives
  simp [run, State.keeps, State.step?, State.isActive, isConditional, holds, directives, own, gl, core, glext,
    gl_glext]

theorem isSteady_placed {ls : List String} (steady : ∀ line ∈ ls, IsSteady line) :
    ∀ line ∈ placed ls, IsSteady line := by
  cases ls with
  | nil => decide
  | cons line rest => exact steady

theorem directive?_alias {t : String} (known : Registry.IsAlias t) (start : t.toList.head? ≠ some '#') :
    directive? t.toList = none := by
  cases chars : t.toList with
  | nil => rfl
  | cons c rest =>
    have first : t.toList.head? = some c := by rw [chars]; rfl
    rw [← chars]
    refine directive?_of_head first (known.head_solid first) ?_
    rintro rfl
    exact start first

theorem plain_titleLines (s : Surface) : ∀ line ∈ titleLines s, directive? line.toList = none := by
  rw [titleLines, List.forall_mem_cons, List.forall_mem_singleton]
  refine ⟨by decide, ?_⟩
  apply directive?_plain
  simp +decide

theorem plain_notice : ∀ line ∈ notice, directive? line.toList = none := by
  have plain : ∀ line ∈ notice, (directive? line.toList).isNone = true := by
    apply forall_of_chars (p := fun line => (directive? line).isNone)
    · repeat apply map_toList_cons
      exact List.map_nil
    · decide +kernel
  exact fun line member => Option.isNone_iff_eq_none.mp (plain line member)

theorem steady_targetLines (s : Surface) : ∀ line ∈ targetLines s, IsSteady line := by
  have define (rest : String) : IsSteady ("# define " ++ rest) := by
    have spelled : "# define " ++ rest = Region.directive 1 ("define " ++ rest) := by
      rw [← String.toList_inj, toList_directive]
      simp
    rw [spelled]
    exact isSteady_define 1 rest
  rw [targetLines, List.forall_mem_cons, List.forall_mem_singleton]
  constructor
  · have first := define ("GLAPI_GL_VERSION \"" ++ s.target.version ++ "\"")
    rwa [← String.append_assoc, ← String.append_assoc] at first
  · have second := define ("GLAPI_GL_PROFILE \"" ++ s.target.profile ++ "\"")
    rwa [← String.append_assoc, ← String.append_assoc] at second

theorem run_preamble (s : Surface) {macros : Macros} (fresh : IsFresh macros) :
    ∃ after kept, run ⟨macros, []⟩ (preamble s) = some (⟨after, [counting]⟩, kept) ∧
      Extends macros after := by
  have guards := isTame_builtin foreignGuards (by simp)
  have platform := isTame_builtin environment (by simp)
  have active : ∀ f ∈ [counting], f.active = true := by decide
  have plain : ∀ line ∈ titleLines s ++ notice, directive? line.toList = none :=
    List.forall_mem_append.mpr ⟨plain_titleLines s, plain_notice⟩
  have title : run ⟨macros, []⟩ (titleLines s ++ notice) = some (⟨macros, []⟩, _) := run_plain rfl plain
  have guard : run ⟨macros, []⟩ inclusionGuard = some (⟨_, [counting]⟩, _) :=
    run_guard inclusionGuard_directives fresh
  obtain ⟨first, _, foreign⟩ := guards.runs [counting] (Function.update macros "GLAPI_H" true)
  obtain ⟨second, target, -⟩ := runs_steady active (steady_targetLines s) first
  obtain ⟨third, _, rest⟩ := platform.runs [counting] second
  have inner := (foreign.append target).append rest
  have ran := run_append title (run_append guard inner.run)
  have split : preamble s = (titleLines s ++ notice) ++ (inclusionGuard ++
      (foreignGuards ++ targetLines s ++ environment)) := by simp [preamble]
  exact ⟨third, _, split ▸ ran, (extends_update _ _).trans inner.grows⟩

theorem run_beforeConstants {s : Surface} (names : ∀ f ∈ s.features, IsIdentifier f.name)
    (types : ∀ t ∈ s.types, directive? t.toList = none) {macros : Macros} (fresh : IsFresh macros) :
    ∃ after kept, run ⟨macros, []⟩ (beforeConstants s) = some (⟨after, [counting]⟩,
        kept ++ (placed (versionLines s) ++ ["", "/* Types */"] ++ placed s.types ++
          ["", "/* Constants and entry points */"])) ∧
      Extends macros after ∧ ∀ f ∈ s.features, after f.name = true := by
  obtain ⟨between, kept, first, grows⟩ := run_preamble s fresh
  have versioned : ∀ line ∈ versionLines s, IsSteady line := by
    intro line member
    obtain ⟨f, inside, rfl⟩ := List.mem_map.mp member
    rw [IsSteady, directive?_versionLine (names f inside).isWord]
    rfl
  have typed : ∀ line ∈ s.types, IsSteady line := by
    intro line member
    rw [IsSteady, types line member]
    rfl
  have steady : ∀ line ∈ placed (versionLines s) ++ ["", "/* Types */"] ++ placed s.types ++
      ["", "/* Constants and entry points */"], IsSteady line := by
    simp only [List.forall_mem_append]
    exact ⟨⟨⟨isSteady_placed versioned, by decide⟩, isSteady_placed typed⟩, by decide⟩
  have active : ∀ f ∈ [counting], f.active = true := by decide
  obtain ⟨after, rest, defined⟩ := runs_steady active steady between
  refine ⟨after, kept, run_append first rest.run, grows.trans rest.grows, ?_⟩
  intro f member
  have here : versionLine f ∈ placed (versionLines s) := by
    have listed : versionLine f ∈ versionLines s := List.mem_map_of_mem member
    cases same : versionLines s with
    | nil =>
      rw [same] at listed
      cases listed
    | cons line lines =>
      rw [same] at listed
      exact listed
  refine defined (versionLine f) ?_ f.name (directive?_versionLine (names f member).isWord)
  simp only [List.mem_append, here, true_or]

theorem runs_between (before after : List String) {block : List String} (tame : IsTame block)
    (first : ∀ line ∈ before, IsSteady line) (last : ∀ line ∈ after, IsSteady line) {frames : List Frame}
    (active : ∀ f ∈ frames, f.active = true) (macros : Macros) :
    ∃ final kept, Runs frames macros (before ++ block ++ after) final kept := by
  obtain ⟨m, opening, -⟩ := runs_steady active first macros
  obtain ⟨m', kept, inner⟩ := tame.runs frames m
  obtain ⟨final, closing, -⟩ := runs_steady active last m'
  exact ⟨final, _, (opening.append inner).append closing⟩

def implementationPart : Region := ⟨"GLAPI_IMPLEMENTATION", 1, []⟩

theorem opening_implementationPart : implementationPart.opening = implementationOpening := by decide

theorem closing_implementationPart : implementationPart.closing = implementationClosing := by decide

theorem run_beforeLoads {macros : Macros} (implementation : macros "GLAPI_IMPLEMENTATION" = true) :
    ∃ after kept, run ⟨macros, [counting]⟩ beforeLoads = some (⟨after, [counting, counting]⟩, kept) ∧
      Extends macros after := by
  have active : ∀ f ∈ [counting], f.active = true := by decide
  have interface : IsTame interfaceLines := isTame_builtin _ (by simp)
  have support : IsTame supportLines := isTame_builtin _ (by simp)
  obtain ⟨m, kept, outer⟩ := runs_between ["", "/* Loader */"] [""] interface (by decide) (by decide)
    active macros
  have opens : run ⟨m, [counting]⟩ [implementationOpening] = some (⟨m, [counting, counting]⟩, []) := by
    rw [← opening_implementationPart]
    exact run_opening active (by decide) (outer.grows _ implementation)
  obtain ⟨after, kept', inner⟩ := runs_between [""] ["", "static int glapi_load_all(void) \x7b"] support
    (by decide) (by decide) (active_counting active) m
  exact ⟨after, _, run_append outer.run (run_append opens inner.run), outer.grows.trans inner.grows⟩

theorem run_beforeDefinitions (macros : Macros) :
    ∃ after kept, run ⟨macros, [counting, counting]⟩ beforeDefinitions =
      some (⟨after, [counting, counting]⟩, kept) ∧ Extends macros after := by
  have implementation : IsTame implementationLines := isTame_builtin _ (by simp)
  obtain ⟨after, kept, runs⟩ := runs_between [""] [""] implementation (by decide) (by decide)
    (by decide : ∀ f ∈ [counting, counting], f.active = true) macros
  exact ⟨after, kept, runs.run, runs.grows⟩

theorem run_afterDefinitions (macros : Macros) :
    ∃ after kept, run ⟨macros, [counting, counting]⟩ afterDefinitions =
      some (⟨after, []⟩, kept) := by
  have blank : run ⟨macros, [counting, counting]⟩ [""] = some (⟨macros, [counting, counting]⟩, [""]) :=
    run_plain rfl (by decide)
  have closes : run ⟨macros, [counting, counting]⟩ [implementationClosing] =
      some (⟨macros, [counting]⟩, []) := by
    rw [← closing_implementationPart]
    exact run_closing _ _ _
  obtain ⟨after, kept, inner⟩ := (isTame_builtin ending.dropLast (by simp)).runs [counting] macros
  have last : run ⟨after, [counting]⟩ ["#endif /* GLAPI_H */"] = some (⟨after, []⟩, []) :=
    run_closing ⟨"GLAPI_H", 0, []⟩ after counting
  exact ⟨after, _, run_append blank (run_append closes (run_append inner.run last))⟩

/-- In a run, every region of the pass after those lines is active, and its macro is defined. -/
def Reached (start : State) (before : List String) (region : Feature → Region)
    (features : List Feature) : Prop :=
  ∀ earlier f later, features = earlier ++ f :: later →
    ∃ state kept, run start (before ++ passLines region earlier) = some (state, kept) ∧
      state.isActive = true ∧ state.macros (region f).guardName = true

/-- The blocks stand in the lines one after the other, each in one piece. -/
def InOrder : List (List String) → List String → Prop
  | [], _ => True
  | block :: blocks, ls => ∃ before after, ls = before ++ block ++ after ∧ InOrder blocks after

theorem InOrder.nil (ls : List String) : InOrder [] ls := trivial

theorem InOrder.cons (before block : List String) {blocks : List (List String)} {after : List String}
    (later : InOrder blocks after) : InOrder (block :: blocks) (before ++ (block ++ after)) :=
  ⟨before, after, by rw [List.append_assoc], later⟩

def bodies (region : Feature → Region) (features : List Feature) : List String :=
  features.flatMap fun f => (region f).body

def Arrives (features : List Feature) (start : State) (before : List String) (frames : List Frame)
    (kept : List String) : Prop :=
  ∃ macros, run start before = some (⟨macros, frames⟩, kept) ∧ macros "GLAPI_IMPLEMENTATION" = true ∧
    ∀ f ∈ features, macros f.name = true

namespace Arrives

variable {features : List Feature} {start : State} {before kept : List String} {frames : List Frame}
  (arrives : Arrives features start before frames kept)
include arrives

theorem step {block : List String} {frames' : List Frame}
    (steps : ∀ macros, macros "GLAPI_IMPLEMENTATION" = true → ∃ after more,
      run ⟨macros, frames⟩ block = some (⟨after, frames'⟩, more) ∧ Extends macros after) :
    ∃ more, Arrives features start (before ++ block) frames' (kept ++ more) := by
  obtain ⟨macros, ran, implementation, defined⟩ := arrives
  obtain ⟨after, more, runs, grows⟩ := steps macros implementation
  exact ⟨more, after, run_append ran runs, grows _ implementation, fun f member => grows _ (defined f member)⟩

section Pass

variable {region : Feature → Region} (named : ∀ f, (region f).guardName = f.name)
  (names : ∀ f ∈ features, IsIdentifier f.name)
  (steady : ∀ f ∈ features, ∀ line ∈ (region f).body, IsSteady line)
  (active : ∀ f ∈ frames, f.active = true)
include named names steady active

theorem pass {part : List Feature} (among : ∀ f ∈ part, f ∈ features) :
    Arrives features start (before ++ passLines region part) frames (kept ++ bodies region part) := by
  obtain ⟨macros, ran, implementation, defined⟩ := arrives
  have word : ∀ f ∈ part, IsWord (region f).guardName :=
    fun f member => (named f).symm ▸ (names f (among f member)).isWord
  have guarded : ∀ f ∈ part, macros (region f).guardName = true :=
    fun f member => (named f).symm ▸ defined f (among f member)
  obtain ⟨after, runs⟩ := runs_pass active word (fun f member => steady f (among f member)) guarded
  exact ⟨after, run_append ran runs.run, runs.grows _ implementation,
    fun f member => runs.grows _ (defined f member)⟩

theorem reached : Reached start before region features := by
  intro earlier f later same
  have among : ∀ g ∈ earlier, g ∈ features := fun g member => same ▸ List.mem_append_left _ member
  have here : f ∈ features := same ▸ List.mem_append_right _ List.mem_cons_self
  obtain ⟨macros, ran, -, defined⟩ := arrives.pass named names steady active among
  exact ⟨_, _, ran, List.all_eq_true.mpr active, (named f).symm ▸ defined f here⟩

end Pass

end Arrives

section Header

variable {s : Surface} {o : Options} (names : WellNamed s o)
  (types : ∀ t ∈ s.types, directive? t.toList = none) {macros : Macros} (fresh : IsFresh macros)
include names types fresh

theorem run_headerLines :
    Reached ⟨macros, []⟩ (beforeConstants s) constantRegion s.features ∧
    Reached ⟨macros, []⟩ (beforeConstants s ++ passLines constantRegion s.features ++ [""])
      o.declarationRegion s.features ∧
    Reached ⟨macros, []⟩ (beforeConstants s ++ passLines constantRegion s.features ++ [""] ++
      passLines o.declarationRegion s.features ++ beforeLoads) o.loadRegion s.features ∧
    Reached ⟨macros, []⟩ (beforeConstants s ++ passLines constantRegion s.features ++ [""] ++
      passLines o.declarationRegion s.features ++ beforeLoads ++ passLines o.loadRegion s.features ++
      beforeDefinitions) o.definitionRegion s.features ∧
    ∃ final kept, run ⟨macros, []⟩ (headerLines s o) = some (⟨final, []⟩, kept) ∧
      InOrder [versionLines s, s.types, bodies constantRegion s.features,
        bodies o.declarationRegion s.features, bodies o.loadRegion s.features,
        bodies o.definitionRegion s.features] kept := by
  have outer : ∀ f ∈ [counting], f.active = true := by decide
  have inner : ∀ f ∈ [counting, counting], f.active = true := by decide
  have all : ∀ f ∈ s.features, f ∈ s.features := fun _ member => member
  have named := names.features
  have constants : ∀ f ∈ s.features, ∀ line ∈ (constantRegion f).body, IsSteady line :=
    fun f _ => constantRegion_steady f
  have declarations : ∀ f ∈ s.features, ∀ line ∈ (o.declarationRegion f).body, IsSteady line :=
    fun f _ => declarationRegion_steady o f
  have loads : ∀ f ∈ s.features, ∀ line ∈ (o.loadRegion f).body, IsSteady line :=
    fun f member => loadRegion_steady names.pointers (names.commands f member)
  have definitions : ∀ f ∈ s.features, ∀ line ∈ (o.definitionRegion f).body, IsSteady line :=
    fun f _ => definitionRegion_steady o f
  obtain ⟨m, start, ran, grows, defined⟩ := run_beforeConstants named types fresh
  have first : Arrives s.features ⟨macros, []⟩ (beforeConstants s) [counting] _ :=
    ⟨m, ran, grows _ fresh.implementation, defined⟩
  have passed := first.pass (fun _ => rfl) named constants outer all
  obtain ⟨blank, second⟩ := passed.step fun m _ =>
    ⟨m, [""], run_plain rfl (by decide), Extends.refl m⟩
  have declared := second.pass (fun _ => rfl) named declarations outer all
  obtain ⟨loading, third⟩ := declared.step (fun m implementation => run_beforeLoads implementation)
  have loaded := third.pass (fun _ => rfl) named loads inner all
  obtain ⟨defining, fourth⟩ := loaded.step (fun m _ => run_beforeDefinitions m)
  obtain ⟨m', whole, -⟩ := fourth.pass (fun _ => rfl) named definitions inner all
  obtain ⟨final, ended, last⟩ := run_afterDefinitions m'
  refine ⟨first.reached (fun _ => rfl) named constants outer,
    second.reached (fun _ => rfl) named declarations outer,
    third.reached (fun _ => rfl) named loads inner,
    fourth.reached (fun _ => rfl) named definitions inner, final, _, run_append whole last, ?_⟩
  obtain ⟨versionless, versions⟩ := placed_eq (versionLines s)
  obtain ⟨typeless, typed⟩ := placed_eq s.types
  have ordered := InOrder.cons (start ++ versionless) (versionLines s)
    (.cons ("" :: "/* Types */" :: typeless) s.types
      (.cons ["", "/* Constants and entry points */"] (bodies constantRegion s.features)
        (.cons blank (bodies o.declarationRegion s.features)
          (.cons loading (bodies o.loadRegion s.features)
            (.cons defining (bodies o.definitionRegion s.features) (.nil ended))))))
  simpa [versions, typed] using ordered

end Header

/-- With the builtin templates a header is made for every surface, and its conditionals match each
other. Where the implementation is wanted and no header of the API came first, every region of every
pass is active, on all platforms: version macros, types, constants, declarations, load statements
and definitions are kept in that order, none left out. Types are declarations from a registry. -/
theorem builtin_header_active {s : Surface} {o : Options} (names : WellNamed s o)
    (whole : ∀ f ∈ s.features, f.IsOneLine) (version : OneLine s.target.version)
    (profile : OneLine s.target.profile)
    (types : ∀ t ∈ s.types, Registry.IsAlias t ∧ t.toList.head? ≠ some '#') :
    ∃ text, ofSurface s {} o = .ok text ∧ Balanced (lines text) ∧ ∃ first second third fourth last,
      lines text = first ++ passLines constantRegion s.features ++ second ++
        passLines o.declarationRegion s.features ++ third ++ passLines o.loadRegion s.features ++
        fourth ++ passLines o.definitionRegion s.features ++ last ∧
      ∀ macros, IsFresh macros →
        Reached ⟨macros, []⟩ first constantRegion s.features ∧
        Reached ⟨macros, []⟩ (first ++ passLines constantRegion s.features ++ second)
          o.declarationRegion s.features ∧
        Reached ⟨macros, []⟩ (first ++ passLines constantRegion s.features ++ second ++
          passLines o.declarationRegion s.features ++ third) o.loadRegion s.features ∧
        Reached ⟨macros, []⟩ (first ++ passLines constantRegion s.features ++ second ++
          passLines o.declarationRegion s.features ++ third ++ passLines o.loadRegion s.features ++
          fourth) o.definitionRegion s.features ∧
        ∃ final kept, run ⟨macros, []⟩ (lines text) = some (⟨final, []⟩, kept) ∧
          InOrder [s.features.map versionLine, s.types, bodies constantRegion s.features,
            bodies o.declarationRegion s.features, bodies o.loadRegion s.features,
            bodies o.definitionRegion s.features] kept := by
  have pointers : OneLine o.pointerPrefix := by
    intro member
    exact absurd (List.all_eq_true.mp names.pointers _ member) (by decide)
  have read : lines (unlines (headerLines s o)) = headerLines s o :=
    lines_headerLines whole version profile (fun t member => (types t member).1.oneLine) pointers
      names.lookup.isWord.oneLine
  have plain : ∀ t ∈ s.types, directive? t.toList = none :=
    fun t member => directive?_alias (types t member).1 (types t member).2
  refine ⟨unlines (headerLines s o), ofSurface_builtin s o, ?_, beforeConstants s, [""], beforeLoads,
    beforeDefinitions, afterDefinitions, read, ?_⟩
  · -- The nesting is the same for all macros.
    have fresh : IsFresh (· == "GLAPI_IMPLEMENTATION") := ⟨by decide, by decide⟩
    obtain ⟨-, -, -, -, final, kept, ran, -⟩ := run_headerLines names plain fresh
    rw [read]
    exact nesting?_of_run ran
  · intro macros fresh
    rw [read]
    exact run_headerLines names plain fresh

theorem builtin_header_active_windows :
    let size : Command := ⟨"glPointSize", ⟨⟨"void", "void"⟩, [⟨⟨"GLfloat", "GLfloat"⟩, "size"⟩]⟩⟩
    let s : Surface := ⟨⟨"gl", "1.1", "core"⟩, ["typedef float GLfloat;"],
      [⟨"1.0", "GL_VERSION_1_0", [⟨"GL_ONE", "1"⟩], [size]⟩, ⟨"1.1", "GL_VERSION_1_1", [], []⟩], true⟩
    let macros : Macros := fun name => ["GLAPI_IMPLEMENTATION", "_WIN32"].contains name
    WellNamed s {} ∧ (∀ f ∈ s.features, f.IsOneLine) ∧ OneLine s.target.version ∧ OneLine s.target.profile ∧
      (∀ t ∈ s.types, Registry.IsAlias t ∧ t.toList.head? ≠ some '#') ∧ IsFresh macros ∧
      ∃ text final kept, ofSurface s {} {} = .ok text ∧ Balanced (lines text) ∧
        run ⟨macros, []⟩ (lines text) = some (⟨final, []⟩, kept) ∧
        InOrder [["# define GL_VERSION_1_0", "# define GL_VERSION_1_1"], ["typedef float GLfloat;"],
          ["#  define GL_ONE 1"],
          ["typedef void (APIENTRYP PFNGLPOINTSIZEPROC)(GLfloat size);",
            "extern PFNGLPOINTSIZEPROC glapi_glPointSize;", "#  define glPointSize glapi_glPointSize"],
          ["\tglapi_glPointSize = (PFNGLPOINTSIZEPROC) load(\"glPointSize\");"],
          ["PFNGLPOINTSIZEPROC glapi_glPointSize;"]] kept := by
  intro size s macros
  have names : WellNamed s {} := ⟨by decide, by decide, by decide, by decide⟩
  have whole : ∀ f ∈ s.features, f.IsOneLine := by
    have void : TypeText.IsOneLine ⟨"void", "void"⟩ := by unfold TypeText.IsOneLine; decide
    have float : TypeText.IsOneLine ⟨"GLfloat", "GLfloat"⟩ := by unfold TypeText.IsOneLine; decide
    have signature : size.signature.IsOneLine := ⟨void, by simpa [size] using ⟨float, by decide⟩⟩
    intro f member
    simp only [s, List.mem_cons, List.not_mem_nil, or_false] at member
    rcases member with rfl | rfl
    · exact ⟨by decide, by decide, by simpa using ⟨by decide, signature⟩⟩
    · exact ⟨by decide, by decide, by simp⟩
  have types : ∀ t ∈ s.types, Registry.IsAlias t ∧ t.toList.head? ≠ some '#' := by
    rw [List.forall_mem_singleton]
    exact ⟨⟨⟨"type", [], [.text "typedef float ", .element "name" [] [.text "GLfloat"], .text ";"]⟩, by decide +kernel⟩,
      by decide⟩
  have fresh : IsFresh macros := ⟨by decide, by decide⟩
  obtain ⟨text, made, balanced, _, _, _, _, _, -, active⟩ :=
    builtin_header_active names whole (by decide) (by decide) types
  obtain ⟨-, -, -, -, final, kept, ran, ordered⟩ := active macros fresh
  have declarations : bodies (Options.declarationRegion {}) s.features =
      ["typedef void (APIENTRYP PFNGLPOINTSIZEPROC)(GLfloat size);",
        "extern PFNGLPOINTSIZEPROC glapi_glPointSize;", "#  define glPointSize glapi_glPointSize"] := by
    decide +kernel
  have loads : bodies (Options.loadRegion {}) s.features =
      ["\tglapi_glPointSize = (PFNGLPOINTSIZEPROC) load(\"glPointSize\");"] := by decide +kernel
  have definitions : bodies (Options.definitionRegion {}) s.features =
      ["PFNGLPOINTSIZEPROC glapi_glPointSize;"] := by decide +kernel
  rw [declarations, loads, definitions] at ordered
  exact ⟨names, whole, by decide, by decide, types, fresh, text, final, kept, made, balanced, ran, ordered⟩

end GLHeader.Header
