import GLHeader.Proofs.Header.SectionLines
import GLHeader.Proofs.Template.LineByLine

namespace GLHeader.Header

open GLHeader.Text GLHeader.Template Builtin

def IsFixed (line : String) : Prop := occurs openingMark line = false ∧ OneLine line

theorem isFixed_of_chars {ls : List String} {chars : List (List Char)} (same : ls.map String.toList = chars)
    (unmarked : chars.all fun line => (cut ['{', '_'] line).isNone)
    (unbroken : chars.all fun line => !line.contains '\n') : ∀ line ∈ ls, IsFixed line := by
  intro line member
  have absent := forall_of_chars same unmarked line member
  have whole := forall_of_chars same unbroken line member
  refine ⟨occurs_eq_false_iff.mpr (Option.isNone_iff_eq_none.mp absent), fun feed => ?_⟩
  rw [List.contains_iff_mem.mpr feed] at whole
  cases whole

theorem isFixed_builtin : ∀ block ∈ [notice, inclusionGuard, foreignGuards, environment, interfaceLines,
    supportLines, implementationLines, ending], ∀ line ∈ block, IsFixed line := by
  simp only [List.forall_mem_cons]
  refine ⟨?_, ?_, ?_, ?_, ?_, ?_, ?_, ?_, List.forall_mem_nil _⟩
  all_goals
    apply isFixed_of_chars
    · repeat apply map_toList_cons
      exact List.map_nil
    · decide +kernel
    · decide +kernel

section Lines

variable (s : Surface) (o : Options)

def titleLines : List String :=
  ["/*", " * glapi.h - OpenGL " ++ s.target.version ++ " function loader, " ++ s.target.profile ++ " profile."]

def targetLines : List String :=
  ["# define GLAPI_GL_VERSION \"" ++ s.target.version ++ "\"",
    "# define GLAPI_GL_PROFILE \"" ++ s.target.profile ++ "\""]

def preamble : List String :=
  titleLines s ++ notice ++ inclusionGuard ++ foreignGuards ++ targetLines s ++ environment

def versionLines : List String := s.features.map versionLine

def beforeConstants : List String :=
  preamble s ++ (placed (versionLines s) ++ ["", "/* Types */"] ++ placed s.types ++
    ["", "/* Constants and entry points */"])

def beforeLoads : List String :=
  (["", "/* Loader */"] ++ interfaceLines ++ [""]) ++ ([implementationOpening] ++
    ([""] ++ supportLines ++ ["", "static int glapi_load_all(void) \x7b"]))

def beforeDefinitions : List String := [""] ++ implementationLines ++ [""]

def afterDefinitions : List String := [""] ++ ([implementationClosing] ++ ending)

def headerLines : List String :=
  beforeConstants s ++ passLines constantRegion s.features ++ [""] ++
    passLines o.declarationRegion s.features ++ beforeLoads ++ passLines o.loadRegion s.features ++
    beforeDefinitions ++ passLines o.definitionRegion s.features ++ afterDefinitions

end Lines

theorem fillsTo_fixed {values : List (String × String)} {block : List String}
    (member : block ∈ [notice, inclusionGuard, foreignGuards, environment, interfaceLines, supportLines,
      implementationLines, ending]) : FillsTo values block block :=
  .literal fun line inside => (isFixed_builtin block member line inside).1

section Target

variable {s : Surface} {values : List (String × String)}
  (version : values.lookup "VERSION" = some s.target.version)
include version

theorem fillsTo_title (profile : values.lookup "PROFILE" = some s.target.profile) : FillsTo values
    ["/*", " * glapi.h - OpenGL \x7b_VERSION_\x7d function loader, \x7b_PROFILE_\x7d profile."] (titleLines s) := by
  have named : fillTemplate
      (" function loader, " ++ (openingMark ++ "PROFILE" ++ closingMark ++ " profile.")) values =
        .ok (" function loader, " ++ (s.target.profile ++ " profile.")) :=
    fillTemplate_around _ (by decide) (by decide) (by decide) profile (fillTemplate_literal (by decide))
  have title := fillTemplate_around " * glapi.h - OpenGL " (by decide) (by decide) (by decide) version named
  simp only [← String.append_assoc] at title
  exact (FillsTo.line (fillTemplate_literal (by decide))).append (.line title)

theorem fillsTo_target (profile : values.lookup "PROFILE" = some s.target.profile) : FillsTo values
    ["# define GLAPI_GL_VERSION \"\x7b_VERSION_\x7d\"", "# define GLAPI_GL_PROFILE \"\x7b_PROFILE_\x7d\""]
    (targetLines s) := by
  have quote : fillTemplate "\"" values = .ok "\"" := fillTemplate_literal (by decide)
  have first := fillTemplate_around "# define GLAPI_GL_VERSION \"" (by decide) (by decide) (by decide)
    version quote
  have second := fillTemplate_around "# define GLAPI_GL_PROFILE \"" (by decide) (by decide) (by decide)
    profile quote
  simp only [← String.append_assoc] at first second
  exact (FillsTo.line first).append (.line second)

theorem fillsTo_preamble (profile : values.lookup "PROFILE" = some s.target.profile) : FillsTo values
    (["/*", " * glapi.h - OpenGL \x7b_VERSION_\x7d function loader, \x7b_PROFILE_\x7d profile."] ++ notice ++
      inclusionGuard ++ foreignGuards ++
      ["# define GLAPI_GL_VERSION \"\x7b_VERSION_\x7d\"", "# define GLAPI_GL_PROFILE \"\x7b_PROFILE_\x7d\""] ++
      environment) (preamble s) := by
  have titled := (fillsTo_title version profile).append (fillsTo_fixed (by simp : notice ∈ _))
  have guarded := (titled.append (fillsTo_fixed (by simp : inclusionGuard ∈ _))).append
    (fillsTo_fixed (by simp : foreignGuards ∈ _))
  exact (guarded.append (fillsTo_target version profile)).append (fillsTo_fixed (by simp))

end Target

section Fragments

variable (values : List (String × String))

theorem fill_interface : ∃ text, fillFragment Builtin.interface values = .ok text ∧
    text ++ "\n" = unlines interfaceLines := by
  have fills : FillsTo values interfaceLines interfaceLines := fillsTo_fixed (by simp)
  have split : interfaceLines = interfaceLines.dropLast ++ ["void    glapiUnloadGL(void);"] := rfl
  rw [Builtin.interface]
  rw [split] at fills ⊢
  exact fillFragment_unlines fills (c := ';') (by decide) (by decide)

theorem fill_support : ∃ text, fillFragment Builtin.support values = .ok text ∧
    text ++ "\n" = unlines supportLines := by
  have fills : FillsTo values supportLines supportLines := fillsTo_fixed (by simp)
  have split : supportLines = supportLines.dropLast ++ ["\x7d"] := rfl
  rw [Builtin.support]
  rw [split] at fills ⊢
  exact fillFragment_unlines fills (c := '\x7d') (by decide) (by decide)

theorem unlines_feed (ls : List String) : unlines ls ++ "\n" = unlines (ls ++ [""]) := by simp [unlines]

theorem fill_implementation {loads : List String}
    (known : values.lookup "GL_API_IMPL" = some (unlines loads)) :
    ∃ text, fillFragment Builtin.implementation values = .ok text ∧
      text ++ "\n" = unlines ("static int glapi_load_all(void) \x7b" :: (loads ++ [""] ++ implementationLines)) := by
  have head : fillTemplate "static int glapi_load_all(void) \x7b" values =
      .ok "static int glapi_load_all(void) \x7b" := fillTemplate_literal (by decide)
  have rest : FillsTo values implementationLines implementationLines := fillsTo_fixed (by simp)
  have fills := (FillsTo.line head).append (.place "GL_API_IMPL" (by decide) known (unlines_feed loads) rest)
  have split : implementationLines = implementationLines.dropLast ++ ["\x7d"] := rfl
  rw [Builtin.implementation, split, ← List.append_assoc]
  rw [split] at fills
  exact fillFragment_unlines fills (c := '\x7d') (by decide) (by decide)

end Fragments

theorem fillsTo_places {s : Surface} {o : Options} {values : List (String × String)}
    {interface implementation support : String}
    (versions : values.lookup "GL_VERSION_DEF" = some (sections s o).versions)
    (types : values.lookup "GL_TYPES" = some (sections s o).types)
    (declarations : values.lookup "GL_API_DEC" = some (sections s o).declarations)
    (definitions : values.lookup "GL_API_DEF" = some (sections s o).definitions)
    (interfaced : values.lookup "API_DEC" = some interface)
    (interface_lines : interface ++ "\n" = unlines interfaceLines)
    (supported : values.lookup "API_STATIC" = some support)
    (support_lines : support ++ "\n" = unlines supportLines)
    (implemented : values.lookup "API_DEF" = some implementation)
    (implementation_lines : implementation ++ "\n" = unlines ("static int glapi_load_all(void) \x7b" ::
      (passLines o.loadRegion s.features ++ [""] ++ implementationLines))) :
    FillsTo values places (placed (versionLines s) ++ "" :: "/* Types */" :: (placed s.types ++
      "" :: "/* Constants and entry points */" :: ((passLines constantRegion s.features ++
        "" :: passLines o.declarationRegion s.features ++ [""]) ++ "/* Loader */" :: (interfaceLines ++
      "" :: implementationOpening :: "" :: (supportLines ++ "" :: ("static int glapi_load_all(void) \x7b" ::
        (passLines o.loadRegion s.features ++ [""] ++ implementationLines) ++
      "" :: (passLines o.definitionRegion s.features ++ [""] ++ [implementationClosing]))))))) := by
  have literal {line : String} {ls xs : List String} (plain : occurs openingMark line = false)
      (later : FillsTo values ls xs) : FillsTo values (line :: ls) (line :: xs) :=
    (FillsTo.line (fillTemplate_literal plain)).append later
  have declared : (sections s o).declarations ++ "\n" = unlines (passLines constantRegion s.features ++
      "" :: passLines o.declarationRegion s.features ++ [""]) := by
    rw [declarations_eq, unlines_feed]
  refine .place "GL_VERSION_DEF" (by decide) versions (unlines_placed _) ?_
  refine literal (by decide) (literal (by decide) ?_)
  refine .place "GL_TYPES" (by decide) types (unlines_placed _) ?_
  refine literal (by decide) (literal (by decide) ?_)
  refine .place "GL_API_DEC" (by decide) declarations declared (literal (by decide) ?_)
  refine .place "API_DEC" (by decide) interfaced interface_lines ?_
  refine literal (by decide) (literal (by decide) (literal (by decide) ?_))
  refine .place "API_STATIC" (by decide) supported support_lines (literal (by decide) ?_)
  refine .place "API_DEF" (by decide) implemented implementation_lines (literal (by decide) ?_)
  refine .place "GL_API_DEF" (by decide) definitions (unlines_feed _) ?_
  exact literal (by decide) .nil

theorem Templates.fill_of_ok (t : Templates) (s : Sections) (version profile : String)
    {interface implementation support : String}
    (interfaced : fillFragment t.interface (s.values version profile) = .ok interface)
    (implemented : fillFragment t.implementation (s.values version profile) = .ok implementation)
    (supported : fillFragment t.support (s.values version profile) = .ok support) :
    t.fill s version profile = fillTemplate t.skeleton (s.values version profile ++
      [("API_DEC", interface), ("API_DEF", implementation), ("API_STATIC", support)]) := by
  simp only [fill, interfaced, implemented, supported, bind, Except.bind]

theorem ofSurface_builtin (s : Surface) (o : Options) :
    ofSurface s {} o = .ok (unlines (headerLines s o)) := by
  let values := (sections s o).values s.target.version s.target.profile
  obtain ⟨interface, interfaced, interface_lines⟩ := fill_interface values
  obtain ⟨support, supported, support_lines⟩ := fill_support values
  have loads : values.lookup "GL_API_IMPL" = some (unlines (passLines o.loadRegion s.features)) := rfl
  obtain ⟨implementation, implemented, implementation_lines⟩ := fill_implementation values loads
  let all := values ++ [("API_DEC", interface), ("API_DEF", implementation), ("API_STATIC", support)]
  have version : all.lookup "VERSION" = some s.target.version := rfl
  have framed := ((fillsTo_preamble version rfl).append (fillsTo_places rfl rfl rfl rfl rfl
    interface_lines rfl support_lines rfl implementation_lines)).append (fillsTo_fixed (by simp : ending ∈ _))
  have filled : fillTemplate Builtin.skeleton all = .ok (unlines (headerLines s o)) := by
    rw [Builtin.skeleton, framed.fillTemplate_unlines]
    simp [headerLines, beforeConstants, beforeLoads, beforeDefinitions, afterDefinitions]
  exact (Templates.fill_of_ok {} (sections s o) _ _ interfaced implemented supported).trans filled

theorem oneLine_fixed {block : List String} (member : block ∈ [notice, inclusionGuard, foreignGuards,
    environment, interfaceLines, supportLines, implementationLines, ending]) :
    ∀ line ∈ block, OneLine line :=
  fun line inside => (isFixed_builtin block member line inside).2

theorem oneLine_placed {ls : List String} (whole : ∀ line ∈ ls, OneLine line) :
    ∀ line ∈ placed ls, OneLine line := by
  cases ls with
  | nil => decide
  | cons line rest => exact whole

theorem oneLine_preamble {s : Surface} (version : OneLine s.target.version) (profile : OneLine s.target.profile) :
    ∀ line ∈ preamble s, OneLine line := by
  have title : ∀ line ∈ titleLines s, OneLine line := by
    simp +decide [titleLines, version, profile]
  have target : ∀ line ∈ targetLines s, OneLine line := by
    simp +decide [targetLines, version, profile]
  simp only [preamble, List.forall_mem_append]
  exact ⟨⟨⟨⟨⟨title, oneLine_fixed (by simp)⟩, oneLine_fixed (by simp)⟩, oneLine_fixed (by simp)⟩, target⟩,
    oneLine_fixed (by simp)⟩

theorem oneLine_beforeLoads : ∀ line ∈ beforeLoads, OneLine line := by
  simp only [beforeLoads, List.forall_mem_append]
  exact ⟨⟨⟨by decide, oneLine_fixed (by simp)⟩, by decide⟩, by decide, ⟨by decide, oneLine_fixed (by simp)⟩,
    by decide⟩

theorem oneLine_beforeDefinitions : ∀ line ∈ beforeDefinitions, OneLine line := by
  simp only [beforeDefinitions, List.forall_mem_append]
  exact ⟨⟨by decide, oneLine_fixed (by simp)⟩, by decide⟩

theorem oneLine_afterDefinitions : ∀ line ∈ afterDefinitions, OneLine line := by
  simp only [afterDefinitions, List.forall_mem_append]
  exact ⟨by decide, by decide, oneLine_fixed (by simp)⟩

section OneLine

variable {s : Surface} (whole : ∀ f ∈ s.features, f.IsOneLine) (version : OneLine s.target.version)
  (profile : OneLine s.target.profile) (types : ∀ t ∈ s.types, OneLine t)
include whole version profile types

theorem oneLine_beforeConstants : ∀ line ∈ beforeConstants s, OneLine line := by
  have versions : ∀ line ∈ versionLines s, OneLine line := by
    intro line member
    obtain ⟨f, inside, rfl⟩ := List.mem_map.mp member
    simp +decide [versionLine, (whole f inside).name]
  simp only [beforeConstants, List.forall_mem_append]
  exact ⟨oneLine_preamble version profile, ⟨⟨oneLine_placed versions, by decide⟩, oneLine_placed types⟩,
    by decide⟩

theorem lines_headerLines {o : Options} (pointers : OneLine o.pointerPrefix) (lookup : OneLine o.lookupFunction) :
    lines (unlines (headerLines s o)) = headerLines s o := by
  have constants := passLines_oneLine fun f member => constantRegion_oneLine (whole f member)
  have declarations := passLines_oneLine fun f member => declarationRegion_oneLine (whole f member) pointers
  have definitions := passLines_oneLine fun f member => definitionRegion_oneLine (whole f member) pointers
  have loads := passLines_oneLine fun f member => loadRegion_oneLine (whole f member) pointers lookup
  have start := oneLine_beforeConstants whole version profile types
  apply lines_unlines
  simp only [headerLines, List.forall_mem_append]
  exact ⟨⟨⟨⟨⟨⟨⟨⟨start, constants⟩, by decide⟩, declarations⟩, oneLine_beforeLoads⟩, loads⟩,
    oneLine_beforeDefinitions⟩, definitions⟩, oneLine_afterDefinitions⟩

end OneLine

end GLHeader.Header
