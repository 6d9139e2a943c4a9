import GLHeader.Proofs.Header.SectionLines
import GLHeader.Proofs.Traversal
import Mathlib.Data.List.Forall2

namespace GLHeader.Header

open GLHeader.Text

def pair? (shape : List Piece) (line : String) : Option (String × String) :=
  match Piece.read? shape line.toList with
  | some [first, second] => some (first, second)
  | _ => none

theorem pair?_write {shape : List Piece} (fits : Piece.separated shape)
    (count : Piece.wordCount shape = 2) {first second : String} (proper : IsWord first)
    (later : IsWord second) :
    pair? shape (Piece.write shape [first, second]) = some (first, second) := by
  have read : Piece.read? shape (Piece.write shape [first, second]).toList = some [first, second] :=
    Piece.read?_write fits count.symm (by simp [proper, later])
  rw [pair?, read]

def externShape : List Piece := [.mark "extern ", .word, .mark " ", .word, .mark ";"]

def definitionShape : List Piece := [.word, .mark " ", .word, .mark ";"]

def redirectShape : List Piece := [.mark "#  define ", .word, .mark " ", .word]

def loadShape : List Piece :=
  [.mark "\t", .word, .mark " = (", .word, .mark ") ", .word, .mark "(\"", .word, .mark "\");"]

def extern? : String → Option (String × String) := pair? externShape

def definition? : String → Option (String × String) := pair? definitionShape

def redirect? : String → Option (String × String) := pair? redirectShape

structure LoadStatement where
  pointer : String
  type : String
  lookup : String
  symbol : String
deriving DecidableEq, Repr

def load? (line : String) : Option LoadStatement :=
  match Piece.read? loadShape line.toList with
  | some [pointer, type, lookup, symbol] => some ⟨pointer, type, lookup, symbol⟩
  | _ => none

structure Declaration where
  before : String
  type : String
  pointer : String
  after : String
deriving DecidableEq, Repr

def declarations : List String → List Declaration
  | before :: line :: after :: rest =>
    match extern? line with
    | some (type, pointer) => ⟨before, type, pointer, after⟩ :: declarations (line :: after :: rest)
    | none => declarations (line :: after :: rest)
  | _ => []

theorem declarations_skip {line : String} (other : extern? line = none) (before after : String)
    (rest : List String) :
    declarations (before :: line :: after :: rest) = declarations (line :: after :: rest) := by
  rw [declarations, other]

theorem declarations_extern {line type pointer : String} (read : extern? line = some (type, pointer))
    (before after : String) (rest : List String) :
    declarations (before :: line :: after :: rest) =
      ⟨before, type, pointer, after⟩ :: declarations (line :: after :: rest) := by
  rw [declarations, read]

/-- What each region of a pass says, under the name of the region. -/
def byRegion? {α : Type} (read : List String → Option α) (lines : List String) :
    Option (List (String × α)) := do
  (← regions? lines).mapM fun r => return (r.guardName, ← read r.body)

def declaredPointers? (text : String) : Option (List (String × List (String × String))) :=
  byRegion? (fun body => some (body.filterMap extern?)) (afterBlank (lines text))

def declarations? (text : String) : Option (List (String × List Declaration)) :=
  byRegion? (fun body => some (declarations body)) (afterBlank (lines text))

def definedPointers? (text : String) : Option (List (String × List (String × String))) :=
  byRegion? (List.mapM definition?) (lines text)

def loads? (text : String) : Option (List (String × List LoadStatement)) :=
  byRegion? (List.mapM load?) (lines text)

def loadedPointers? (text : String) : Option (List (String × List (String × String))) :=
  (loads? text).map (List.map fun entry => (entry.1, entry.2.map fun l => (l.type, l.pointer)))

theorem byRegion?_passLines {α : Type} {read : List String → Option α} {region : Feature → Region}
    {features : List Feature} {value : Feature → α}
    (inner : ∀ f, ∀ line ∈ (region f).body, IsInner line)
    (named : ∀ f, (region f).guardName = f.name)
    (reads : ∀ f ∈ features, read (region f).body = some (value f)) :
    byRegion? read (passLines region features) = some (features.map fun f => (f.name, value f)) := by
  rw [byRegion?, regions?_passLines features inner, Option.bind_eq_bind, Option.bind_some]
  apply mapM_map_of_some
  intro f member
  simp [reads f member, named f]

/-- Features and commands are named by identifiers, and so are the options. -/
structure WellNamed (s : Surface) (o : Options) : Prop where
  features : ∀ f ∈ s.features, IsIdentifier f.name
  commands : ∀ f ∈ s.features, ∀ c ∈ f.commands, IsIdentifier c.name
  lookup : IsIdentifier o.lookupFunction
  pointers : o.pointerPrefix.toList.all isIdentifierChar

section Command

variable {o : Options} {c : Command} (pointers : o.pointerPrefix.toList.all isIdentifierChar)
  (name : IsIdentifier c.name)
include name

theorem procedureType_isWord : IsWord (procedureType c.name) := by
  have upper := name.isWord.toUpper
  have opened : IsWord ("PFN" ++ c.name.toUpper) := upper.append_left (by decide)
  exact opened.append_right (by decide)

include pointers

theorem pointer_isWord : IsWord (o.pointer c.name) := name.isWord.append_left pointers

theorem extern?_externLine :
    extern? (o.externLine c) = some (procedureType c.name, o.pointer c.name) := by
  have written : o.externLine c = Piece.write externShape
      [procedureType c.name, o.pointer c.name] := by
    simp [Options.externLine, externShape, Piece.write, String.append_assoc]
  rw [written]
  exact pair?_write (by decide) rfl (procedureType_isWord name) (pointer_isWord pointers name)

theorem definition?_definitionLine :
    definition? (o.definitionLine c) = some (procedureType c.name, o.pointer c.name) := by
  have written : o.definitionLine c = Piece.write definitionShape
      [procedureType c.name, o.pointer c.name] := by
    simp [Options.definitionLine, definitionShape, Piece.write, String.append_assoc]
  rw [written]
  exact pair?_write (by decide) rfl (procedureType_isWord name) (pointer_isWord pointers name)

theorem redirect?_redirectLine : redirect? (o.redirectLine c) = some (c.name, o.pointer c.name) := by
  have written : o.redirectLine c = Piece.write redirectShape
      [c.name, o.pointer c.name] := by
    simp only [Options.redirectLine, redirectShape, Region.directive, Piece.write, List.head?_cons, Option.getD_some,
      List.tail_cons, String.append_empty, ← String.append_assoc]
    rfl
  rw [written]
  exact pair?_write (by decide) rfl name.isWord (pointer_isWord pointers name)

theorem load?_loadLine (lookup : IsIdentifier o.lookupFunction) :
    load? (o.loadLine c) =
      some ⟨o.pointer c.name, procedureType c.name, o.lookupFunction, c.name⟩ := by
  have written : o.loadLine c = Piece.write loadShape
      [o.pointer c.name, procedureType c.name, o.lookupFunction, c.name] := by
    simp [Options.loadLine, loadShape, Piece.write, String.append_assoc]
  have read : Piece.read? loadShape (Piece.write loadShape
      [o.pointer c.name, procedureType c.name, o.lookupFunction, c.name]).toList =
        some [o.pointer c.name, procedureType c.name, o.lookupFunction, c.name] := by
    refine Piece.read?_write (by decide) rfl ?_
    simp [pointer_isWord pointers name, procedureType_isWord name, lookup.isWord, name.isWord]
  rw [load?, written, read]

end Command

theorem extern?_of_start {line : String} (other : line.toList.head? ≠ some 'e') : extern? line = none := by
  have unread : Piece.read? externShape line.toList = none := Piece.read?_mark_of_start (by simp) _ other
  rw [extern?, pair?, unread]

theorem load?_of_start {line : String} (other : line.toList.head? ≠ some '\t') : load? line = none := by
  have unread : Piece.read? loadShape line.toList = none := Piece.read?_mark_of_start (by simp) _ other
  rw [load?, unread]

theorem extern?_typedefLine (o : Options) (c : Command) : extern? (o.typedefLine c) = none := by
  apply extern?_of_start
  simp [Options.typedefLine]

theorem extern?_redirectLine (o : Options) (c : Command) : extern? (o.redirectLine c) = none := by
  apply extern?_of_start
  rw [Options.redirectLine, toList_directive]
  simp

theorem extern?_blank : extern? "" = none := rfl

section Body

variable {o : Options} {commands : List Command} (pointers : o.pointerPrefix.toList.all isIdentifierChar)
  (names : ∀ c ∈ commands, IsIdentifier c.name)
include pointers names

theorem filterMap_extern? :
    ([""].intercalate (commands.map o.declarationLines)).filterMap extern? =
      commands.map fun c => (procedureType c.name, o.pointer c.name) := by
  induction commands with
  | nil => rfl
  | cons c commands ih =>
    obtain ⟨first, later⟩ := List.forall_mem_cons.mp names
    have block : (o.declarationLines c).filterMap extern? = [(procedureType c.name, o.pointer c.name)] := by
      simp [Options.declarationLines, extern?_typedefLine, extern?_redirectLine,
        extern?_externLine pointers first]
    cases commands with
    | nil => simpa using block
    | cons next commands =>
      rw [List.map_cons, List.map_cons, List.intercalate_cons_cons, List.filterMap_append,
        List.filterMap_append, block, ← List.map_cons, ih later]
      simp [extern?_blank]

theorem declarations_body :
    declarations ([""].intercalate (commands.map o.declarationLines)) =
      commands.map fun c =>
        ⟨o.typedefLine c, procedureType c.name, o.pointer c.name, o.redirectLine c⟩ := by
  induction commands with
  | nil => rfl
  | cons c commands ih =>
    obtain ⟨first, later⟩ := List.forall_mem_cons.mp names
    have declared := extern?_externLine pointers first
    have redirected := extern?_redirectLine o c
    cases commands with
    | nil => simp [Options.declarationLines, declarations, declared]
    | cons next commands =>
      -- The windows over the end of one command and the start of the next hold no declaration.
      obtain ⟨tail, same⟩ : ∃ tail, [""].intercalate ((next :: commands).map o.declarationLines) =
          o.typedefLine next :: o.externLine next :: tail := by
        cases commands <;> exact ⟨_, rfl⟩
      have rest := ih later
      rw [List.map_cons, List.map_cons, List.intercalate_cons_cons, ← List.map_cons, same,
        Options.declarationLines]
      rw [same] at rest
      simp only [List.cons_append, List.nil_append, declarations_extern declared,
        declarations_skip redirected, declarations_skip extern?_blank,
        declarations_skip (extern?_typedefLine o next), rest, List.map_cons]

theorem mapM_definition? :
    (commands.map o.definitionLine).mapM definition? =
      some (commands.map fun c => (procedureType c.name, o.pointer c.name)) :=
  mapM_map_of_some fun c member => definition?_definitionLine pointers (names c member)

theorem mapM_load? (lookup : IsIdentifier o.lookupFunction) :
    (commands.map o.loadLine).mapM load? =
      some (commands.map fun c => ⟨o.pointer c.name, procedureType c.name, o.lookupFunction, c.name⟩) :=
  mapM_map_of_some fun c member => load?_loadLine pointers (names c member) lookup

end Body

section Named

variable {s : Surface} {o : Options} (names : WellNamed s o)
include names

theorem WellNamed.oneLine_pointers : OneLine o.pointerPrefix := by
  intro member
  exact absurd (List.all_eq_true.mp names.pointers _ member) (by decide)

theorem WellNamed.lines_loads : lines (sections s o).loads = passLines o.loadRegion s.features :=
  lines_unlines (passLines_oneLine fun f member =>
    loadRegion_oneLine_of_names (names.features f member).isWord.oneLine
      (fun c inside => (names.commands f member c inside).isWord.oneLine) names.oneLine_pointers
      names.lookup.isWord.oneLine)

theorem WellNamed.loads?_loads :
    loads? (sections s o).loads = some (s.features.map fun f => (f.name, f.commands.map fun c =>
      ⟨o.pointer c.name, procedureType c.name, o.lookupFunction, c.name⟩)) := by
  rw [loads?, names.lines_loads]
  exact byRegion?_passLines (loadRegion_inner o) (fun _ => rfl)
    fun f member => mapM_load? names.pointers (names.commands f member) names.lookup

end Named

def pointersOf (s : Surface) (o : Options) : List (String × List (String × String)) :=
  s.features.map fun f => (f.name, f.commands.map fun c =>
    ("PFN" ++ c.name.toUpper ++ "PROC", o.pointerPrefix ++ c.name))

/-- A declaration is that of a command: the line before it defines its type, and the line after it
has the command replaced by its pointer. -/
structure Declaration.Declares (o : Options) (c : Command) (d : Declaration) : Prop where
  type : d.type = "PFN" ++ c.name.toUpper ++ "PROC"
  pointer : d.pointer = o.pointerPrefix ++ c.name
  before : d.before = "typedef " ++ o.spelling.of c.signature.result ++ " (APIENTRYP " ++ d.type ++
    ")(" ++ o.parameterText c.signature.parameters ++ ");"
  after : redirect? d.after = some (c.name, d.pointer)

/-- The pointers that are declared, defined and loaded are those of the surface, each as often and
in the place where its command stands. Around each declaration stand its type and its macro, and
each pointer is loaded by the name of its command. -/
theorem passes_agree {s : Surface} {o : Options} (names : WellNamed s o)
    (whole : ∀ f ∈ s.features, f.IsOneLine) :
    declaredPointers? (sections s o).declarations = some (pointersOf s o) ∧
      definedPointers? (sections s o).definitions = some (pointersOf s o) ∧
      loadedPointers? (sections s o).loads = some (pointersOf s o) ∧
      (∃ declared, declarations? (sections s o).declarations = some declared ∧
        List.Forall₂ (fun f entry => entry.1 = f.name ∧
          List.Forall₂ (Declaration.Declares o) f.commands entry.2) s.features declared) ∧
      loads? (sections s o).loads = some (s.features.map fun f => (f.name, f.commands.map fun c =>
        ⟨o.pointerPrefix ++ c.name, "PFN" ++ c.name.toUpper ++ "PROC", o.lookupFunction, c.name⟩)) := by
  have pointers := names.oneLine_pointers
  have half : afterBlank (lines (sections s o).declarations) =
      passLines o.declarationRegion s.features := by
    rw [lines_declarations whole pointers, afterBlank_append (constantLines_ne s.features)]
  have loaded := names.loads?_loads
  have declared : declarations? (sections s o).declarations = some (s.features.map fun f => (f.name,
      f.commands.map fun c =>
        ⟨o.typedefLine c, procedureType c.name, o.pointer c.name, o.redirectLine c⟩)) := by
    rw [declarations?, half]
    exact byRegion?_passLines (declarationRegion_inner o) (fun _ => rfl)
      fun f member => congrArg some (declarations_body names.pointers (names.commands f member))
  refine ⟨?_, ?_, ?_, ⟨_, declared, ?_⟩, loaded⟩
  · rw [declaredPointers?, half]
    exact byRegion?_passLines (declarationRegion_inner o) (fun _ => rfl)
      fun f member => congrArg some (filterMap_extern? names.pointers (names.commands f member))
  · rw [definedPointers?, lines_definitions whole pointers]
    exact byRegion?_passLines (definitionRegion_inner o) (fun _ => rfl)
      fun f member => mapM_definition? names.pointers (names.commands f member)
  · rw [loadedPointers?, loaded]
    simp [pointersOf, procedureType, Options.pointer]
  · rw [List.forall₂_map_right_iff, List.forall₂_same]
    intro f member
    refine ⟨rfl, ?_⟩
    rw [List.forall₂_map_right_iff, List.forall₂_same]
    intro c inside
    exact ⟨rfl, rfl, rfl, redirect?_redirectLine names.pointers (names.commands f member c inside)⟩

theorem passes_agree_repeated :
    let flush : Command := ⟨"glFlush", ⟨⟨"extern X y;", "# endif"⟩, [⟨⟨"GLenum", "(APIENTRYP Q)("⟩, "mode"⟩]⟩⟩
    let s : Surface := ⟨⟨"gl", "1.1", "core"⟩, [], [⟨"1.0", "GL_1_0", [⟨"GL_ONE", "1"⟩], [flush, flush]⟩,
      ⟨"1.1", "GL_1_1", [], []⟩], true⟩
    WellNamed s {} ∧ (∀ f ∈ s.features, f.IsOneLine) ∧
      declaredPointers? (sections s {}).declarations = some (pointersOf s {}) ∧
      definedPointers? (sections s {}).definitions = some (pointersOf s {}) ∧
      loadedPointers? (sections s {}).loads = some (pointersOf s {}) := by
  intro flush s
  have names : WellNamed s {} := ⟨by decide, by decide, by decide, by decide⟩
  have whole : ∀ f ∈ s.features, f.IsOneLine := by
    have plain : flush.signature.IsOneLine := by
      refine ⟨by unfold TypeText.IsOneLine; decide, ?_⟩
      intro p member
      obtain rfl := List.mem_singleton.mp member
      unfold TypeText.IsOneLine
      decide
    intro f member
    simp only [s, List.mem_cons, List.not_mem_nil, or_false] at member
    rcases member with rfl | rfl
    · refine ⟨by decide, by decide, ?_⟩
      intro c inside
      simp only [List.mem_cons, List.not_mem_nil, or_false, or_self] at inside
      exact inside ▸ ⟨by decide, plain⟩
    · exact ⟨by decide, by decide, by simp⟩
  obtain ⟨declared, defined, loaded, -⟩ := passes_agree names whole
  exact ⟨names, whole, declared, defined, loaded⟩

end GLHeader.Header
