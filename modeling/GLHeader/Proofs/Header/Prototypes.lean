import GLHeader.Proofs.Header.Pointers
import GLHeader.Proofs.Text.Cut

namespace GLHeader.Header

open GLHeader.Text

structure Prototype where
  result : String
  type : String
  arguments : String
deriving DecidableEq, Repr

def prototype? (line : String) : Option Prototype := do
  let (start, rest) ← cut "(APIENTRYP ".toList line.toList
  let (type, rest) ← cut ")(".toList rest
  let (arguments, []) ← cut ");".toList rest | none
  let result ← (← start.dropPrefix? "typedef ".toList).dropSuffix? [' ']
  return ⟨.ofList result, .ofList type, .ofList arguments⟩

def parameter? (s : List Char) : Option (String × String) :=
  (cut [' '] s.reverse).map fun (name, type) => (.ofList type.reverse, .ofList name.reverse)

def parameters? (arguments : String) : Option (List (String × String)) :=
  if arguments = "void" then some []
  else ((' ' :: arguments.toList).splitOn ',').mapM fun s => (s.dropPrefix? [' ']).bind parameter?

def dividers : List Char := ['\n', ',', '(', ')']

def Undivided (s : String) : Prop := ∀ c ∈ dividers, c ∉ s.toList

instance (s : String) : Decidable (Undivided s) := List.decidableBAll _ dividers

theorem Undivided.append {s t : String} (first : Undivided s) (later : Undivided t) : Undivided (s ++ t) := by
  intro c divider
  rw [String.toList_append, List.mem_append, not_or]
  exact ⟨first c divider, later c divider⟩

theorem undivided_of_isWord {s : String} (word : IsWord s) : Undivided s := by
  have others : dividers.all (!isIdentifierChar ·) = true := by decide
  intro c divider
  exact word.not_mem (by simpa using List.all_eq_true.mp others c divider)

/-- The types of a command, as they are spelled, hold no divider, and it is named by an identifier, as its
parameters are. -/
structure IsLegible (o : Options) (c : Command) : Prop where
  name : IsIdentifier c.name
  result : Undivided (o.spelling.of c.signature.result)
  types : ∀ p ∈ c.signature.parameters, Undivided (o.spelling.of p.type)
  names : ∀ p ∈ c.signature.parameters, IsIdentifier p.name

theorem prototype?_write {result type arguments : String} (opening : '(' ∉ result.toList) (closing : ')' ∉ type.toList)
    (ending : ')' ∉ arguments.toList) :
    prototype? ("typedef " ++ result ++ " (APIENTRYP " ++ type ++ ")(" ++ arguments ++ ");") =
      some ⟨result, type, arguments⟩ := by
  have start : '(' ∉ "typedef ".toList ++ (result.toList ++ [' ']) := by
    simp only [List.mem_append, not_or]
    exact ⟨by decide, opening, by decide⟩
  have first (t : List Char) : cut "(APIENTRYP ".toList
      ("typedef ".toList ++ (result.toList ++ [' ']) ++ ("(APIENTRYP ".toList ++ t)) =
        some ("typedef ".toList ++ (result.toList ++ [' ']), t) := cut_append_of_not_mem start t
  have second (t : List Char) : cut ")(".toList (type.toList ++ (")(".toList ++ t)) = some (type.toList, t) :=
    cut_append_of_not_mem closing t
  have third : cut ");".toList (arguments.toList ++ (");".toList ++ [])) = some (arguments.toList, []) :=
    cut_append_of_not_mem ending []
  have lead : ("typedef ".toList ++ (result.toList ++ [' '])).dropPrefix? "typedef ".toList =
      some (result.toList ++ [' ']) := List.dropPrefix?_append_of_beq _ (by simp)
  have kept : (result.toList ++ [' ']).dropSuffix? [' '] = some result.toList :=
    List.dropSuffix?_eq_some_iff.mpr ⟨[' '], rfl, by simp⟩
  have shape : ("typedef " ++ result ++ " (APIENTRYP " ++ type ++ ")(" ++ arguments ++ ");").toList =
      "typedef ".toList ++ (result.toList ++ [' ']) ++ ("(APIENTRYP ".toList ++
        (type.toList ++ (")(".toList ++ (arguments.toList ++ (");".toList ++ []))))) := by
    simp [String.toList_append]
  simp only [prototype?, shape, first, second, third, lead, kept, Option.bind_eq_bind, Option.bind_some]
  simp

section Parameters

variable {o : Options} {parameters : List Parameter}

theorem parameter?_write (type : String) {name : String} (word : IsWord name) :
    parameter? (type ++ " " ++ name).toList = some (type, name) := by
  have absent : ' ' ∉ name.toList.reverse := by
    rw [List.mem_reverse]
    exact word.not_mem rfl
  have reversed : (type ++ " " ++ name).toList.reverse = name.toList.reverse ++ ([' '] ++ type.toList.reverse) := by
    simp [String.toList_append]
  rw [parameter?, reversed, cut_append_of_not_mem absent]
  simp

theorem toList_intercalate_comma (part : String) (parts : List String) :
    ' ' :: (", ".intercalate (part :: parts)).toList =
      [','].intercalate ((part :: parts).map fun s => ' ' :: s.toList) := by
  induction parts generalizing part with
  | nil => simp
  | cons next parts ih =>
    have rest := ih next
    rw [List.map_cons] at rest
    rw [String.intercalate_cons_cons, String.toList_append, String.toList_append, List.map_cons, List.map_cons,
      List.intercalate_cons_cons, ← rest]
    simp

theorem parameterText_of_cons (p : Parameter) (parameters : List Parameter) :
    o.parameterText (p :: parameters) = ", ".intercalate ((p :: parameters).map o.parameter) := rfl

theorem parameterText_eq_void_iff : o.parameterText parameters = "void" ↔ parameters = [] := by
  refine ⟨fun same => ?_, fun none => none ▸ rfl⟩
  cases parameters with
  | nil => rfl
  | cons p parameters =>
    have space : ' ' ∈ (o.parameterText (p :: parameters)).toList := by
      rw [parameterText_of_cons]
      cases parameters <;> simp [Options.parameter, String.intercalate_cons_cons]
    rw [same] at space
    exact absurd space (by decide)

variable (types : ∀ p ∈ parameters, Undivided (o.spelling.of p.type))
  (names : ∀ p ∈ parameters, IsIdentifier p.name)
include types names

theorem undivided_parameter : ∀ p ∈ parameters, Undivided (o.parameter p) := by
  intro p member
  have space : Undivided " " := by decide
  exact ((types p member).append space).append (undivided_of_isWord (names p member).isWord)

theorem parameters?_parameterText :
    parameters? (o.parameterText parameters) = some (parameters.map fun p => (o.spelling.of p.type, p.name)) := by
  cases shape : parameters with
  | nil => rfl
  | cons p rest =>
    subst shape
    have written : ¬ o.parameterText (p :: rest) = "void" := by simp [parameterText_eq_void_iff]
    have apart : ∀ l ∈ (p :: rest).map fun q => ' ' :: (o.parameter q).toList, ',' ∉ l := by
      intro l member
      obtain ⟨q, inside, rfl⟩ := List.mem_map.mp member
      rw [List.mem_cons, not_or]
      exact ⟨by decide, undivided_parameter types names q inside ',' (by decide)⟩
    have pieces : (' ' :: (o.parameterText (p :: rest)).toList).splitOn ',' =
        (p :: rest).map fun q => ' ' :: (o.parameter q).toList := by
      rw [parameterText_of_cons, List.map_cons, toList_intercalate_comma, ← List.map_cons, List.map_map]
      exact List.splitOn_intercalate ',' apart (by simp)
    rw [parameters?, if_neg written, pieces]
    refine mapM_map_of_some fun q member => ?_
    have trimmed : (' ' :: (o.parameter q).toList).dropPrefix? [' '] = some (o.parameter q).toList := by
      simp [List.dropPrefix?]
    rw [trimmed, Option.bind_some]
    exact parameter?_write _ (names q member).isWord

theorem not_mem_parameterText {c : Char} (divider : c ∈ dividers) (other : c ≠ ',') :
    c ∉ (o.parameterText parameters).toList := by
  cases parameters with
  | nil =>
    have void : Undivided "void" := by decide
    exact void c divider
  | cons p rest =>
    have space : Undivided " " := by decide
    rw [parameterText_of_cons]
    refine not_mem_intercalate ?_ fun t member => ?_
    · have comma : ", ".toList = ',' :: " ".toList := by decide
      rw [comma, List.mem_cons, not_or]
      exact ⟨other, space c divider⟩
    · obtain ⟨q, inside, rfl⟩ := List.mem_map.mp member
      exact undivided_parameter types names q inside c divider

end Parameters

/-- The result of a signature and its parameters, each type as it is spelled. -/
def Spelling.shape (spelling : Spelling) (s : Signature) : String × List (String × String) :=
  (spelling.of s.result, s.parameters.map fun p => (spelling.of p.type, p.name))

theorem prototype?_typedefLine {o : Options} {c : Command} (legible : IsLegible o c) :
    prototype? (o.typedefLine c) =
      some ⟨o.spelling.of c.signature.result, procedureType c.name, o.parameterText c.signature.parameters⟩ := by
  have opening : '(' ∉ (o.spelling.of c.signature.result).toList := legible.result '(' (by decide)
  have closing : ')' ∉ (procedureType c.name).toList := (procedureType_isWord legible.name).not_mem rfl
  exact prototype?_write opening closing (not_mem_parameterText legible.types legible.names (by decide) (by decide))

theorem oneLine_typedefLine {o : Options} {c : Command} (legible : IsLegible o c) : OneLine (o.typedefLine c) := by
  have result : OneLine (o.spelling.of c.signature.result) := legible.result '\n' (by decide)
  have type : OneLine (procedureType c.name) := (procedureType_isWord legible.name).oneLine
  have parameters : OneLine (o.parameterText c.signature.parameters) :=
    not_mem_parameterText legible.types legible.names (by decide) (by decide)
  simp +decide [Options.typedefLine, result, type, parameters]

/-- The line that defines the type of a command is read back as it was written: its result with all its
spaces, the name of the type and every parameter with its type, in order. It says `void` in the place of
parameters only if there are none. So the line of a command fixes its signature in the chosen spelling. -/
theorem prototype_readable {o : Options} {c : Command} (legible : IsLegible o c) :
    OneLine (o.typedefLine c) ∧
      (∃ arguments, prototype? (o.typedefLine c) =
          some ⟨o.spelling.of c.signature.result, "PFN" ++ c.name.toUpper ++ "PROC", arguments⟩ ∧
        parameters? arguments = some (c.signature.parameters.map fun p => (o.spelling.of p.type, p.name)) ∧
        (arguments = "void" ↔ c.signature.parameters = [])) ∧
      ∀ o' c', IsLegible o' c' → o'.typedefLine c' = o.typedefLine c →
        o'.spelling.shape c'.signature = o.spelling.shape c.signature := by
  have read := prototype?_typedefLine legible
  have parameters := parameters?_parameterText legible.types legible.names
  refine ⟨oneLine_typedefLine legible, ⟨_, read, parameters, parameterText_eq_void_iff⟩, ?_⟩
  intro o' c' legible' same
  have read' := prototype?_typedefLine legible'
  rw [same, read] at read'
  obtain ⟨results, -, arguments⟩ := Prototype.mk.inj (Option.some.inj read')
  have parameters' := parameters?_parameterText legible'.types legible'.names
  rw [← arguments, parameters] at parameters'
  exact Prod.ext results.symm (Option.some.inj parameters').symm

theorem prototype_readable_void :
    let bare : Command := ⟨"glHint", ⟨⟨" void  * ", "void*"⟩, []⟩⟩
    let named : Command := ⟨"glHint", ⟨⟨" void  * ", "void*"⟩, [⟨⟨"", "const"⟩, "void"⟩]⟩⟩
    let mode : Parameter := ⟨⟨"const GLenum *", "GLenum"⟩, "mode"⟩
    let size : Parameter := ⟨⟨"GLsizei", "int"⟩, "size"⟩
    let ordered : Command := ⟨"glHint", ⟨⟨"void", "void"⟩, [mode, size, mode]⟩⟩
    let swapped : Command := ⟨"glHint", ⟨⟨"void", "void"⟩, [size, mode, mode]⟩⟩
    IsLegible {} bare ∧ IsLegible {} named ∧ IsLegible {} ordered ∧ IsLegible {} swapped ∧
      (∃ arguments, prototype? (({} : Options).typedefLine named) = some ⟨" void  * ", "PFNGLHINTPROC", arguments⟩ ∧
        parameters? arguments = some [("", "void")] ∧ arguments ≠ "void") ∧
      ({} : Options).typedefLine bare ≠ ({} : Options).typedefLine named ∧
      ({} : Options).typedefLine ordered =
        "typedef void (APIENTRYP PFNGLHINTPROC)(const GLenum * mode, GLsizei size, const GLenum * mode);" ∧
      (∃ arguments, prototype? (({} : Options).typedefLine ordered) = some ⟨"void", "PFNGLHINTPROC", arguments⟩ ∧
        parameters? arguments =
          some [("const GLenum *", "mode"), ("GLsizei", "size"), ("const GLenum *", "mode")]) ∧
      ({} : Options).typedefLine swapped ≠ ({} : Options).typedefLine ordered := by
  intro bare named mode size ordered swapped
  have legibleBare : IsLegible {} bare := ⟨by decide, by decide, by decide, by decide⟩
  have legible : IsLegible {} named := ⟨by decide, by decide, by decide, by decide⟩
  have legibleOrdered : IsLegible {} ordered := ⟨by decide, by decide, by decide, by decide⟩
  have legibleSwapped : IsLegible {} swapped := ⟨by decide, by decide, by decide, by decide⟩
  have type : "PFN" ++ "glHint".toUpper ++ "PROC" = "PFNGLHINTPROC" := by decide +kernel
  obtain ⟨-, ⟨arguments, read, parameters, void⟩, fixed⟩ := prototype_readable legible
  obtain ⟨-, ⟨others, readOrdered, parametersOrdered, -⟩, fixedOrdered⟩ := prototype_readable legibleOrdered
  rw [type] at read readOrdered
  refine ⟨legibleBare, legible, legibleOrdered, legibleSwapped, ⟨arguments, read, parameters, fun same => ?_⟩,
    fun same => ?_, by decide +kernel, ⟨others, readOrdered, parametersOrdered⟩, fun same => ?_⟩
  · exact absurd (void.mp same) (by decide)
  · exact absurd (fixed {} bare legibleBare same) (by decide)
  · exact absurd (fixedOrdered {} swapped legibleSwapped same) (by decide)

end GLHeader.Header
