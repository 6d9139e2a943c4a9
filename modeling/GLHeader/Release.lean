import GLHeader.Registry

namespace GLHeader

open GLHeader.Xml

structure Release where
  version : String
  name : String
  constants : List String
  commands : List String
deriving DecidableEq, Repr

structure Constant where
  name : String
  value : String
deriving DecidableEq, Repr

structure Command where
  name : String
  signature : Signature
deriving DecidableEq, Repr

structure Feature where
  version : String
  name : String
  constants : List Constant
  commands : List Command
deriving DecidableEq, Repr

namespace Release

inductive Reference where
  | constant (name : String)
  | command (name : String)
deriving DecidableEq, Repr

def Reference.constant? : Reference → Option String
  | .constant name => some name
  | .command _ => none

def Reference.command? : Reference → Option String
  | .constant _ => none
  | .command name => some name

def reference? (feature : String) (e : Element) : Except Defect (Option Reference) :=
  let kind? : Option (String → Reference) :=
    if e.name == "enum" then some .constant
    else if e.name == "command" then some .command
    else none
  match kind?, e.attribute? "name" with
  | none, _ => .ok none
  | some _, none => .error (.referenceName feature)
  | some kind, some name => .ok (some (kind name))

def ofElement? (api : String) (e : Element) : Except Defect (Option Release) := do
  let some family := e.attribute? "api" | .error .featureApi
  if family != api then return none
  let some version := e.attribute? "number" | .error .featureNumber
  let some name := e.attribute? "name" | .error (.featureName version)
  let required := (e.elementsNamed "require").flatMap Element.elements
  let references := (← required.mapM (reference? name)).filterMap id
  return some ⟨version, name, references.filterMap Reference.constant?,
    references.filterMap Reference.command?⟩

def ofRoot (root : Element) (api : String) : Except Defect (List Release) := do
  return (← (root.elementsNamed "feature").mapM (ofElement? api)).filterMap id

def toFeature (registry : Registry) (release : Release) : Feature where
  version := release.version
  name := release.name
  constants := release.constants.filterMap fun name =>
    (latest? registry.constants name).map (Constant.mk name)
  commands := release.commands.filterMap fun name =>
    (latest? registry.commands name).map (Command.mk name)

/-- The releases through the first one of that version, or all of them where there is none. -/
def through (version : String) : List Release → List Release
  | [] => []
  | release :: later =>
    release :: if release.version == version then [] else through version later

end Release

end GLHeader
