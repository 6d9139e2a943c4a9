import GLHeader.Text.Blank
import GLHeader.Text.Cut
import GLHeader.Xml.Tree

namespace GLHeader

open GLHeader.Text GLHeader.Xml

inductive Defect where
  | prototype
  | commandName
  | returnType (command : String)
  | parameterName (command : String)
  | parameterType (parameter command : String)
  | featureApi
  | featureNumber
  | featureName (number : String)
  | referenceName (feature : String)
deriving DecidableEq, Repr

def Defect.element : Defect → String
  | .prototype => "command"
  | .commandName => "proto"
  | .returnType command => "proto " ++ command
  | .parameterName command => "param of " ++ command
  | .parameterType parameter command => "param " ++ parameter ++ " of " ++ command
  | .featureApi | .featureNumber => "feature"
  | .featureName number => "feature " ++ number
  | .referenceName feature => "require of " ++ feature

def Defect.missing : Defect → String
  | .prototype => "<proto>"
  | .commandName | .parameterName _ => "<name>"
  | .returnType _ => "a return type"
  | .parameterType _ _ => "a type"
  | .featureApi => "attribute `api`"
  | .featureNumber => "attribute `number`"
  | .featureName _ | .referenceName _ => "attribute `name`"

structure TypeText where
  /-- The text of the type marker, or the leading text where there is no marker. -/
  short : String
  /-- All text before the name. -/
  full : String
deriving DecidableEq, Repr

structure Parameter where
  type : TypeText
  name : String
deriving DecidableEq, Repr

structure Signature where
  result : TypeText
  parameters : List Parameter
deriving DecidableEq, Repr

def latest? {α : Type} (definitions : List (String × α)) (name : String) : Option α :=
  definitions.reverse.lookup name

structure Registry where
  types : List String
  constants : List (String × String)
  commands : List (String × Signature)
deriving DecidableEq, Repr

namespace Registry

def aliasPart (child : Element) : String :=
  if child.name == "name" then child.leadText
  else if child.name == "apientry" then "APIENTRY "
  else ""

def terminated (declaration : String) : String :=
  if declaration.toList.getLast? = some ';' then declaration else declaration ++ ";"

/-- The declaration of a type element, if its leading text makes it an alias. -/
def typeAlias? (e : Element) : Option String := do
  let lead ← e.leadText?
  guard (occurs "typedef" lead)
  let parts := (elementsWithTails e.children).map fun (child, tail) =>
    aliasPart child ++ trim (tail.getD "")
  return terminated (collapse (lead ++ String.join parts))

def typesOf (root : Element) : List String :=
  ((root.elementsNamed "types").flatMap Element.elements).filterMap typeAlias?

def constant? (e : Element) : Option (String × String) := do
  return (← e.attribute? "name", ← e.attribute? "value")

def constantsOf (root : Element) : List (String × String) :=
  ((root.elementsNamed "enums").flatMap (Element.elementsNamed · "enum")).filterMap constant?

/-- All text before the first name, markers and what stands between them included. -/
def fullType (e : Element) : String :=
  let before := (elementsWithTails e.children).takeWhile (·.1.name != "name")
  let parts := before.map fun (child, tail) => child.leadText ++ tail.getD ""
  collapse (e.leadText ++ String.join parts)

/-- The last marker of a parameter gives its type, and its last name its name. -/
def parameter (command : String) (e : Element) : Except Defect Parameter := do
  let named := (e.elementsNamed "name").getLast?.bind Element.leadText?
  let marked := (e.elementsNamed "ptype").getLast?.map Element.leadText
  let some name := named | .error (.parameterName command)
  let some type := marked <|> e.leadText? | .error (.parameterType name command)
  return ⟨⟨type, fullType e⟩, name⟩

/-- The first marker of a prototype gives the type of the result, and its first name the name. -/
def command (e : Element) : Except Defect (String × Signature) := do
  let some prototype := e.firstNamed? "proto" | .error .prototype
  let some named := (prototype.firstNamed? "name").bind Element.leadText? | .error .commandName
  let name := trim named
  let marked := (prototype.firstNamed? "ptype").map Element.leadText
  let some type := marked <|> prototype.leadText? | .error (.returnType name)
  let parameters ← (e.elementsNamed "param").mapM (parameter name)
  return (name, ⟨⟨trim type, fullType prototype⟩, parameters⟩)

def commandsOf (root : Element) : Except Defect (List (String × Signature)) :=
  ((root.elementsNamed "commands").flatMap (Element.elementsNamed · "command")).mapM command

def ofRoot (root : Element) : Except Defect Registry := do
  return ⟨typesOf root, constantsOf root, ← commandsOf root⟩

end Registry

end GLHeader
