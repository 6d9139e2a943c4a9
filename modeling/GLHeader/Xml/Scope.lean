import GLHeader.Xml.Reference
import GLHeader.Xml.Token.Reader
import GLHeader.Xml.Tree

namespace GLHeader.Xml

abbrev Scope := List (String × String)

def reservedSpace : String := "http://www.w3.org/XML/1998/namespace"

def declarationSpace : String := "http://www.w3.org/2000/xmlns/"

/-- Declares a qualifier. The qualifier `xml` and its namespace belong to each other, and declaring
    them changes nothing. -/
def Scope.declare? (own : Scope) (qualifier space : String) : Option Scope := do
  guard (space != declarationSpace)
  guard ((qualifier == "xml") == (space == reservedSpace))
  guard (own.lookup qualifier).isNone
  return if qualifier == "xml" then own else (qualifier, space) :: own

def sortAttributes? : List RawAttribute → Option (Scope × List (QualifiedName × String))
  | [] => some ([], [])
  | raw :: rest => do
    let value ← valueContent? raw.written
    let (own, attributes) ← sortAttributes? rest
    if raw.name.qualifier == "xmlns" then
      return (← own.declare? raw.name.base value, attributes)
    else if raw.name.base == "xmlns" then
      guard (value != declarationSpace && value != reservedSpace)
      return (own, attributes)
    else
      return (own, (raw.name, value) :: attributes)

def Scope.attribute? (scope : Scope) (name : QualifiedName) (value : String) : Option Attribute :=
  if name.qualifier == "" then some ⟨none, name.base, value⟩
  else if name.qualifier == "xml" then some ⟨some reservedSpace, name.base, value⟩
  else (scope.lookup name.qualifier).map fun space => ⟨some space, name.base, value⟩

def distinct (attributes : List Attribute) : Bool :=
  decide (attributes.map fun a => (a.space, a.name)).Nodup

def Scope.enter? (outer : Scope) (tag : QualifiedName) (written : List RawAttribute) :
    Option (Scope × List Attribute) := do
  let (own, named) ← sortAttributes? written
  let scope := own ++ outer
  guard (tag.qualifier != "xmlns" && (tag.qualifier == "" || (scope.lookup tag.qualifier).isSome))
  let attributes ← named.mapM fun (name, value) => scope.attribute? name value
  guard (distinct attributes)
  return (scope, attributes)

end GLHeader.Xml
