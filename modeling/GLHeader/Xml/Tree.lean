namespace GLHeader.Xml

structure Attribute where
  space : Option String
  name : String
  value : String
deriving DecidableEq, Repr

inductive Node where
  | element (name : String) (attributes : List Attribute) (children : List Node)
  | text (content : String)
  | comment
  | instruction
deriving Repr, Inhabited

structure Element where
  name : String
  attributes : List Attribute
  children : List Node
deriving Repr, Inhabited

def Element.toNode (e : Element) : Node := .element e.name e.attributes e.children

def Node.toElement? : Node → Option Element
  | .element name attributes children => some ⟨name, attributes, children⟩
  | _ => none

def Node.toText? : Node → Option String
  | .text content => some content
  | _ => none

namespace Element

def attribute? (e : Element) (name : String) : Option String :=
  (e.attributes.find? fun a => a.space.isNone && a.name == name).map Attribute.value

def elements (e : Element) : List Element := e.children.filterMap Node.toElement?

def elementsNamed (e : Element) (tag : String) : List Element :=
  e.elements.filter (·.name == tag)

def firstNamed? (e : Element) (tag : String) : Option Element := e.elements.find? (·.name == tag)

def leadText? (e : Element) : Option String := e.children.head?.bind Node.toText?

def leadText (e : Element) : String := e.leadText?.getD ""

end Element

/-- The elements among some nodes, each with the text directly after it. -/
def elementsWithTails : List Node → List (Element × Option String)
  | [] => []
  | .element name attributes children :: rest =>
    (⟨name, attributes, children⟩, rest.head?.bind Node.toText?) :: elementsWithTails rest
  | _ :: rest => elementsWithTails rest

theorem elementsWithTails_map_fst (nodes : List Node) :
    (elementsWithTails nodes).map Prod.fst = nodes.filterMap Node.toElement? := by
  induction nodes with
  | nil => rfl
  | cons node rest ih =>
    cases node <;> simp [elementsWithTails, Node.toElement?, List.filterMap_cons, ih]

end GLHeader.Xml
