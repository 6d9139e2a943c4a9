import GLHeader.Xml.Scope

namespace GLHeader.Xml

open GLHeader.Text

structure Open where
  tag : QualifiedName
  attributes : List Attribute
  scope : Scope
  content : List Node

def Open.add (o : Open) (node : Node) : Open := { o with content := node :: o.content }

def Open.addText (o : Open) (content : String) : Open :=
  match o.content with
  | .text earlier :: rest => { o with content := .text (earlier ++ content) :: rest }
  | _ => o.add (.text content)

def Open.finish (o : Open) : Element := ⟨o.tag.base, o.attributes, o.content.reverse⟩

inductive Progress where
  | ahead
  | inside (current : Open) (around : List Open)
  | done (root : Element)

def Progress.place (e : Element) : List Open → Progress
  | [] => .done e
  | parent :: around => .inside (parent.add e.toNode) around

def Progress.parents? : Progress → Option (List Open)
  | .ahead => some []
  | .inside current around => some (current :: around)
  | .done _ => none

def Progress.enter? (progress : Progress) (tag : QualifiedName) (attributes : List RawAttribute) :
    Option (Open × List Open) := do
  let parents ← progress.parents?
  let outer := (parents.head?.map Open.scope).getD []
  let (scope, attributes) ← outer.enter? tag attributes
  return (⟨tag, attributes, scope, []⟩, parents)

def Progress.step? (progress : Progress) (token : Token) : Option Progress :=
  match token, progress with
  | .opening tag attributes, _ => do
    let (current, around) ← progress.enter? tag attributes
    return .inside current around
  | .whole tag attributes, _ => do
    let (current, around) ← progress.enter? tag attributes
    return .place current.finish around
  | .closing tag, .inside current around =>
    if tag = current.tag then some (.place current.finish around) else none
  | .closing _, _ => none
  | .text written, .inside current around => do
    return .inside (current.addText (← textContent? written)) around
  | .text written, _ => if written.all isSpace then some progress else none
  | .literal written, .inside current around =>
    some (.inside (current.addText (literalContent written)) around)
  | .literal _, _ => none
  | .comment, .inside current around => some (.inside (current.add .comment) around)
  | .instruction, .inside current around => some (.inside (current.add .instruction) around)
  | .comment, _ => some progress
  | .instruction, _ => some progress

def declared? (name : String) (s : List Char) : Option (List Char) := do
  let s ← if name.toList.isPrefixOf s then some s else none
  return (← attribute? s).2

def gap? (s : List Char) : Option (List Char) :=
  if s.head?.any isSpace || "?>".toList.isPrefixOf s then some (skipSpace s) else none

/-- Reads a declaration after its `<?xml `: version, then encoding, then standalone, of which only
    the version is required. -/
def declaration? (s : List Char) : Option (List Char) := do
  let s ← gap? (← declared? "version" (skipSpace s))
  let s ← if "encoding".toList.isPrefixOf s then declared? "encoding" s >>= gap? else some s
  let s ← if "standalone".toList.isPrefixOf s then declared? "standalone" s else some s
  expect? "?>" (skipSpace s)

def prologue? (s : List Char) : Option (List Char) :=
  let s := if s.head? = some '\uFEFF' then s.tail else s
  match expect? "<?xml " s with
  | some rest => declaration? rest
  | none => some s

def read? (text : String) : Option Element := do
  let tokens ← tokens? (← prologue? text.toList)
  match ← tokens.foldlM Progress.step? .ahead with
  | .done root => some root
  | _ => none

end GLHeader.Xml
