import GLHeader.Proofs.Surface.Placement

namespace GLHeader

open GLHeader.Text GLHeader.Xml

namespace Xml

def Node.IsRemark : Node → Prop
  | .comment | .instruction => True
  | _ => False

end Xml

inductive Place where
  | root
  | types
  | commands
  | command
  | alias
  | typed
  | named
  | marker
  | other
deriving DecidableEq, Repr

namespace Place

def inside : Place → String → Place
  | .root, tag => if tag == "types" then .types else if tag == "commands" then .commands else .other
  | .types, _ => .alias
  | .commands, tag => if tag == "command" then .command else .other
  | .command, tag => if tag == "proto" || tag == "param" then .typed else .other
  | .alias, tag => if tag == "name" then .marker else .other
  | .typed, _ => .marker
  | .named, tag => if tag == "name" || tag == "ptype" then .marker else .other
  | .marker, _ | .other, _ => .other

def after : Place → String → Place
  | .typed, tag => if tag == "name" then .named else .typed
  | .marker, _ => .other
  | p, _ => p

def readsText : Place → Bool
  | .alias | .typed | .marker => true
  | _ => false

end Place

mutual

def shownNode (p : Place) : Node → Node
  | .element name attributes children => .element name attributes (shown (p.inside name) false children)
  | n => n
termination_by structural n => n

/-- The elements of a content, and those of its texts that are read at their place and that no remark
hides. -/
def shown (p : Place) (hidden : Bool) : List Node → List Node
  | [] => []
  | n :: rest =>
    match n with
    | .text _ => if p.readsText && !hidden then n :: shown p hidden rest else shown p hidden rest
    | .comment | .instruction => shown p true rest
    | .element name _ _ => shownNode p n :: shown (p.after name) false rest
termination_by structural nodes => nodes

end

namespace Xml

def Element.shown (p : Place) (e : Element) : Element := { e with children := GLHeader.shown p false e.children }

end Xml

section Shown

variable {p : Place} {hidden : Bool}

theorem shown_remark {m : Node} (remark : m.IsRemark) (rest : List Node) :
    shown p hidden (m :: rest) = shown p true rest := by
  cases m <;> first | rfl | cases remark

theorem shown_element (name : String) (attributes : List Attribute) (children rest : List Node) :
    shown p hidden (.element name attributes children :: rest) =
      (Element.shown (p.inside name) ⟨name, attributes, children⟩).toNode :: shown (p.after name) false rest := rfl

theorem shown_text_of_read (reads : p.readsText = true) (s : String) (rest : List Node) :
    shown p false (.text s :: rest) = .text s :: shown p false rest := by
  rw [shown]
  simp [reads]

theorem shown_text_of_unread (unread : p.readsText = false ∨ hidden = true) (s : String) (rest : List Node) :
    shown p hidden (.text s :: rest) = shown p hidden rest := by
  rw [shown]
  rcases unread with unread | rfl <;> simp [*]

theorem head?_shown_hidden (p : Place) (nodes : List Node) :
    (shown p true nodes).head?.bind Node.toText? = none := by
  induction nodes generalizing p with
  | nil => rfl
  | cons n rest ih =>
    cases n with
    | element => rfl
    | text s =>
      rw [shown_text_of_unread (.inr rfl)]
      exact ih p
    | comment => exact ih p
    | instruction => exact ih p

theorem head?_shown (reads : p.readsText = true) (nodes : List Node) :
    (shown p false nodes).head?.bind Node.toText? = nodes.head?.bind Node.toText? := by
  cases nodes with
  | nil => rfl
  | cons n rest =>
    cases n with
    | element => rfl
    | text s =>
      rw [shown_text_of_read reads]
      rfl
    | comment => exact head?_shown_hidden p rest
    | instruction => exact head?_shown_hidden p rest

theorem filter_elements_shown (keep : String → Bool) {P : Place → Prop} {r : Place}
    (closed : ∀ p tag, P p → P (p.after tag)) (into : ∀ p tag, P p → keep tag = true → p.inside tag = r)
    (here : P p) (hidden : Bool) (nodes : List Node) :
    ((shown p hidden nodes).filterMap Node.toElement?).filter (keep ·.name) =
      ((nodes.filterMap Node.toElement?).filter (keep ·.name)).map (Element.shown r) := by
  induction nodes generalizing p hidden with
  | nil => rfl
  | cons n rest ih =>
    cases n with
    | element name attributes children =>
      have later := ih (closed p name here) false
      rw [shown_element]
      cases kept : keep name with
      | false => simpa [Element.toNode, Node.toElement?, Element.shown, kept] using later
      | true => simpa [Element.toNode, Node.toElement?, Element.shown, kept, into p name here kept] using later
    | text s =>
      by_cases reads : p.readsText = true ∧ hidden = false
      · obtain ⟨reads, rfl⟩ := reads
        rw [shown_text_of_read reads]
        exact ih here _
      · rw [shown_text_of_unread (by grind)]
        exact ih here _
    | comment => exact ih here _
    | instruction => exact ih here _

variable {e : Element}

theorem leadText?_shown (reads : p.readsText = true) : (e.shown p).leadText? = e.leadText? :=
  head?_shown reads e.children

theorem leadText_shown (reads : p.readsText = true) : (e.shown p).leadText = e.leadText := by
  rw [Element.leadText, leadText?_shown reads, Element.leadText]

theorem elementsNamed_shown (steady : ∀ tag, p.after tag = p) (tag : String) :
    (e.shown p).elementsNamed tag = (e.elementsNamed tag).map (Element.shown (p.inside tag)) := by
  refine filter_elements_shown (· == tag) (P := (· = p)) ?_ ?_ rfl false e.children
  · rintro q name rfl
    exact steady name
  · rintro q name rfl kept
    rw [eq_of_beq kept]

theorem elements_shown {r : Place} (steady : ∀ tag, p.after tag = p) (into : ∀ tag, p.inside tag = r) :
    (e.shown p).elements = e.elements.map (Element.shown r) := by
  have all := filter_elements_shown (fun _ => true) (P := (· = p)) (r := r)
    (by rintro q name rfl; exact steady name) (by rintro q name rfl -; exact into name) rfl false e.children
  rwa [List.filter_true, List.filter_true] at all

theorem elementsNamed_shown_typed {tag : String} (marks : tag = "name" ∨ tag = "ptype") :
    (e.shown .typed).elementsNamed tag = (e.elementsNamed tag).map (Element.shown .marker) := by
  refine filter_elements_shown (· == tag) (P := fun q => q = .typed ∨ q = .named) ?_ ?_ (.inl rfl) false e.children
  · rintro q name (rfl | rfl)
    · rw [Place.after]
      split
      · exact .inr rfl
      · exact .inl rfl
    · exact .inr rfl
  · rintro q name (rfl | rfl) kept
    · rfl
    · rw [eq_of_beq kept]
      rcases marks with rfl | rfl <;> rfl

theorem elementsWithTails_shown (reads : p.readsText = true) (steady : ∀ tag, p.after tag = p) (nodes : List Node) :
    elementsWithTails (shown p hidden nodes) =
      (elementsWithTails nodes).map fun (child, tail) => (child.shown (p.inside child.name), tail) := by
  induction nodes generalizing hidden with
  | nil => rfl
  | cons n rest ih =>
    cases n with
    | element name attributes children =>
      rw [shown_element, steady, Element.toNode, elementsWithTails, elementsWithTails, head?_shown reads, ih]
      rfl
    | text s =>
      by_cases open_ : hidden = false
      · subst open_
        rw [shown_text_of_read reads]
        exact ih
      · rw [shown_text_of_unread (.inr (by simpa using open_))]
        exact ih
    | comment => exact ih
    | instruction => exact ih

theorem takeWhile_shown_typed (nodes : List Node) :
    (elementsWithTails (shown .typed hidden nodes)).takeWhile (·.1.name != "name") =
      ((elementsWithTails nodes).takeWhile (·.1.name != "name")).map fun (child, tail) =>
        (child.shown .marker, tail) := by
  induction nodes generalizing hidden with
  | nil => rfl
  | cons n rest ih =>
    cases n with
    | element name attributes children =>
      rw [shown_element, Element.toNode, elementsWithTails, elementsWithTails]
      by_cases named : name = "name"
      · simp [Element.shown, named]
      · have later : Place.after .typed name = .typed := if_neg (by simpa using named)
        rw [later, head?_shown rfl]
        simpa [Element.shown, named, Place.inside] using ih
    | text s =>
      cases hidden with
      | false => exact ih
      | true => exact ih
    | comment => exact ih
    | instruction => exact ih

end Shown

namespace Registry

theorem aliasPart_shown (child : Element) :
    aliasPart (child.shown (Place.alias.inside child.name)) = aliasPart child := by
  rw [aliasPart, aliasPart]
  by_cases named : child.name == "name"
  · have place : Place.alias.inside child.name = .marker := if_pos named
    rw [place, leadText_shown rfl]
    rfl
  · rw [if_neg named]
    exact if_neg named

theorem typeAlias?_shown (e : Element) : typeAlias? (e.shown .alias) = typeAlias? e := by
  have source : aliasSource (e.shown .alias) = aliasSource e := by
    rw [aliasSource, aliasSource, leadText_shown rfl, Element.shown, elementsWithTails_shown rfl fun _ => rfl,
      List.map_map]
    simp only [Function.comp_def, aliasPart_shown]
  rw [typeAlias?_eq, typeAlias?_eq, leadText_shown rfl, source]

theorem fullType_shown (e : Element) : fullType (e.shown .typed) = fullType e := by
  rw [fullType, fullType, leadText_shown rfl, Element.shown, takeWhile_shown_typed, List.map_map]
  simp only [Function.comp_def, leadText_shown (p := .marker) rfl]

theorem leadText?_comp_shown : Element.leadText? ∘ Element.shown .marker = Element.leadText? :=
  funext fun _ => leadText?_shown rfl

theorem leadText_comp_shown : Element.leadText ∘ Element.shown .marker = Element.leadText :=
  funext fun _ => leadText_shown rfl

theorem parameter_shown (name : String) (e : Element) : parameter name (e.shown .typed) = parameter name e := by
  rw [parameter, parameter, elementsNamed_shown_typed (.inl rfl), elementsNamed_shown_typed (.inr rfl),
    List.getLast?_map, List.getLast?_map, Option.bind_map, Option.map_map, leadText?_comp_shown, leadText_comp_shown,
    leadText?_shown rfl, fullType_shown]

theorem firstNamed?_eq_head? (e : Element) (tag : String) : e.firstNamed? tag = (e.elementsNamed tag).head? :=
  List.head?_filter.symm

theorem command_shown (e : Element) : command (e.shown .command) = command e := by
  have params : (e.shown .command).elementsNamed "param" = (e.elementsNamed "param").map (Element.shown .typed) :=
    elementsNamed_shown (fun _ => rfl) "param"
  have prototypes : (e.shown .command).elementsNamed "proto" = (e.elementsNamed "proto").map (Element.shown .typed) :=
    elementsNamed_shown (fun _ => rfl) "proto"
  have inner (name : String) : parameter name ∘ Element.shown .typed = parameter name :=
    funext fun _ => parameter_shown name _
  rw [command, command, params, firstNamed?_eq_head?, firstNamed?_eq_head?, prototypes, List.head?_map]
  cases (e.elementsNamed "proto").head? with
  | none => rfl
  | some prototype =>
    simp only [Option.map_some, firstNamed?_eq_head?, elementsNamed_shown_typed (.inl rfl),
      elementsNamed_shown_typed (.inr rfl), List.head?_map, Option.bind_map, Option.map_map, leadText?_comp_shown,
      leadText_comp_shown, leadText?_shown (p := .typed) rfl, fullType_shown, List.mapM_map, inner]

theorem typesOf_shown (root : Element) : typesOf (root.shown .root) = typesOf root := by
  have groups : (root.shown .root).elementsNamed "types" = (root.elementsNamed "types").map (Element.shown .types) :=
    elementsNamed_shown (fun _ => rfl) "types"
  have children (group : Element) : (group.shown .types).elements = group.elements.map (Element.shown .alias) :=
    elements_shown (fun _ => rfl) fun _ => rfl
  rw [typesOf, typesOf, groups, List.flatMap_map]
  simp only [children, ← List.map_flatMap, List.filterMap_map]
  exact congrArg (List.filterMap · _) (funext typeAlias?_shown)

theorem constantsOf_shown (root : Element) : constantsOf (root.shown .root) = constantsOf root := by
  have groups : (root.shown .root).elementsNamed "enums" = (root.elementsNamed "enums").map (Element.shown .other) :=
    elementsNamed_shown (fun _ => rfl) "enums"
  have children (group : Element) :
      (group.shown .other).elementsNamed "enum" = (group.elementsNamed "enum").map (Element.shown .other) :=
    elementsNamed_shown (fun _ => rfl) "enum"
  rw [constantsOf, constantsOf, groups, List.flatMap_map]
  simp only [children, ← List.map_flatMap, List.filterMap_map]
  rfl

theorem commandsOf_shown (root : Element) : commandsOf (root.shown .root) = commandsOf root := by
  have groups : (root.shown .root).elementsNamed "commands" =
      (root.elementsNamed "commands").map (Element.shown .commands) := elementsNamed_shown (fun _ => rfl) "commands"
  have children (group : Element) :
      (group.shown .commands).elementsNamed "command" = (group.elementsNamed "command").map (Element.shown .command) :=
    elementsNamed_shown (fun _ => rfl) "command"
  rw [commandsOf, commandsOf, groups, List.flatMap_map]
  simp only [children, ← List.map_flatMap, List.mapM_map]
  exact congrArg (List.mapM · _) (funext command_shown)

theorem ofRoot_shown (root : Element) : ofRoot (root.shown .root) = ofRoot root := by
  rw [ofRoot, ofRoot, typesOf_shown, constantsOf_shown, commandsOf_shown]

end Registry

namespace Release

theorem ofElement?_shown (api : String) (e : Element) : ofElement? api (e.shown .other) = ofElement? api e := by
  have requires : (e.shown .other).elementsNamed "require" = (e.elementsNamed "require").map (Element.shown .other) :=
    elementsNamed_shown (fun _ => rfl) "require"
  have references (r : Element) : (r.shown .other).elements = r.elements.map (Element.shown .other) :=
    elements_shown (fun _ => rfl) fun _ => rfl
  have reference (feature : String) : reference? feature ∘ Element.shown .other = reference? feature := rfl
  rw [ofElement?, ofElement?, requires, List.flatMap_map]
  simp only [references, ← List.map_flatMap, List.mapM_map, reference]
  rfl

theorem ofRoot_shown (root : Element) (api : String) : ofRoot (root.shown .root) api = ofRoot root api := by
  have features : (root.shown .root).elementsNamed "feature" =
      (root.elementsNamed "feature").map (Element.shown .other) := elementsNamed_shown (fun _ => rfl) "feature"
  have inner : ofElement? api ∘ Element.shown .other = ofElement? api := funext (ofElement?_shown api)
  rw [ofRoot, ofRoot, features, List.mapM_map, inner]

end Release

namespace Surface

theorem ofRoot_shown (root : Element) (target : Target) : ofRoot (root.shown .root) target = ofRoot root target := by
  rw [ofRoot, ofRoot, Registry.ofRoot_shown, Release.ofRoot_shown]

end Surface

end GLHeader
