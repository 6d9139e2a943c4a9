import GLHeader.Header.Sections
import GLHeader.Proofs.Registry.Definitions
import GLHeader.Proofs.Text.NormalForm
import GLHeader.Proofs.Xml.Merged

namespace GLHeader

open GLHeader.Header GLHeader.Text GLHeader.Xml

namespace Xml

mutual

def Node.allText : Node → String
  | .element _ _ children => textOf children
  | .text content => content
  | .comment | .instruction => ""
termination_by structural n => n

def textOf : List Node → String
  | [] => ""
  | n :: rest => n.allText ++ textOf rest
termination_by structural nodes => nodes

end

def Node.isName : Node → Bool
  | .element name _ _ => name == "name"
  | _ => false

/-- The children before the first name, or all of them where there is none. -/
def Element.beforeName (e : Element) : List Node := e.children.takeWhile (!·.isName)

/-- A text, or an element that holds at most one text and nothing else. -/
inductive Node.IsPlain : Node → Prop
  | text (content : String) : IsPlain (.text content)
  | empty (name : String) (attributes : List Attribute) : IsPlain (.element name attributes [])
  | marker (name : String) (attributes : List Attribute) (content : String) :
    IsPlain (.element name attributes [.text content])

instance : DecidablePred Node.IsPlain
  | .text content => isTrue (.text content)
  | .element name attributes [] => isTrue (.empty name attributes)
  | .element name attributes [.text content] => isTrue (.marker name attributes content)
  | .element _ _ (.element _ _ _ :: _) | .element _ _ (.comment :: _) | .element _ _ (.instruction :: _)
  | .element _ _ (_ :: _ :: _) | .comment | .instruction => isFalse nofun

end Xml

namespace Registry

def partText (part : Element × Option String) : String := part.1.leadText ++ part.2.getD ""

def typeText (nodes : List Node) : String :=
  (nodes.head?.bind Node.toText?).getD "" ++
    String.join (((elementsWithTails nodes).takeWhile (·.1.name != "name")).map partText)

theorem fullType_eq (e : Element) : fullType e = collapse (typeText e.children) := rfl

theorem typeText_text {rest : List Node} (s : String) (parted : rest.head?.bind Node.toText? = none) :
    typeText (.text s :: rest) = s ++ typeText rest := by
  rw [typeText, typeText, parted]
  simp [elementsWithTails, Node.toText?]

theorem typeText_element {name : String} (other : name ≠ "name") (attributes : List Attribute)
    (children rest : List Node) :
    typeText (.element name attributes children :: rest) =
      Element.leadText ⟨name, attributes, children⟩ ++ typeText rest := by
  simp [typeText, partText, elementsWithTails, Node.toText?, other, String.append_assoc]

theorem typeText_name (attributes : List Attribute) (children rest : List Node) :
    typeText (.element "name" attributes children :: rest) = "" := by
  simp [typeText, elementsWithTails, Node.toText?]

theorem allText_of_isPlain {name : String} {attributes : List Attribute} {children : List Node}
    (plain : (Node.element name attributes children).IsPlain) :
    (Node.element name attributes children).allText = Element.leadText ⟨name, attributes, children⟩ := by
  cases plain with
  | empty => rfl
  | marker _ _ content => simp [Node.allText, textOf, Element.leadText, Element.leadText?, Node.toText?]

theorem typeText_eq_textOf {nodes : List Node} (parted : nodes.IsChain NotBothTexts)
    (plain : ∀ n ∈ nodes.takeWhile (!·.isName), n.IsPlain) :
    typeText nodes = textOf (nodes.takeWhile (!·.isName)) := by
  induction nodes with
  | nil => rfl
  | cons n rest ih =>
    obtain ⟨near, chained⟩ := List.isChain_cons.mp parted
    cases n with
    | text s =>
      have alone : rest.head?.bind Node.toText? = none := by
        cases next : rest.head? with
        | none => rfl
        | some m => exact (near m next).resolve_left nofun
      rw [List.takeWhile_cons_of_pos rfl] at plain ⊢
      rw [typeText_text s alone, ih chained (List.forall_mem_cons.mp plain).2]
      rfl
    | element name attributes children =>
      by_cases named : name = "name"
      · subst named
        rw [typeText_name, List.takeWhile_cons_of_neg (by simp [Node.isName])]
        rfl
      · rw [List.takeWhile_cons_of_pos (by simp [Node.isName, named])] at plain ⊢
        obtain ⟨here, later⟩ := List.forall_mem_cons.mp plain
        rw [typeText_element named, ih chained later, textOf, allText_of_isPlain here]
    | comment | instruction =>
      rw [List.takeWhile_cons_of_pos rfl] at plain
      cases (List.forall_mem_cons.mp plain).1

/-- What holds of the first prototype of a command and the type of its result, and of each parameter and its
type. -/
structure SignatureHas (result parameter : Element → TypeText → Prop) (e : Element) (s : Signature) : Prop where
  result : ∃ prototype, e.firstNamed? "proto" = some prototype ∧ result prototype s.result
  parameters : List.Forall₂ (fun p stated => parameter p stated.type) (e.elementsNamed "param") s.parameters

def statedResult (prototype : Element) : TypeText :=
  ⟨trim (((prototype.firstNamed? "ptype").map Element.leadText).getD prototype.leadText), fullType prototype⟩

theorem signatures_have {root : Element} {registry : Registry} (accepted : ofRoot root = .ok registry)
    {result parameter : Element → TypeText → Prop}
    (results : ∀ e ∈ commandElements root, ∀ prototype ∈ e.elements, result prototype (statedResult prototype))
    (parameters : ∀ e ∈ commandElements root, ∀ p ∈ e.elements, parameter p (statedParameter p).type) :
    List.Forall₂ (fun e entry => SignatureHas result parameter e entry.2) (commandElements root) registry.commands := by
  obtain ⟨sound, rfl⟩ := reads_registry.ok_iff.mp accepted
  rw [statedRegistry, List.forall₂_map_right_iff, List.forall₂_same]
  intro e member
  obtain ⟨prototype, found, -⟩ := sound e member
  constructor
  · have inside : prototype ∈ e.elements := List.mem_of_find?_eq_some found
    refine ⟨prototype, found, ?_⟩
    rw [statedSignature, found]
    exact results e member prototype inside
  · rw [statedSignature, List.forall₂_map_right_iff, List.forall₂_same]
    intro p parameter
    exact parameters e member p (List.mem_filter.mp parameter).1

/-- Where nothing but plain nodes stands before the name, the full spelling is all the text there. -/
def IsWhole (e : Element) (type : TypeText) : Prop :=
  (∀ n ∈ e.beforeName, n.IsPlain) → type.full = collapse (textOf e.beforeName)

theorem merged_of_mem_commandElements {root e : Element} (merged : Merged root.children)
    (member : e ∈ commandElements root) : Merged e.children := by
  obtain ⟨group, inside, member⟩ := List.mem_flatMap.mp member
  have outer := merged.of_mem_elements (List.mem_filter.mp inside).1
  exact outer.of_mem_elements (List.mem_filter.mp member).1

theorem isWhole_of_merged {e : Element} (merged : Merged e.children) (short : String) :
    IsWhole e ⟨short, fullType e⟩ := by
  intro plain
  have whole := typeText_eq_textOf merged.parted plain
  rw [fullType_eq, whole, Element.beforeName]

theorem full_spelling_of_merged {root : Element} {registry : Registry} (accepted : ofRoot root = .ok registry)
    (merged : Merged root.children) :
    List.Forall₂ (fun e entry => SignatureHas IsWhole IsWhole e entry.2) (commandElements root) registry.commands := by
  have inner (e : Element) (member : e ∈ commandElements root) (child : Element) (inside : child ∈ e.elements)
      (short : String) : IsWhole child ⟨short, fullType child⟩ :=
    isWhole_of_merged ((merged_of_mem_commandElements merged member).of_mem_elements inside) short
  exact signatures_have accepted (fun e member prototype inside => inner e member prototype inside _)
    fun e member p inside => inner e member p inside _

/-- Where no two texts stand next to each other, every full spelling is all the text before the name, with its
white space collapsed: that in elements and that between them, and nothing from the name on. The tree of a
document is of that kind. -/
theorem full_spelling_whole {root : Element} {registry : Registry} (accepted : ofRoot root = .ok registry) :
    (Merged root.children → List.Forall₂ (fun e entry => SignatureHas IsWhole IsWhole e entry.2)
        (commandElements root) registry.commands) ∧
      ∀ document, Xml.read? document = some root →
        List.Forall₂ (fun e entry => SignatureHas IsWhole IsWhole e entry.2) (commandElements root)
          registry.commands :=
  ⟨full_spelling_of_merged accepted, fun _ read => full_spelling_of_merged accepted (merged_read? read)⟩

theorem full_spelling_whole_pieces :
    let document := "<r><commands><command><proto>const <a>T</a>\n*<name>f</name>g</proto>" ++
      "<param>T<b/> *<name>p</name></param></command></commands></r>"
    ∃ root registry, Xml.read? document = some root ∧ ofRoot root = .ok registry ∧
      (∀ e ∈ commandElements root, ∀ child ∈ e.elements, ∀ n ∈ child.beforeName, n.IsPlain) ∧
      List.Forall₂ (fun e entry => SignatureHas IsWhole IsWhole e entry.2) (commandElements root) registry.commands ∧
      registry.commands = [("f", ⟨⟨"const", "const T *"⟩, [⟨⟨"T", "T *"⟩, "p"⟩]⟩)] := by
  intro document
  have evaluated : (Xml.read? document).map (fun root => (ofRoot root,
      decide (∀ e ∈ commandElements root, ∀ child ∈ e.elements, ∀ n ∈ child.beforeName, n.IsPlain))) =
        some (.ok ⟨[], [], [("f", ⟨⟨"const", "const T *"⟩, [⟨⟨"T", "T *"⟩, "p"⟩]⟩)]⟩, true) := by decide +kernel
  obtain ⟨root, read, same⟩ := Option.map_eq_some_iff.mp evaluated
  obtain ⟨accepted, plain⟩ := Prod.mk.inj same
  exact ⟨root, _, read, accepted, of_decide_eq_true plain, (full_spelling_whole accepted).2 _ read, rfl⟩

/-- A type marker before all names, with the children before it and after it. -/
structure MarkerAhead (e : Element) (before : List Element) (marker : Element) (after : List Element) : Prop where
  split : e.elements = before ++ marker :: after
  named : marker.name = "ptype"
  ahead : ∀ child ∈ before, child.name ≠ "name"

def FirstMarkerAhead (e : Element) : Prop :=
  ∃ before marker after, MarkerAhead e before marker after ∧ ∀ child ∈ before, child.name ≠ "ptype"

def LastMarkerAhead (e : Element) : Prop :=
  ∃ before marker after, MarkerAhead e before marker after ∧ ∀ child ∈ after, child.name ≠ "ptype"

theorem infix_join {s : String} {parts : List String} (member : s ∈ parts) :
    s.toList <:+: (String.join parts).toList := by
  rw [String.toList_join, List.flatMap_def]
  exact List.infix_of_mem_flatten (List.mem_map_of_mem member)

section Marker

variable {e marker : Element} {before after : List Element}

theorem firstNamed?_of_split (split : e.elements = before ++ marker :: after) (named : marker.name = "ptype")
    (first : ∀ child ∈ before, child.name ≠ "ptype") : e.firstNamed? "ptype" = some marker := by
  have none : before.find? (·.name == "ptype") = none := by simpa using first
  rw [Element.firstNamed?, split, List.find?_append, none, List.find?_cons_of_pos (by simp [named])]
  rfl

theorem getLast?_of_split (split : e.elements = before ++ marker :: after) (named : marker.name = "ptype")
    (last : ∀ child ∈ after, child.name ≠ "ptype") : (e.elementsNamed "ptype").getLast? = some marker := by
  have none : after.filter (·.name == "ptype") = [] := by simpa using last
  rw [Element.elementsNamed, split, List.filter_append, List.filter_cons_of_pos (by simp [named]), none,
    List.getLast?_concat]

theorem leadText_in_typeText (ahead : MarkerAhead e before marker after) :
    marker.leadText.toList <:+: (typeText e.children).toList := by
  have split := ahead.split
  rw [Element.elements, ← elementsWithTails_map_fst, List.map_eq_append_iff] at split
  obtain ⟨earlier, rest, whole, rfl, same⟩ := split
  obtain ⟨⟨child, tail⟩, later, rfl, rfl, rfl⟩ := List.map_eq_cons_iff.mp same
  have unnamed : ∀ entry ∈ earlier, (entry.1.name != "name") = true := by
    intro entry member
    simpa using ahead.ahead entry.1 (List.mem_map_of_mem member)
  have other : ((child, tail).1.name != "name") = true := by
    rw [ahead.named]
    rfl
  have kept : (child, tail) ∈ (elementsWithTails e.children).takeWhile (·.1.name != "name") := by
    rw [whole, List.takeWhile_append_of_pos unnamed,
      List.takeWhile_cons_of_pos (p := fun entry : Element × Option String => entry.1.name != "name") other]
    simp
  have part : (partText (child, tail)).toList <:+: (typeText e.children).toList := by
    refine (infix_join (List.mem_map_of_mem kept)).trans ?_
    rw [typeText, String.toList_append]
    exact (List.suffix_append _ _).isInfix
  rw [partText, String.toList_append] at part
  exact (List.prefix_append _ _).isInfix.trans part

end Marker

def FullAdds (type : TypeText) : Prop :=
  ∃ before after, Spelling.full.of type = before ++ collapse (Spelling.short.of type) ++ after

def FullAppends (type : TypeText) : Prop :=
  ∃ after, Spelling.full.of type = collapse (Spelling.short.of type) ++ after

/-- The full spelling adds to the short one, if the marker that counts stands before the name or there is no
marker. -/
structure Agrees (ahead : Element → Prop) (e : Element) (type : TypeText) : Prop where
  adds : ahead e ∨ e.elementsNamed "ptype" = [] → FullAdds type
  appends : e.elementsNamed "ptype" = [] → FullAppends type

theorem agrees_of_marker {ahead : Element → Prop} {e : Element} {marker : Option Element} {short : String}
    (text : collapse short = collapse ((marker.map Element.leadText).getD e.leadText))
    (unmarked : e.elementsNamed "ptype" = [] → marker = none)
    (marked : ahead e → ∃ before m after, MarkerAhead e before m after ∧ marker = some m) :
    Agrees ahead e ⟨short, fullType e⟩ := by
  have appends (none : e.elementsNamed "ptype" = []) : ∃ after, fullType e = collapse short ++ after := by
    obtain rfl := unmarked none
    rw [text, fullType_eq, typeText]
    exact exists_after_collapse _ _
  refine ⟨?_, appends⟩
  rintro (stands | none)
  · obtain ⟨before, m, after, first, rfl⟩ := marked stands
    have around := exists_around_collapse (leadText_in_typeText first)
    rw [FullAdds, Spelling.of, Spelling.of, text, fullType_eq]
    exact around
  · obtain ⟨after, whole⟩ := appends none
    exact ⟨"", after, by rw [String.empty_append, Spelling.of, Spelling.of, whole]⟩

/-- In a registry every full spelling has the short one in it, with its white space collapsed, if the marker
that the short one comes from stands before the name. A type without a marker begins with its short spelling. -/
theorem full_spelling_around_short {root : Element} {registry : Registry} (accepted : ofRoot root = .ok registry) :
    List.Forall₂ (fun e entry => SignatureHas (Agrees FirstMarkerAhead) (Agrees LastMarkerAhead) e entry.2)
      (commandElements root) registry.commands := by
  refine signatures_have accepted (fun _ _ prototype _ => ?_) fun _ _ p _ => ?_
  · refine agrees_of_marker (collapse_trim _) (firstNamed?_eq_none_iff prototype "ptype").mpr ?_
    rintro ⟨before, marker, after, ahead, first⟩
    exact ⟨before, marker, after, ahead, firstNamed?_of_split ahead.split ahead.named first⟩
  · refine agrees_of_marker rfl List.getLast?_eq_none_iff.mpr ?_
    rintro ⟨before, marker, after, ahead, last⟩
    exact ⟨before, marker, after, ahead, getLast?_of_split ahead.split ahead.named last⟩

theorem full_spelling_around_short_twice :
    let name (text : String) : Node := .element "name" [] [.text text]
    let marker (text : String) : Node := .element "ptype" [] [.text text]
    let result : Element := ⟨"proto", [], [.text "const ", marker " GLu\tbyte ", .text "*", name "f", marker "T"]⟩
    let marked : Element := ⟨"param", [], [marker "const", .text "\n", marker "unsigned  int ", .text " *", name "p"]⟩
    let unmarked : Element := ⟨"param", [], [.text " struct\t_T", .element "b" [] [.text "ag* "], name "q"]⟩
    let command : Element := ⟨"command", [], [result.toNode, marked.toNode, unmarked.toNode]⟩
    let root : Element := ⟨"registry", [], [.element "commands" [] [command.toNode]]⟩
    let registry : Registry := ⟨[], [], [("f", ⟨⟨"GLu\tbyte", "const GLu byte *"⟩,
      [⟨⟨"unsigned  int ", "const unsigned int *"⟩, "p"⟩, ⟨⟨" struct\t_T", "struct _Tag*"⟩, "q"⟩]⟩)]⟩
    ofRoot root = .ok registry ∧ FirstMarkerAhead result ∧ LastMarkerAhead marked ∧
      FullAdds ⟨"GLu\tbyte", "const GLu byte *"⟩ ∧ FullAdds ⟨"unsigned  int ", "const unsigned int *"⟩ ∧
      FullAppends ⟨" struct\t_T", "struct _Tag*"⟩ := by
  intro name marker result marked unmarked command root registry
  have accepted : ofRoot root = .ok registry := by decide +kernel
  have first : FirstMarkerAhead result := ⟨[], _, _, ⟨rfl, rfl, nofun⟩, nofun⟩
  have last : LastMarkerAhead marked := ⟨[_], _, _, ⟨rfl, rfl, by decide⟩, by decide⟩
  have commands : List.Forall₂ _ [command] registry.commands := full_spelling_around_short accepted
  obtain ⟨⟨⟨prototype, found, ofResult⟩, ofParameters⟩, -⟩ := List.forall₂_cons.mp commands
  obtain rfl : result = prototype := Option.some.inj found
  have parameters : List.Forall₂ _ [marked, unmarked] _ := ofParameters
  obtain ⟨ofMarked, others⟩ := List.forall₂_cons.mp parameters
  obtain ⟨ofUnmarked, -⟩ := List.forall₂_cons.mp others
  exact ⟨accepted, first, last, ofResult.adds (.inl first), ofMarked.adds (.inl last), ofUnmarked.appends rfl⟩

end Registry

end GLHeader
