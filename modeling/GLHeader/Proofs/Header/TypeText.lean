import GLHeader.Proofs.Header.TypeDirectives
import GLHeader.Proofs.Text.Collapse
import GLHeader.Proofs.Text.Cut

namespace GLHeader.Registry

open GLHeader.Text GLHeader.Xml

def childText (child : Element) : String :=
  match child.name with
  | "name" => child.leadText
  | "apientry" => "APIENTRY "
  | _ => ""

def tailedText (children : List (Element × Option String)) : String :=
  String.join (children.map fun (child, tail) => childText child ++ tail.getD "")

/-- What some nodes write. A text counts if it comes directly after an element. -/
def writtenText : List Node → String
  | .element name attributes content :: .text tail :: rest =>
    childText ⟨name, attributes, content⟩ ++ tail ++ writtenText rest
  | .element name attributes content :: rest => childText ⟨name, attributes, content⟩ ++ writtenText rest
  | _ :: rest => writtenText rest
  | [] => ""

/-- What a type element writes, with the white space as it stands there. -/
def aliasText (e : Element) : String := e.leadText ++ writtenText e.children

theorem aliasPart_eq (child : Element) : aliasPart child = childText child := by
  by_cases named : child.name = "name"
  · simp [aliasPart, childText, named]
  · by_cases called : child.name = "apientry"
    · simp [aliasPart, childText, called]
    · simp [aliasPart, childText, named, called]

theorem writtenText_eq (nodes : List Node) : writtenText nodes = tailedText (elementsWithTails nodes) := by
  fun_induction writtenText nodes with
  | case1 name attributes content tail rest ih =>
    simp [ih, elementsWithTails, tailedText, Node.toText?, String.append_assoc]
  | case2 name attributes content rest bare ih =>
    have silent : rest.head?.bind Node.toText? = none := by
      rcases rest with _ | ⟨_ | text | _ | _, rest⟩
      any_goals rfl
      exact absurd rfl (bare text rest)
    simp [ih, elementsWithTails, tailedText, silent]
  | case3 node rest other later ih =>
    cases node with
    | element name attributes content => exact absurd rfl (later name attributes content)
    | _ => simpa [elementsWithTails] using ih
  | case4 => rfl

theorem solid_aliasSource (e : Element) : solid (aliasSource e).toList = solid (aliasText e).toList := by
  have trimmed (child : Element × Option String) : solid (aliasPart child.1 ++ trim (child.2.getD "")).toList =
      solid (childText child.1 ++ child.2.getD "").toList := by
    rw [String.toList_append, String.toList_append, solid_append, solid_append, solid_trim, aliasPart_eq]
  rw [aliasSource, aliasText, writtenText_eq, tailedText, String.toList_append, String.toList_append, solid_append,
    solid_append, solid_join, solid_join, List.flatMap_map, List.flatMap_map, funext trimmed]

theorem toList_terminated (s : String) :
    (terminated s).toList = s.toList ++ if s.toList.getLast? = some ';' then [] else [';'] := by
  rw [terminated]
  split
  · rw [List.append_nil]
  · rw [String.toList_append]
    rfl

structure Declares (e : Element) (t : String) : Prop where
  spaced : SingleSpaced t.toList
  marked : occurs "typedef" t = true
  ended : t.toList.getLast? = some ';'
  /-- Nothing but white space is lost, and only a semicolon that lacks at the end is added. -/
  kept : solid t.toList = solid (aliasText e).toList ++
    if (solid (aliasText e).toList).getLast? = some ';' then [] else [';']

theorem declares_typeAlias? {e : Element} {t : String} (read : typeAlias? e = some t) : Declares e t := by
  rw [typeAlias?_eq] at read
  split at read
  · rename_i marked
    obtain rfl := Option.some.inj read
    have chars : (terminated (collapse (aliasSource e))).toList = squeeze (aliasSource e).toList ++
        if (squeeze (aliasSource e).toList).getLast? = some ';' then [] else [';'] := by
      rw [toList_terminated, toList_collapse]
    have spaced := singleSpaced_squeeze (aliasSource e).toList
    have last : (solid (aliasText e).toList).getLast? = (squeeze (aliasSource e).toList).getLast? := by
      rw [← solid_aliasSource, ← solid_squeeze, getLast?_solid spaced.stop]
    constructor
    · rw [chars]
      split
      · rwa [List.append_nil]
      · exact spaced.concat rfl
    · have word : squeeze "typedef".toList = "typedef".toList := squeeze_of_solid (by decide)
      have part : e.leadText.toList <:+: (aliasSource e).toList := by
        rw [aliasSource, String.toList_append]
        exact (List.prefix_append _ _).isInfix
      have found := squeeze_infix ((occurs_iff.mp marked).trans part)
      rw [word] at found
      rw [occurs_iff, chars]
      exact found.trans (List.prefix_append _ _).isInfix
    · rw [chars]
      split
      · rename_i ended
        rwa [List.append_nil]
      · exact List.getLast?_concat
    · rw [chars, solid_append, solid_squeeze, solid_aliasSource, last]
      split <;> rfl
  · cases read

/-- Every type element that begins with the text of an alias has one declaration, in document order, which
is what it writes but for white space; and the lines that a header prints for them are these declarations. -/
theorem types_lossless (root : Element) :
    List.Forall₂ Declares ((Surface.typeElements root).filter fun e => occurs "typedef" e.leadText)
        (typesOf root) ∧
      ∀ (s : Surface) (o : Header.Options),
        lines (Header.sections { s with types := typesOf root } o).types = typesOf root := by
  refine ⟨?_, fun _ _ => lines_types root⟩
  rw [typesOf, ← Surface.typeElements]
  induction Surface.typeElements root with
  | nil => exact .nil
  | cons e es ih =>
    have read := typeAlias?_eq e
    cases marked : occurs "typedef" e.leadText with
    | false =>
      rw [marked, if_neg Bool.false_ne_true] at read
      rwa [List.filter_cons_of_neg (by simp [marked]), List.filterMap_cons_none read]
    | true =>
      rw [marked, if_pos rfl] at read
      rw [List.filter_cons_of_pos (by exact marked), List.filterMap_cons_some read]
      exact .cons (declares_typeAlias? read) ih

theorem types_lossless_callback :
    let callback : Element := ⟨"type", [], [.text "typedef void (", .element "apientry" [] [.text "CALL"],
      .text " *", .comment, .element "name" [] [.text "GLproc"], .text ")(\n int a) ;\t"]⟩
    let directive : Element := ⟨"type", [], [.text "#include <", .element "name" [] [.text "typedef"], .text ">"]⟩
    let handle : Element := ⟨"type", [], [.text "typedef  unsigned ", .element "ptype" [] [.text "int"],
      .text "*", .element "name" [] [.text "GLhandle"]]⟩
    let root : Element := ⟨"registry", [],
      [.element "types" [] [callback.toNode, directive.toNode], .element "types" [] [handle.toNode]]⟩
    aliasText callback = "typedef void (APIENTRY  *GLproc)(\n int a) ;\t" ∧
      aliasText handle = "typedef  unsigned *GLhandle" ∧
        typesOf root = ["typedef void (APIENTRY *GLproc)( int a) ;", "typedef unsigned *GLhandle;"] ∧
          Declares callback "typedef void (APIENTRY *GLproc)( int a) ;" ∧
            Declares handle "typedef unsigned *GLhandle;" := by
  intro callback directive handle root
  have read : typesOf root = ["typedef void (APIENTRY *GLproc)( int a) ;", "typedef unsigned *GLhandle;"] := by
    decide +kernel
  have first : occurs "typedef" callback.leadText = true := by decide +kernel
  have second : occurs "typedef" directive.leadText = false := by decide +kernel
  have third : occurs "typedef" handle.leadText = true := by decide +kernel
  have elements : Surface.typeElements root = [callback, directive, handle] := rfl
  have aliases : (Surface.typeElements root).filter (fun e => occurs "typedef" e.leadText) = [callback, handle] := by
    simp [elements, first, second, third]
  have listed := (types_lossless root).1
  rw [read, aliases, List.forall₂_cons, List.forall₂_cons] at listed
  exact ⟨by decide +kernel, by decide +kernel, read, listed.1, listed.2.1⟩

end GLHeader.Registry
