import GLHeader.Proofs.Surface.Reading

namespace GLHeader

open GLHeader.Xml

/-- Remarks are put between the nodes of a content and into its texts, at any depth. Whether one may stand
at a point is decided by the place, by whether the texts there are hidden already, and by what follows. -/
inductive Inserted (allowed : Place → Bool → List Node → Prop) : Place → Bool → List Node → List Node → Prop
  | nil {p : Place} {hidden : Bool} : Inserted allowed p hidden [] []
  | between {p : Place} {hidden : Bool} {nodes others : List Node} {m : Node} (remark : m.IsRemark)
    (here : allowed p hidden nodes) (rest : Inserted allowed p hidden nodes others) :
    Inserted allowed p hidden nodes (m :: others)
  | within {p : Place} {hidden : Bool} {nodes others : List Node} {m : Node} {s t : String} (remark : m.IsRemark)
    (here : allowed p hidden (.text t :: nodes)) (rest : Inserted allowed p hidden (.text t :: nodes) others) :
    Inserted allowed p hidden (.text (s ++ t) :: nodes) (.text s :: m :: others)
  | remark {p : Place} {hidden : Bool} {nodes others : List Node} {m : Node} (remark : m.IsRemark)
    (rest : Inserted allowed p true nodes others) : Inserted allowed p hidden (m :: nodes) (m :: others)
  | text {p : Place} {hidden : Bool} {nodes others : List Node} {s : String}
    (rest : Inserted allowed p hidden nodes others) : Inserted allowed p hidden (.text s :: nodes) (.text s :: others)
  | element {p : Place} {hidden : Bool} {nodes others children children' : List Node} {name : String}
    {attributes : List Attribute} (inner : Inserted allowed (p.inside name) false children children')
    (rest : Inserted allowed (p.after name) false nodes others) :
    Inserted allowed p hidden (.element name attributes children :: nodes)
      (.element name attributes children' :: others)

def Anywhere (_ : Place) (_ : Bool) (_ : List Node) : Prop := True

/-- No text that is read follows, unless it is hidden already. -/
def Harmless (p : Place) (hidden : Bool) (rest : List Node) : Prop :=
  p.readsText = true → hidden = true ∨ rest.head?.bind Node.toText? = none

section Shown

variable {p : Place}

theorem shown_of_unread (unread : p.readsText = false) (nodes : List Node) :
    shown p true nodes = shown p false nodes := by
  induction nodes with
  | nil => rfl
  | cons n rest ih =>
    cases n with
    | element => rfl
    | text s => rw [shown_text_of_unread (.inl unread), shown_text_of_unread (.inl unread), ih]
    | comment => rfl
    | instruction => rfl

theorem shown_of_start {nodes : List Node} (start : nodes.head?.bind Node.toText? = none) :
    shown p true nodes = shown p false nodes := by
  cases nodes with
  | nil => rfl
  | cons n rest =>
    cases n with
    | text s => cases start
    | element | comment | instruction => rfl

section Inserted

variable {allowed : Place → Bool → List Node → Prop} {hidden : Bool} {nodes others : List Node}

theorem Inserted.start (inserted : Inserted allowed p hidden nodes others)
    (start : nodes.head?.bind Node.toText? = none) : others.head?.bind Node.toText? = none := by
  have none {m : Node} (remark : m.IsRemark) : m.toText? = none := by
    cases m with
    | text | element => cases remark
    | comment | instruction => rfl
  cases inserted with
  | nil | element => rfl
  | between remark | remark remark => exact none remark
  | within | text => cases start

theorem Inserted.shown_eq (inserted : Inserted allowed p hidden nodes others) (here : Harmless p hidden nodes) :
    shown p true others = shown p hidden others := by
  cases hidden with
  | true => rfl
  | false =>
    cases reads : p.readsText with
    | false => exact shown_of_unread reads others
    | true =>
      rcases here reads with hides | start
      · cases hides
      · exact shown_of_start (inserted.start start)

theorem shown_of_harmless (inserted : Inserted Harmless p hidden nodes others) :
    shown p hidden others = shown p hidden nodes := by
  induction inserted with
  | nil => rfl
  | between remark here rest ih => rw [shown_remark remark, rest.shown_eq here, ih]
  | @within p hidden nodes others m s t remark here rest ih =>
    have unread : p.readsText = false ∨ hidden = true := by
      cases reads : p.readsText with
      | false => exact .inl rfl
      | true =>
        rcases here reads with hides | start
        · exact .inr hides
        · cases start
    rw [shown_text_of_unread unread, shown_remark remark, rest.shown_eq here, ih, shown_text_of_unread unread,
      shown_text_of_unread unread]
  | remark remark rest ih => rw [shown_remark remark, shown_remark remark, ih]
  | text rest ih => rw [shown, shown, ih]
  | element inner rest inside later => rw [shown_element, shown_element, Element.shown, Element.shown, inside, later]

end Inserted

end Shown

namespace Surface

/-- A document gives what it gives without its remarks and the texts behind them; and it gives the same with
more remarks in it that are put where they hide no text that is read. -/
theorem surface_of_remarks (root : Element) (children : List Node) (target : Target) :
    ofRoot { root with children } target = ofRoot { root with children := shown .root false children } target ∧
      (Inserted Harmless .root false root.children children →
        ofRoot { root with children } target = ofRoot root target ∧
          ∀ first second, Xml.read? first = some root → Xml.read? second = some { root with children } →
            ofDocument second target = ofDocument first target) := by
  have shows (nodes : List Node) : ofRoot { root with children := nodes } target =
      ofRoot { root with children := shown .root false nodes } target :=
    (ofRoot_shown { root with children := nodes } target).symm
  refine ⟨shows children, fun inserted => ?_⟩
  have same : ofRoot { root with children } target = ofRoot root target := by
    rw [shows, shown_of_harmless inserted, ← shows]
  refine ⟨same, fun first second read read' => ?_⟩
  rw [ofDocument_of_read read, ofDocument_of_read read', same]

/-- Remarks in the white space between groups, before a prototype, between the type and the name of a
parameter, after that name and at the end of it. -/
theorem surface_of_remarks_unread :
    let name (text : String) : Node := .element "name" [] [.text text]
    let prototype : Node := .element "proto" [] [.text "void ", name "f"]
    let root : Element := ⟨"registry", [], [.text ("\n" ++ "\n"), .element "commands" [] [.element "command" [] [
      prototype, .element "param" [] [.text "const void *", name "p", .text "[4]"]]]]⟩
    let children : List Node := [.text "\n", .comment, .text "\n", .element "commands" [] [.element "command" [] [
      .instruction, prototype, .element "param" [] [.text "const void *", .comment,
        .element "name" [] [.text "p", .comment], .comment, .text "[4]"]]]]
    Inserted Harmless .root false root.children children ∧
      ofRoot { root with children } ⟨"gl", "1.0", "core"⟩ = ofRoot root ⟨"gl", "1.0", "core"⟩ := by
  intro name prototype root children
  have unread {p : Place} {hidden : Bool} {rest : List Node} (h : p.readsText = false) : Harmless p hidden rest :=
    fun reads => by cases h.symm.trans reads
  have before {p : Place} {hidden : Bool} {rest : List Node} (h : rest.head?.bind Node.toText? = none) :
      Harmless p hidden rest := fun _ => .inr h
  have whole : Inserted Harmless .typed false [.text "void ", name "f"] [.text "void ", name "f"] :=
    .text (.element (.text .nil) .nil)
  have parameter : Inserted Harmless .typed false [.text "const void *", name "p", .text "[4]"]
      [.text "const void *", .comment, .element "name" [] [.text "p", .comment], .comment, .text "[4]"] := by
    refine .text (.between trivial (before rfl) (.element ?_ ?_))
    · exact .text (.between trivial (before rfl) .nil)
    · exact .between trivial (unread rfl) (.text .nil)
  have inserted : Inserted Harmless .root false root.children children := by
    refine .within trivial (unread rfl) (.text (.element (.element ?_ .nil) .nil))
    exact .between trivial (unread rfl) (.element whole (.element parameter .nil))
  exact ⟨inserted, ((surface_of_remarks root children _).2 inserted).1⟩

def typedParameter (type : List Node) : Element :=
  ⟨"registry", [], [
    .element "commands" [] [.element "command" [] [
      .element "proto" [] [.text "void ", .element "name" [] [.text "f"]],
      .element "param" [] (type ++ [.element "name" [] [.text "p"]])]],
    .element "feature" [⟨none, "api", "gl"⟩, ⟨none, "number", "1.0"⟩, ⟨none, "name", "GL_1_0"⟩]
      [.element "require" [] [.element "command" [⟨none, "name", "f"⟩] []]]]⟩

/-- A comment in the middle of a type takes away what follows of it. -/
theorem comment_cuts_type :
    ¬ ∀ (root : Element) (children : List Node) (target : Target),
      Inserted Anywhere .root false root.children children →
        ofRoot { root with children } target = ofRoot root target := by
  intro claimed
  have inserted : Inserted Anywhere .root false (typedParameter [.text ("const " ++ "void *")]).children
      (typedParameter [.text "const ", .comment, .text "void *"]).children := by
    refine .element (.element (.element ?_ (.element ?_ .nil)) .nil)
      (.element (.element (.element .nil .nil) .nil) .nil)
    · exact .text (.element (.text .nil) .nil)
    · exact .within trivial trivial (.text (.element (.text .nil) .nil))
  have differ : ofRoot (typedParameter [.text "const ", .comment, .text "void *"]) ⟨"gl", "1.0", "core"⟩ ≠
      ofRoot (typedParameter [.text ("const " ++ "void *")]) ⟨"gl", "1.0", "core"⟩ := by decide +kernel
  exact differ (claimed _ _ _ inserted)

end Surface

end GLHeader
