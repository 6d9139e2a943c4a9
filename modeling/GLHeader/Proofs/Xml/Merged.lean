import GLHeader.Proofs.Traversal
import GLHeader.Xml.Document
import Mathlib.Data.List.Chain

namespace GLHeader.Xml

def NotBothTexts (m n : Node) : Prop := m.toText? = none ∨ n.toText? = none

/-- No two texts stand next to each other, at any depth. -/
inductive Merged : List Node → Prop
  | intro {nodes : List Node} (parted : nodes.IsChain NotBothTexts)
    (inner : ∀ e : Element, e.toNode ∈ nodes → Merged e.children) : Merged nodes

section Merged

variable {nodes : List Node}

theorem Merged.parted (h : Merged nodes) : nodes.IsChain NotBothTexts := by
  cases h
  assumption

theorem Merged.inner (h : Merged nodes) : ∀ e : Element, e.toNode ∈ nodes → Merged e.children := by
  cases h
  assumption

theorem merged_nil : Merged [] := .intro .nil (by simp)

theorem Merged.reverse (h : Merged nodes) : Merged nodes.reverse := by
  refine .intro ?_ fun e member => h.inner e (List.mem_reverse.mp member)
  exact List.isChain_reverse.mpr (h.parted.imp fun _ _ => Or.symm)

theorem Merged.tail {n : Node} (h : Merged (n :: nodes)) : Merged nodes :=
  .intro h.parted.tail fun e member => h.inner e (List.mem_cons_of_mem n member)

theorem Merged.cons {n : Node} (h : Merged nodes) (parted : ∀ m ∈ nodes.head?, NotBothTexts n m)
    (inner : ∀ e : Element, e.toNode = n → Merged e.children) : Merged (n :: nodes) := by
  refine .intro (List.isChain_cons.mpr ⟨parted, h.parted⟩) fun e member => ?_
  rcases List.mem_cons.mp member with here | later
  · exact inner e here
  · exact h.inner e later

theorem Merged.cons_text (h : Merged nodes) (parted : ∀ m ∈ nodes.head?, m.toText? = none) (s : String) :
    Merged (.text s :: nodes) := by
  refine h.cons (fun m start => .inr (parted m start)) fun e same => ?_
  cases same

theorem Merged.cons_remark (h : Merged nodes) {n : Node} (plain : n.toText? = none) (childless : n.toElement? = none) :
    Merged (n :: nodes) := by
  refine h.cons (fun _ _ => .inl plain) fun e same => ?_
  subst same
  cases childless

theorem Merged.cons_element (h : Merged nodes) {e : Element} (inner : Merged e.children) :
    Merged (e.toNode :: nodes) := by
  refine h.cons (fun _ _ => .inl rfl) fun other same => ?_
  have children : other.children = e.children := (Node.element.inj same).2.2
  rwa [children]

theorem Merged.head_after_text {s : String} (h : Merged (.text s :: nodes)) : ∀ m ∈ nodes.head?, m.toText? = none := by
  intro m start
  rcases (List.isChain_cons.mp h.parted).1 m start with absent | none
  · cases absent
  · exact none

theorem Merged.of_mem_elements {e child : Element} (h : Merged e.children) (member : child ∈ e.elements) :
    Merged child.children := by
  obtain ⟨n, inside, same⟩ := List.mem_filterMap.mp member
  cases n with
  | element name attributes children =>
    cases same
    exact h.inner _ inside
  | text | comment | instruction => cases same

end Merged

theorem merged_addText {o : Open} (h : Merged o.content) (s : String) : Merged (o.addText s).content := by
  rw [Open.addText]
  split
  · rename_i earlier rest same
    rw [same] at h
    exact h.tail.cons_text h.head_after_text _
  · rename_i other
    refine h.cons_text (fun m start => ?_) s
    cases m with
    | text earlier =>
      obtain ⟨rest, same⟩ := List.head?_eq_some_iff.mp start
      exact absurd same (other earlier rest)
    | element | comment | instruction => rfl

def Progress.IsMerged : Progress → Prop
  | .ahead => True
  | .inside current around => ∀ o ∈ current :: around, Merged o.content
  | .done root => Merged root.children

theorem isMerged_inside {current changed : Open} {around : List Open}
    (h : Progress.IsMerged (.inside current around)) (here : Merged changed.content) :
    Progress.IsMerged (.inside changed around) :=
  List.forall_mem_cons.mpr ⟨here, (List.forall_mem_cons.mp h).2⟩

theorem isMerged_place {o : Open} {around : List Open} (h : ∀ x ∈ o :: around, Merged x.content) :
    (Progress.place o.finish around).IsMerged := by
  obtain ⟨current, outer⟩ := List.forall_mem_cons.mp h
  have inner : Merged o.finish.children := current.reverse
  cases around with
  | nil => exact inner
  | cons parent around =>
    obtain ⟨first, later⟩ := List.forall_mem_cons.mp outer
    exact List.forall_mem_cons.mpr ⟨first.cons_element inner, later⟩

theorem merged_enter? {progress : Progress} {tag : QualifiedName} {attributes : List RawAttribute}
    {opened : Open × List Open} (entered : progress.enter? tag attributes = some opened) (h : progress.IsMerged) :
    ∀ o ∈ opened.1 :: opened.2, Merged o.content := by
  obtain ⟨parents, found, entered⟩ := Option.bind_eq_some_iff.mp entered
  obtain ⟨_, _, same⟩ := Option.bind_eq_some_iff.mp entered
  cases same
  refine List.forall_mem_cons.mpr ⟨merged_nil, ?_⟩
  cases progress with
  | ahead =>
    cases found
    simp
  | inside current around =>
    cases found
    exact h
  | done root => cases found

theorem isMerged_step? {progress next : Progress} {token : Token} (stepped : progress.step? token = some next)
    (h : progress.IsMerged) : next.IsMerged := by
  cases token with
  | opening tag attributes =>
    obtain ⟨opened, entered, same⟩ := Option.bind_eq_some_iff.mp stepped
    cases same
    exact merged_enter? entered h
  | whole tag attributes =>
    obtain ⟨opened, entered, same⟩ := Option.bind_eq_some_iff.mp stepped
    cases same
    exact isMerged_place (merged_enter? entered h)
  | closing tag =>
    cases progress with
    | inside current around =>
      rw [Progress.step?] at stepped
      split at stepped
      · cases stepped
        exact isMerged_place h
      · cases stepped
    | ahead | done => cases stepped
  | text written =>
    cases progress with
    | inside current around =>
      obtain ⟨content, _, same⟩ := Option.bind_eq_some_iff.mp stepped
      cases same
      exact isMerged_inside h (merged_addText (h current List.mem_cons_self) content)
    | ahead | done =>
      rw [Progress.step?] at stepped
      · split at stepped
        · cases stepped
          exact h
        · cases stepped
      · simp
  | literal written =>
    cases progress with
    | inside current around =>
      cases stepped
      exact isMerged_inside h (merged_addText (h current List.mem_cons_self) _)
    | ahead | done => cases stepped
  | comment | instruction =>
    cases progress with
    | inside current around =>
      cases stepped
      exact isMerged_inside h ((h current List.mem_cons_self).cons_remark rfl rfl)
    | ahead | done =>
      cases stepped
      exact h

theorem merged_read? {text : String} {root : Element} (read : read? text = some root) : Merged root.children := by
  obtain ⟨_, _, read⟩ := Option.bind_eq_some_iff.mp read
  obtain ⟨tokens, _, read⟩ := Option.bind_eq_some_iff.mp read
  obtain ⟨progress, run, ended⟩ := Option.bind_eq_some_iff.mp read
  have merged := foldlM_keeps (fun _ _ _ => isMerged_step?) run trivial
  cases progress with
  | done root' =>
    cases ended
    exact merged
  | ahead | inside => cases ended

end GLHeader.Xml
