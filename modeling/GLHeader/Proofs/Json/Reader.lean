import GLHeader.Proofs.Json.Tokens

namespace GLHeader.Json

inductive Open where
  | list (items : List Json)
  | record (members : List (String × Json)) (name : String)

inductive Progress where
  | value (around : List Open)
  | key (members : List (String × Json)) (around : List Open)
  | colon (members : List (String × Json)) (name : String) (around : List Open)
  | read (value : Json) (around : List Open)

def Progress.step? : Progress → Token → Option Progress
  | .value around, .string s => some (.read (.string s) around)
  | .value around, .boolean b => some (.read (.boolean b) around)
  | .value around, .listStart => some (.value (.list [] :: around))
  | .value around, .recordStart => some (.key [] around)
  | .value (.list [] :: around), .listEnd => some (.read (.list []) around)
  | .key [] around, .recordEnd => some (.read (.record []) around)
  | .key members around, .string name => some (.colon members name around)
  | .colon members name around, .colon => some (.value (.record members name :: around))
  | .read v (.list items :: around), .comma => some (.value (.list (items ++ [v]) :: around))
  | .read v (.list items :: around), .listEnd => some (.read (.list (items ++ [v])) around)
  | .read v (.record members name :: around), .comma => some (.key (members ++ [(name, v)]) around)
  | .read v (.record members name :: around), .recordEnd =>
    some (.read (.record (members ++ [(name, v)])) around)
  | _, _ => none

def ofTokens? (ts : List Token) : Option Json :=
  match ts.foldlM Progress.step? (.value []) with
  | some (.read v []) => some v
  | _ => none

def read? (text : String) : Option Json := (tokens? text).bind ofTokens?

/-- Where a value must come, these tokens give this one. -/
def Gives (v : Json) : Prop :=
  ∀ around, (tokens v).foldlM Progress.step? (.value around) = some (.read v around)

structure Enclosure (α : Type) where
  last : Token
  ahead : List α → Progress
  behind : List α → α → Progress
  finished : List α → Progress
  comma : ∀ before x, (behind before x).step? .comma = some (ahead (before ++ [x]))
  closes : ∀ before x, (behind before x).step? last = some (finished (before ++ [x]))
  empty : (ahead []).step? last = some (finished [])

def Enclosure.ofItems (around : List Open) : Enclosure Json where
  last := .listEnd
  ahead before := .value (.list before :: around)
  behind before v := .read v (.list before :: around)
  finished items := .read (.list items) around
  comma _ _ := rfl
  closes _ _ := rfl
  empty := rfl

def Enclosure.ofMembers (around : List Open) : Enclosure (String × Json) where
  last := .recordEnd
  ahead before := .key before around
  behind before m := .read m.2 (.record before m.1 :: around)
  finished members := .read (.record members) around
  comma _ _ := rfl
  closes _ _ := rfl
  empty := rfl

section Parts

variable {α : Type} (e : Enclosure α) {parts : α → List Token}

theorem Enclosure.foldlM_parts {xs : List α} (given : xs ≠ [])
    (each : ∀ x ∈ xs, ∀ before, (parts x).foldlM Progress.step? (e.ahead before) = some (e.behind before x))
    (before : List α) :
    ([Token.comma].intercalate (xs.map parts) ++ [e.last]).foldlM Progress.step? (e.ahead before) =
      some (e.finished (before ++ xs)) := by
  induction xs generalizing before with
  | nil => exact absurd rfl given
  | cons x xs ih =>
    obtain ⟨first, later⟩ := List.forall_mem_cons.mp each
    cases xs with
    | nil => simp [List.foldlM_append, first before, e.closes]
    | cons next xs =>
      have rest := ih (List.cons_ne_nil _ _) later (before ++ [x])
      simp only [List.map_cons] at rest ⊢
      rw [List.intercalate_cons_cons, List.append_assoc, List.append_assoc, foldlM_append_of_some (first before),
        List.singleton_append, foldlM_cons_of_some (e.comma before x), rest, List.append_assoc]
      rfl

theorem Enclosure.foldlM_all {xs : List α}
    (each : ∀ x ∈ xs, ∀ before, (parts x).foldlM Progress.step? (e.ahead before) = some (e.behind before x)) :
    ([Token.comma].intercalate (xs.map parts) ++ [e.last]).foldlM Progress.step? (e.ahead []) =
      some (e.finished xs) := by
  by_cases given : xs = []
  · subst given
    simp [e.empty]
  · exact e.foldlM_parts given each []

end Parts

theorem foldlM_member {v : Json} (gives : Gives v) (name : String) (before : List (String × Json))
    (around : List Open) :
    (Token.string name :: .colon :: tokens v).foldlM Progress.step? (.key before around) =
      some (.read v (.record before name :: around)) := by
  have named : Progress.step? (.key before around) (.string name) = some (.colon before name around) := by
    cases before <;> rfl
  have colon : Progress.step? (.colon before name around) .colon =
      some (.value (.record before name :: around)) := rfl
  rw [foldlM_cons_of_some named, foldlM_cons_of_some colon, gives]

theorem gives_tokens (v : Json) : Gives v := by
  induction v using Json.induction with
  | string s =>
    intro around
    rfl
  | boolean b =>
    intro around
    rfl
  | list items ih =>
    intro around
    rw [tokens, itemTokens_eq, List.cons_append, List.foldlM_cons]
    exact (Enclosure.ofItems around).foldlM_all fun item member before => ih item member _
  | record members ih =>
    intro around
    rw [tokens, memberTokens_eq, List.cons_append, List.foldlM_cons]
    exact (Enclosure.ofMembers around).foldlM_all fun m member before =>
      foldlM_member (ih m member) m.1 before around

theorem read?_pretty (depth : Nat) (v : Json) : read? (pretty depth v) = some v := by
  rw [read?, tokens?_pretty, Option.bind_some, ofTokens?, gives_tokens]

end GLHeader.Json
