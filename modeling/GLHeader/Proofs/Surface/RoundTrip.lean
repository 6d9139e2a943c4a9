import GLHeader.Proofs.Json.Reader
import GLHeader.Surface.Dump

namespace GLHeader

namespace Json

def string? : Json → Option String
  | .string s => some s
  | _ => none

def boolean? : Json → Option Bool
  | .boolean b => some b
  | _ => none

def items? : Json → Option (List Json)
  | .list items => some items
  | _ => none

def member? (name : String) : Json → Option Json
  | .record members => members.lookup name
  | _ => none

def text? (name : String) (v : Json) : Option String := (v.member? name).bind string?

def list? {α : Type} (read? : Json → Option α) (name : String) (v : Json) : Option (List α) :=
  ((v.member? name).bind items?).bind (List.mapM read?)

theorem list?_map {α : Type} {read? : Json → Option α} {write : α → Json} {name : String} {v : Json} {xs : List α}
    (found : v.member? name = some (.list (xs.map write))) (reads : ∀ x, read? (write x) = some x) :
    v.list? read? name = some xs := by
  have all : (xs.map write).mapM read? = some (xs.map id) := mapM_map_of_some fun x _ => reads x
  rw [list?, found, Option.bind_some, items?, Option.bind_some, all, List.map_id]

end Json

def Parameter.ofJson? (v : Json) : Option Parameter := do
  return ⟨⟨← v.text? "ty", ← v.text? "declared_ty"⟩, ← v.text? "name"⟩

def Signature.ofJson? (v : Json) : Option Signature := do
  return ⟨⟨← v.text? "return_type", ← v.text? "declared_return_type"⟩, ← v.list? Parameter.ofJson? "params"⟩

def Constant.ofJson? (v : Json) : Option Constant := do
  return ⟨← v.text? "name", ← v.text? "value"⟩

def Command.ofJson? (v : Json) : Option Command := do
  return ⟨← v.text? "name", ← (v.member? "signature").bind Signature.ofJson?⟩

def Feature.ofJson? (v : Json) : Option Feature := do
  return ⟨← v.text? "version", ← v.text? "name", ← v.list? Constant.ofJson? "constants",
    ← v.list? Command.ofJson? "commands"⟩

def Surface.ofJson? (v : Json) : Option Surface := do
  return ⟨⟨← v.text? "api", ← v.text? "version", ← v.text? "profile"⟩, ← v.list? Json.string? "types",
    ← v.list? Feature.ofJson? "features", ← (v.member? "version_matched").bind Json.boolean?⟩

def Surface.read? (text : String) : Option Surface := (Json.read? text).bind ofJson?

theorem Parameter.ofJson?_toJson (p : Parameter) : ofJson? p.toJson = some p := rfl

theorem Signature.ofJson?_toJson (s : Signature) : ofJson? s.toJson = some s := by
  have parameters : s.toJson.list? Parameter.ofJson? "params" = some s.parameters :=
    Json.list?_map rfl Parameter.ofJson?_toJson
  rw [ofJson?, parameters]
  rfl

theorem Constant.ofJson?_toJson (c : Constant) : ofJson? c.toJson = some c := rfl

theorem Command.ofJson?_toJson (c : Command) : ofJson? c.toJson = some c := by
  have signature : (c.toJson.member? "signature").bind Signature.ofJson? = some c.signature :=
    Signature.ofJson?_toJson c.signature
  rw [ofJson?, signature]
  rfl

theorem Feature.ofJson?_toJson (f : Feature) : ofJson? f.toJson = some f := by
  have constants : f.toJson.list? Constant.ofJson? "constants" = some f.constants :=
    Json.list?_map rfl Constant.ofJson?_toJson
  have commands : f.toJson.list? Command.ofJson? "commands" = some f.commands :=
    Json.list?_map rfl Command.ofJson?_toJson
  rw [ofJson?, constants, commands]
  rfl

theorem Surface.ofJson?_toJson (s : Surface) : ofJson? s.toJson = some s := by
  have types : s.toJson.list? Json.string? "types" = some s.types := Json.list?_map rfl fun _ => rfl
  have features : s.toJson.list? Feature.ofJson? "features" = some s.features :=
    Json.list?_map rfl Feature.ofJson?_toJson
  rw [ofJson?, types, features]
  rfl

/-- From its dump a surface is read back whole: every text character by character, every list in its
order, the empty ones included. -/
theorem Surface.dump_lossless :
    (∀ s : Surface, read? s.dump = some s) ∧ Function.Injective Surface.dump := by
  have reads (s : Surface) : read? s.dump = some s := by
    rw [read?, dump, Json.read?_pretty, Option.bind_some, ofJson?_toJson]
  refine ⟨reads, fun s t same => ?_⟩
  have both : some s = some t := by rw [← reads s, ← reads t, same]
  exact Option.some.inj both

end GLHeader
