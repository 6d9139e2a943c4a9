import GLHeader.Text.Cut

namespace GLHeader

open GLHeader.Text

structure Slot where
  lead : String
  name : String
deriving DecidableEq, Repr

structure Template where
  slots : List Slot
  last : String
  /-- What follows an opening mark that is never closed. -/
  unclosed : Option String
deriving DecidableEq, Repr

namespace Template

inductive Fault where
  | unknown (name : String)
  /-- The opening mark at that UTF-8 position is never closed. -/
  | unterminated (offset : Nat)
deriving DecidableEq, Repr

def openingMark : String := "\x7b_"

def closingMark : String := "_\x7d"

def ofChars (s : List Char) : Template :=
  match _ : cut openingMark.toList s with
  | none => ⟨[], .ofList s, none⟩
  | some (lead, inside) =>
    match _ : cut closingMark.toList inside with
    | none => ⟨[], .ofList lead, some (.ofList inside)⟩
    | some (name, rest) =>
      let later := ofChars rest
      { later with slots := ⟨.ofList lead, .ofList name⟩ :: later.slots }
termination_by s.length
decreasing_by
  have outer := length_of_cut ‹cut openingMark.toList s = some (lead, inside)›
  have inner := length_of_cut ‹cut closingMark.toList inside = some (name, rest)›
  have mark : openingMark.toList.length = 2 := rfl
  omega

def ofString (s : String) : Template := ofChars s.toList

def Slot.text (slot : Slot) : String := slot.lead ++ openingMark ++ slot.name ++ closingMark

def closedSize (t : Template) : Nat :=
  (String.join (t.slots.map Slot.text) ++ t.last).utf8ByteSize

/-- Puts a value in the place of a placeholder; of several values for its name the first counts. -/
def fillSlot (values : List (String × String)) (slot : Slot) : Except Fault String :=
  match values.lookup slot.name with
  | some value => .ok (slot.lead ++ value)
  | none => .error (.unknown slot.name)

def fill (t : Template) (values : List (String × String)) : Except Fault String := do
  let filled ← t.slots.mapM (fillSlot values)
  match t.unclosed with
  | none => return String.join filled ++ t.last
  | some _ => .error (.unterminated t.closedSize)

end Template

def fillTemplate (template : String) (values : List (String × String)) :
    Except Template.Fault String :=
  (Template.ofString template).fill values

end GLHeader
