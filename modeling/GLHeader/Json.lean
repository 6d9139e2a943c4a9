import GLHeader.Text.Hex

namespace GLHeader

inductive Json where
  | string (value : String)
  | boolean (value : Bool)
  | list (items : List Json)
  | record (members : List (String × Json))
deriving Repr, Inhabited

namespace Json

def escaped (c : Char) : List Char :=
  if c == '\x22' then ['\\', '\x22']
  else if c == '\\' then ['\\', '\\']
  else if c == '\x08' then ['\\', 'b']
  else if c == '\t' then ['\\', 't']
  else if c == '\n' then ['\\', 'n']
  else if c == '\x0C' then ['\\', 'f']
  else if c == '\r' then ['\\', 'r']
  else if c.toNat < 0x20 then ['\\', 'u', '0', '0'] ++ Text.hexByte c.toNat
  else [c]

def quoted (s : String) : String := "\"" ++ .ofList (s.toList.flatMap escaped) ++ "\""

def margin (depth : Nat) : String := "\n" ++ .ofList (List.replicate (2 * depth) ' ')

def enclosed (opening closing : String) (depth : Nat) (parts : List String) : String :=
  if parts.isEmpty then opening ++ closing
  else opening ++ margin (depth + 1) ++ ("," ++ margin (depth + 1)).intercalate parts ++
    margin depth ++ closing

mutual

def pretty (depth : Nat) : Json → String
  | .string value => quoted value
  | .boolean value => if value then "true" else "false"
  | .list items => enclosed "[" "]" depth (prettyItems (depth + 1) items)
  | .record members => enclosed "\x7b" "\x7d" depth (prettyMembers (depth + 1) members)

def prettyItems (depth : Nat) : List Json → List String
  | [] => []
  | item :: rest => pretty depth item :: prettyItems depth rest

def prettyMembers (depth : Nat) : List (String × Json) → List String
  | [] => []
  | (key, value) :: rest => (quoted key ++ ": " ++ pretty depth value) :: prettyMembers depth rest

end

end Json

end GLHeader
