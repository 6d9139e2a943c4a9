import GLHeader.SymbolCheck
import GLHeader.Text.Hex
import GLHeader.Text.Lines

namespace GLHeader

structure Tally where
  features : Nat
  constants : Nat
  commands : Nat
deriving DecidableEq, Repr

def Surface.tally (s : Surface) : Tally := ⟨s.features.length, s.constantTotal, s.commandTotal⟩

def Tally.text (t : Tally) : String :=
  "features=" ++ toString t.features ++ " constants=" ++ toString t.constants ++
    " commands=" ++ toString t.commands

inductive LogEntry where
  | surfaceBuilt (target : Target) (tally : Tally)
  | fileWritten (path : String) (bytes : Nat)
  | symbolsMissing (check : FeatureCheck)
  | symbolsChecked (found missing : Nat) (complete : Bool)
  | headerMade (output version profile : String) (tally : Tally)
deriving DecidableEq, Repr

namespace LogEntry

/-- A character of a message. Bell, backspace, form feed, escape, delete and the control characters
    from U+0080 on are written as their numbers. -/
def visible (c : Char) : List Char :=
  if ['\x07', '\x08', '\x0C', '\x1B', '\x7F'].contains c then ['\\', 'x'] ++ Text.hexByte c.toNat
  else if 0x80 ≤ c.toNat && c.toNat ≤ 0x9F then
    ['\\', 'u', '\x7B'] ++ Text.hexByte c.toNat ++ ['\x7D']
  else [c]

def message (s : String) : String := .ofList (s.toList.flatMap visible)

/-- The text of an entry, in which a name with a line feed begins another line. -/
def text : LogEntry → String
  | .surfaceBuilt target tally =>
    "INFO glapi::surface: Built binding surface api=" ++ target.api ++ " version=" ++
      target.version ++ " profile=" ++ target.profile ++ " " ++ tally.text
  | .fileWritten path bytes => "INFO glapi: Wrote output path=" ++ path ++ " bytes=" ++ toString bytes
  | .symbolsMissing check =>
    "INFO glapi: " ++ message ("Missing: " ++ ", ".intercalate check.missing) ++ " feature=" ++
      check.name ++ " resolved=" ++ toString check.found.length
  | .symbolsChecked found missing complete =>
    "INFO glapi: Symbol check finished resolved=" ++ toString found ++ " missing=" ++
      toString missing ++ " complete=" ++ toString complete
  | .headerMade output version profile tally =>
    "INFO glapi: Generated loader output=" ++ output ++ " version=" ++ version ++ " profile=" ++
      profile ++ " " ++ tally.text

def line (entry : LogEntry) : String := Text.firstLine entry.text

end LogEntry

end GLHeader
