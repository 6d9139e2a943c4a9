import GLHeader.Header.Region
import GLHeader.Surface

namespace GLHeader.Header

open GLHeader.Text

inductive Spelling where
  | short
  | full
deriving DecidableEq, Repr

def Spelling.of : Spelling → TypeText → String
  | .short, type => type.short
  | .full, type => type.full

structure Options where
  pointerPrefix : String := "glapi_"
  lookupFunction : String := "load"
  spelling : Spelling := .short
deriving DecidableEq, Repr

structure Sections where
  versions : String
  types : String
  declarations : String
  definitions : String
  loads : String
deriving DecidableEq, Repr

def procedureType (command : String) : String := "PFN" ++ command.toUpper ++ "PROC"

def Options.pointer (o : Options) (command : String) : String := o.pointerPrefix ++ command

def Options.parameter (o : Options) (p : Parameter) : String :=
  o.spelling.of p.type ++ " " ++ p.name

def Options.parameterText (o : Options) (parameters : List Parameter) : String :=
  if parameters.isEmpty then "void" else ", ".intercalate (parameters.map o.parameter)

def Options.typedefLine (o : Options) (c : Command) : String :=
  "typedef " ++ o.spelling.of c.signature.result ++ " (APIENTRYP " ++ procedureType c.name ++
    ")(" ++ o.parameterText c.signature.parameters ++ ");"

def Options.externLine (o : Options) (c : Command) : String :=
  "extern " ++ procedureType c.name ++ " " ++ o.pointer c.name ++ ";"

def Options.redirectLine (o : Options) (c : Command) : String :=
  Region.directive 2 ("define " ++ c.name ++ " " ++ o.pointer c.name)

def Options.declarationLines (o : Options) (c : Command) : List String :=
  [o.typedefLine c, o.externLine c, o.redirectLine c]

def Options.definitionLine (o : Options) (c : Command) : String :=
  procedureType c.name ++ " " ++ o.pointer c.name ++ ";"

def Options.loadLine (o : Options) (c : Command) : String :=
  "\t" ++ o.pointer c.name ++ " = (" ++ procedureType c.name ++ ") " ++ o.lookupFunction ++ "(\"" ++
    c.name ++ "\");"

def constantLine (c : Constant) : String :=
  Region.directive 2 ("define " ++ c.name ++ " " ++ c.value)

def versionLine (f : Feature) : String := Region.directive 1 ("define " ++ f.name)

def constantRegion (f : Feature) : Region := ⟨f.name, 1, f.constants.map constantLine⟩

def Options.declarationRegion (o : Options) (f : Feature) : Region :=
  ⟨f.name, 1, [""].intercalate (f.commands.map o.declarationLines)⟩

def Options.definitionRegion (o : Options) (f : Feature) : Region :=
  ⟨f.name, 2, f.commands.map o.definitionLine⟩

def Options.loadRegion (o : Options) (f : Feature) : Region :=
  ⟨f.name, 1, f.commands.map o.loadLine⟩

def constantText (features : List Feature) : String := regionText (features.map constantRegion)

def Options.commandText (o : Options) (features : List Feature) : String :=
  regionText (features.map o.declarationRegion)

def versionText (features : List Feature) : String :=
  "\n".intercalate (features.map versionLine)

/-- The sections of a surface; a blank line separates constants from commands. -/
def sections (s : Surface) (o : Options) : Sections where
  versions := versionText s.features
  types := "\n".intercalate s.types
  declarations := constantText s.features ++ "\n" ++ o.commandText s.features
  definitions := regionText (s.features.map o.definitionRegion)
  loads := regionText (s.features.map o.loadRegion)

end GLHeader.Header
