import GLHeader.Surface

namespace GLHeader

structure FeatureCheck where
  name : String
  found : List String
  missing : List String
deriving DecidableEq, Repr

abbrev SymbolCheck := List FeatureCheck

def Surface.check (s : Surface) (isFound : String → Bool) : SymbolCheck :=
  s.features.map fun feature =>
    let (found, missing) := (feature.commands.map Command.name).partition isFound
    ⟨feature.name, found, missing⟩

namespace SymbolCheck

def foundTotal (check : SymbolCheck) : Nat := (check.map (·.found.length)).foldr (· + ·) 0

def missingTotal (check : SymbolCheck) : Nat := (check.map (·.missing.length)).foldr (· + ·) 0

def findsAll (check : SymbolCheck) : Bool := check.missingTotal == 0

end SymbolCheck

structure Library where
  exported : List String
deriving DecidableEq, Repr

def Library.isFound (library : Library) (name : String) : Bool :=
  name != "" && !name.toList.contains '\x00' && library.exported.contains name

end GLHeader
