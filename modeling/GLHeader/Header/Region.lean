import GLHeader.Text.Lines

namespace GLHeader.Header

open GLHeader.Text

structure Region where
  guardName : String
  depth : Nat
  body : List String
deriving DecidableEq, Repr

namespace Region

def directive (depth : Nat) (wording : String) : String :=
  "#" ++ .ofList (List.replicate depth ' ') ++ wording

def opening (r : Region) : String := directive r.depth ("if defined (" ++ r.guardName ++ ")")

def closing (r : Region) : String := directive r.depth ("endif /* " ++ r.guardName ++ " */")

def lines (r : Region) : List String := r.opening :: r.body ++ [r.closing]

end Region

def regionText (regions : List Region) : String := unlines (regions.flatMap Region.lines)

theorem regionText_append (first second : List Region) :
    regionText (first ++ second) = regionText first ++ regionText second := by
  simp [regionText]

end GLHeader.Header
