import GLHeader.Text.Cut

namespace GLHeader.Text

def unlines (lines : List String) : String := String.join (lines.map (· ++ "\n"))

@[simp] theorem unlines_append (first second : List String) :
    unlines (first ++ second) = unlines first ++ unlines second := by
  simp [unlines]

def firstLine (s : String) : String :=
  match cut ['\n'] s.toList with
  | none => s
  | some (line, _) => .ofList (if line.getLast? == some '\r' then line.dropLast else line)

end GLHeader.Text
