namespace GLHeader.Files

def parts (path : String) : List String := (path.toList.splitOn '/').map String.ofList

def isStep (part : String) : Bool := part != "" && part != "."

/-- The last part that leads anywhere, unless that is the parent. -/
def fileName? (path : String) : Option String :=
  ((parts path).filter isStep).getLast?.filter (· != "..")

def parent (path : String) : String :=
  let before := ((parts path).reverse.dropWhile (!isStep ·)).drop 1
  "/".intercalate (before.dropWhile (!isStep ·)).reverse

def join (directory name : String) : String :=
  if directory == "" || directory.toList.getLast? == some '/' then directory ++ name
  else directory ++ "/" ++ name

end GLHeader.Files
