namespace GLHeader.Text

/-- The Unicode property `White_Space`. -/
def isBlank (c : Char) : Bool :=
  let n := c.toNat
  (0x9 ≤ n && n ≤ 0xD) || n == 0x20 || n == 0x85 || n == 0xA0 || n == 0x1680 ||
    (0x2000 ≤ n && n ≤ 0x200A) || n == 0x2028 || n == 0x2029 || n == 0x202F || n == 0x205F ||
    n == 0x3000

def trimEnd (s : String) : String := .ofList (s.toList.reverse.dropWhile isBlank).reverse

def trim (s : String) : String := .ofList ((trimEnd s).toList.dropWhile isBlank)

/-- The maximal runs of characters that are not blank. -/
def words (s : String) : List String :=
  ((s.toList.splitOnP isBlank).filter (!·.isEmpty)).map String.ofList

def collapse (s : String) : String := " ".intercalate (words s)

end GLHeader.Text
