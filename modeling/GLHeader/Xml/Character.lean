namespace GLHeader.Xml

def inIntervals (intervals : List (Nat × Nat)) (c : Char) : Bool :=
  intervals.any fun (low, high) => low ≤ c.toNat && c.toNat ≤ high

def isSpace (c : Char) : Bool := c == ' ' || c == '\t' || c == '\r' || c == '\n'

/-- The characters a document may hold, as themselves or by reference. -/
def isAllowed (c : Char) : Bool :=
  isSpace c || (0x20 ≤ c.toNat && c.toNat != 0xFFFE && c.toNat != 0xFFFF)

def nameStartIntervals : List (Nat × Nat) :=
  [(0x3A, 0x3A), (0x41, 0x5A), (0x5F, 0x5F), (0x61, 0x7A), (0xC0, 0xD6), (0xD8, 0xF6),
    (0xF8, 0x2FF), (0x370, 0x37D), (0x37F, 0x1FFF), (0x200C, 0x200D), (0x2070, 0x218F),
    (0x2C00, 0x2FEF), (0x3001, 0xD7FF), (0xF900, 0xFDCF), (0xFDF0, 0xFFFD), (0x10000, 0xEFFFF)]

def isNameStart (c : Char) : Bool := inIntervals nameStartIntervals c

def isNameChar (c : Char) : Bool :=
  isNameStart c ||
    inIntervals [(0x2D, 0x2E), (0x30, 0x39), (0xB7, 0xB7), (0x300, 0x36F), (0x203F, 0x2040)] c

end GLHeader.Xml
