namespace GLHeader.Text

def hexDigit (n : Nat) : Char := if n < 10 then .ofNat (n + 0x30) else .ofNat (n + 0x57)

def hexByte (n : Nat) : List Char := [hexDigit (n / 16), hexDigit (n % 16)]

end GLHeader.Text
