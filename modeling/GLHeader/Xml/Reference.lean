import GLHeader.Text.Cut
import GLHeader.Xml.Character

namespace GLHeader.Xml

open GLHeader.Text

inductive Piece where
  | plain (c : Char)
  | referred (c : Char)
deriving DecidableEq, Repr

def digit? (base : Nat) (c : Char) : Option Nat :=
  let value :=
    if '0' ≤ c ∧ c ≤ '9' then c.toNat - '0'.toNat
    else if 'a' ≤ c ∧ c ≤ 'f' then c.toNat - 'a'.toNat + 10
    else if 'A' ≤ c ∧ c ≤ 'F' then c.toNat - 'A'.toNat + 10
    else base
  if value < base then some value else none

def numeral? (base : Nat) (digits : List Char) : Option Nat :=
  if digits.isEmpty then none
  else (digits.mapM (digit? base)).map (List.foldl (fun value digit => value * base + digit) 0)

def numbered? (n : Nat) : Option Char :=
  if n < UInt32.size then
    let c := if n.isValidChar then Char.ofNat n else '\uFFFD'
    if isAllowed c then some c else none
  else none

def reference? : List Char → Option Char
  | '#' :: 'x' :: digits => numeral? 16 digits >>= numbered?
  | '#' :: digits => numeral? 10 digits >>= numbered?
  | name =>
    [("lt".toList, '<'), ("gt".toList, '>'), ("amp".toList, '&'), ("apos".toList, '\x27'),
      ("quot".toList, '\x22')].lookup name

def afterAmpersand? (written : List Char) : Option (List Piece) := do
  let (body, rest) ← cut [';'] written
  let c ← reference? body
  return .referred c :: rest.map .plain

def pieces? (written : List Char) : Option (List Piece) := do
  match written.splitOn '&' with
  | [] => return []
  | start :: others => return start.map .plain ++ (← others.mapM afterAmpersand?).flatten

/-- Text with its line ends as line feeds. A carriage return directly before a reference stays, and
    so does one that stands alone between a reference and the end of the text. -/
def unifyLineEnds (afterReference : Bool) : List Piece → List Char
  | [] => []
  | .referred c :: rest => c :: unifyLineEnds true rest
  | [.plain '\r'] => [if afterReference then '\r' else '\n']
  | .plain '\r' :: .referred c :: rest => '\r' :: c :: unifyLineEnds true rest
  | .plain '\r' :: .plain '\n' :: rest => '\n' :: unifyLineEnds false rest
  | .plain '\r' :: rest => '\n' :: unifyLineEnds false rest
  | .plain c :: rest => c :: unifyLineEnds false rest

def flattenValue : List Piece → List Char
  | [] => []
  | .referred c :: rest => c :: flattenValue rest
  | .plain '\r' :: .plain '\n' :: rest => ' ' :: flattenValue rest
  | .plain c :: rest => (if isSpace c then ' ' else c) :: flattenValue rest

def textContent? (written : List Char) : Option String := do
  return .ofList (unifyLineEnds false (← pieces? written))

def literalContent (written : List Char) : String :=
  .ofList (unifyLineEnds false (written.map .plain))

def valueContent? (written : List Char) : Option String := do
  return .ofList (flattenValue (← pieces? written))

end GLHeader.Xml
