import GLHeader.Json
import GLHeader.Proofs.Traversal
import Mathlib.Tactic.SplitIfs

namespace GLHeader.Json

inductive Token where
  | listStart
  | listEnd
  | recordStart
  | recordEnd
  | comma
  | colon
  | string (value : String)
  | boolean (value : Bool)
deriving DecidableEq, Repr

def mark? : Char → Option Token
  | '[' => some .listStart
  | ']' => some .listEnd
  | '\x7b' => some .recordStart
  | '\x7d' => some .recordEnd
  | ',' => some .comma
  | ':' => some .colon
  | _ => none

def isSpace (c : Char) : Bool := [' ', '\t', '\n', '\r'].contains c

def unescaped? : Char → Option Char
  | '\x22' => some '\x22'
  | '\\' => some '\\'
  | '/' => some '/'
  | 'b' => some '\x08'
  | 'f' => some '\x0C'
  | 'n' => some '\n'
  | 'r' => some '\r'
  | 't' => some '\t'
  | _ => none

def digit? (c : Char) : Option Nat :=
  if '0' ≤ c ∧ c ≤ '9' then some (c.toNat - 0x30)
  else if 'a' ≤ c ∧ c ≤ 'f' then some (c.toNat - 0x57)
  else if 'A' ≤ c ∧ c ≤ 'F' then some (c.toNat - 0x37)
  else none

/-- What has been read of a token: of a word the letters that must follow, of a string its characters. -/
inductive Partial where
  | nothing
  | word (left : List Char) (value : Bool)
  | string (read : List Char)
  | escape (read : List Char)
  | code (read : List Char) (digits : List Nat)
deriving DecidableEq, Repr

structure Scan where
  done : List Token
  current : Partial
deriving DecidableEq, Repr

namespace Scan

def finish (s : Scan) (token : Token) : Scan := ⟨s.done ++ [token], .nothing⟩

def start? (s : Scan) (c : Char) : Option Scan :=
  if isSpace c then some s
  else if c == '\x22' then some ⟨s.done, .string []⟩
  else if c == 't' then some ⟨s.done, .word "rue".toList true⟩
  else if c == 'f' then some ⟨s.done, .word "alse".toList false⟩
  else (mark? c).map s.finish

def coded? (s : Scan) (read : List Char) : List Nat → Option Scan
  | [a, b, c, d] =>
    let n := ((a * 16 + b) * 16 + c) * 16 + d
    if n.isValidChar then some ⟨s.done, .string (read ++ [.ofNat n])⟩ else none
  | digits => some ⟨s.done, .code read digits⟩

def step? (s : Scan) (c : Char) : Option Scan :=
  match s.current with
  | .nothing => s.start? c
  | .word [last] value => if c = last then some (s.finish (.boolean value)) else none
  | .word (next :: left) value => if c = next then some ⟨s.done, .word left value⟩ else none
  | .word [] _ => none
  | .string read =>
    if c == '\x22' then some (s.finish (.string (.ofList read)))
    else if c == '\\' then some ⟨s.done, .escape read⟩
    else if c.toNat < 0x20 then none
    else some ⟨s.done, .string (read ++ [c])⟩
  | .escape read =>
    if c == 'u' then some ⟨s.done, .code read []⟩
    else (unescaped? c).map fun d => ⟨s.done, .string (read ++ [d])⟩
  | .code read digits => (digit? c).bind fun digit => s.coded? read (digits ++ [digit])

end Scan

def tokens? (text : String) : Option (List Token) :=
  match text.toList.foldlM Scan.step? ⟨[], .nothing⟩ with
  | some ⟨done, .nothing⟩ => some done
  | _ => none

theorem induction {motive : Json → Prop} (string : ∀ s, motive (.string s))
    (boolean : ∀ b, motive (.boolean b)) (list : ∀ items, (∀ v ∈ items, motive v) → motive (.list items))
    (record : ∀ members : List (String × Json), (∀ m ∈ members, motive m.2) → motive (.record members))
    (v : Json) : motive v :=
  @Json.rec motive (fun items => ∀ v ∈ items, motive v) (fun members => ∀ m ∈ members, motive m.2)
    (fun m => motive m.2) string boolean list record (by simp)
    (fun _ _ first later => List.forall_mem_cons.mpr ⟨first, later⟩) (by simp)
    (fun _ _ first later => List.forall_mem_cons.mpr ⟨first, later⟩) (fun _ _ value => value) v

mutual

def tokens : Json → List Token
  | .string value => [.string value]
  | .boolean value => [.boolean value]
  | .list items => .listStart :: [Token.comma].intercalate (itemTokens items) ++ [.listEnd]
  | .record members => .recordStart :: [Token.comma].intercalate (memberTokens members) ++ [.recordEnd]

def itemTokens : List Json → List (List Token)
  | [] => []
  | item :: rest => tokens item :: itemTokens rest

def memberTokens : List (String × Json) → List (List Token)
  | [] => []
  | (key, value) :: rest => (.string key :: .colon :: tokens value) :: memberTokens rest

end

theorem itemTokens_eq (items : List Json) : itemTokens items = items.map tokens := by
  induction items with
  | nil => rfl
  | cons item rest ih => rw [itemTokens, ih, List.map_cons]

theorem memberTokens_eq (members : List (String × Json)) :
    memberTokens members = members.map fun m => .string m.1 :: .colon :: tokens m.2 := by
  induction members with
  | nil => rfl
  | cons m rest ih => rw [memberTokens, ih, List.map_cons]

theorem prettyItems_eq (depth : Nat) (items : List Json) :
    prettyItems depth items = items.map (pretty depth) := by
  induction items with
  | nil => rfl
  | cons item rest ih => rw [prettyItems, ih, List.map_cons]

theorem prettyMembers_eq (depth : Nat) (members : List (String × Json)) :
    prettyMembers depth members = members.map fun m => quoted m.1 ++ ": " ++ pretty depth m.2 := by
  induction members with
  | nil => rfl
  | cons m rest ih => rw [prettyMembers, ih, List.map_cons]

/-- Between tokens, reading the text adds these tokens. -/
def Scans (text : String) (ts : List Token) : Prop :=
  ∀ done, text.toList.foldlM Scan.step? ⟨done, .nothing⟩ = some ⟨done ++ ts, .nothing⟩

theorem Scans.append {s t : String} {ts us : List Token} (first : Scans s ts) (second : Scans t us) :
    Scans (s ++ t) (ts ++ us) := by
  intro done
  rw [String.toList_append, foldlM_append_of_some (first done), second, List.append_assoc]

theorem Scans.nil : Scans "" [] := by
  intro done
  rw [List.append_nil]
  rfl

theorem scans_mark {text : String} {c : Char} {token : Token} (single : text.toList = [c])
    (known : mark? c = some token) : Scans text [token] := by
  intro done
  have step : Scan.step? ⟨done, .nothing⟩ c = some ⟨done ++ [token], .nothing⟩ := by
    unfold mark? at known
    split at known <;> cases known <;> rfl
  rw [single, foldlM_cons_of_some step]
  rfl

theorem scans_spaces {text : String} (spaces : ∀ c ∈ text.toList, isSpace c = true) : Scans text [] := by
  intro done
  rw [List.append_nil]
  generalize text.toList = chars at spaces
  induction chars with
  | nil => rfl
  | cons c rest ih =>
    obtain ⟨first, later⟩ := List.forall_mem_cons.mp spaces
    have step : Scan.step? ⟨done, .nothing⟩ c = some ⟨done, .nothing⟩ := by
      rw [Scan.step?, Scan.start?, if_pos first]
    rw [foldlM_cons_of_some step]
    exact ih later

theorem scans_margin (depth : Nat) : Scans (margin depth) [] := by
  apply scans_spaces
  intro c member
  simp only [margin, String.toList_append, String.toList_ofList, List.mem_append] at member
  rcases member with feed | space
  · obtain rfl : c = '\n' := by simpa using feed
    rfl
  · rw [List.eq_of_mem_replicate space]
    rfl

theorem digit?_hexDigit : ∀ n < 16, digit? (Text.hexDigit n) = some n := by decide

theorem foldlM_code (done : List Token) (read : List Char) {n : Nat} (small : n < 0x20) :
    (['0', '0'] ++ Text.hexByte n).foldlM Scan.step? ⟨done, .code read []⟩ =
      some ⟨done, .string (read ++ [.ofNat n])⟩ := by
  have high := digit?_hexDigit (n / 16) (by omega)
  have low := digit?_hexDigit (n % 16) (by omega)
  have zero : digit? '0' = some 0 := rfl
  have whole : n / 16 * 16 + n % 16 = n := by omega
  have valid : n.isValidChar := .inl (by omega)
  simp [Text.hexByte, Scan.step?, Scan.coded?, zero, high, low, whole, valid]

theorem foldlM_escaped (done : List Token) (read : List Char) (c : Char) :
    (escaped c).foldlM Scan.step? ⟨done, .string read⟩ = some ⟨done, .string (read ++ [c])⟩ := by
  unfold escaped
  -- Seven characters are escaped by a letter or mark, the other controls by a code, the rest not at all.
  split_ifs with quote backslash backspace tab feed page carriage control
  · obtain rfl := eq_of_beq quote
    rfl
  · obtain rfl := eq_of_beq backslash
    rfl
  · obtain rfl := eq_of_beq backspace
    rfl
  · obtain rfl := eq_of_beq tab
    rfl
  · obtain rfl := eq_of_beq feed
    rfl
  · obtain rfl := eq_of_beq page
    rfl
  · obtain rfl := eq_of_beq carriage
    rfl
  · have code := foldlM_code done read control
    rw [Char.ofNat_toNat] at code
    exact code
  · simp [Scan.step?, quote, backslash, control]

theorem foldlM_escapedChars (done : List Token) (read cs : List Char) :
    (cs.flatMap escaped).foldlM Scan.step? ⟨done, .string read⟩ = some ⟨done, .string (read ++ cs)⟩ := by
  induction cs generalizing read with
  | nil => simp
  | cons c cs ih =>
    rw [List.flatMap_cons, foldlM_append_of_some (foldlM_escaped done read c), ih, List.append_assoc]
    rfl

theorem scans_quoted (s : String) : Scans (quoted s) [.string s] := by
  intro done
  have opens : Scan.step? ⟨done, .nothing⟩ '\x22' = some ⟨done, .string []⟩ := rfl
  have closes : Scan.step? ⟨done, .string s.toList⟩ '\x22' = some ⟨done ++ [.string s], .nothing⟩ := by
    simp [Scan.step?, Scan.finish, String.ofList_toList]
  have chars : (quoted s).toList = '\x22' :: (s.toList.flatMap escaped ++ ['\x22']) := by simp [quoted]
  rw [chars, foldlM_cons_of_some opens, foldlM_append_of_some (foldlM_escapedChars done [] s.toList),
    List.nil_append, foldlM_cons_of_some closes]
  rfl

theorem scans_intercalate {separator : String} {between : List Token} (separates : Scans separator between)
    {ι : Type} {text : ι → String} {ts : ι → List Token} {xs : List ι}
    (each : ∀ x ∈ xs, Scans (text x) (ts x)) :
    Scans (separator.intercalate (xs.map text)) (between.intercalate (xs.map ts)) := by
  induction xs with
  | nil => exact .nil
  | cons x xs ih =>
    obtain ⟨first, later⟩ := List.forall_mem_cons.mp each
    cases xs with
    | nil => simpa using first
    | cons next xs =>
      have rest := ih later
      simp only [List.map_cons] at rest ⊢
      rw [String.intercalate_cons_cons, List.intercalate_cons_cons]
      exact (first.append separates).append rest

theorem scans_enclosed {opening closing : String} {first last : Token} (opens : Scans opening [first])
    (closes : Scans closing [last]) (depth : Nat) {ι : Type} {text : ι → String} {ts : ι → List Token}
    {xs : List ι} (each : ∀ x ∈ xs, Scans (text x) (ts x)) :
    Scans (enclosed opening closing depth (xs.map text))
      (first :: [Token.comma].intercalate (xs.map ts) ++ [last]) := by
  -- Parts stand on lines of their own, but where there are none there is no line feed either.
  cases xs with
  | nil => exact opens.append closes
  | cons x xs =>
    have comma : Scans ("," ++ margin (depth + 1)) [.comma] := (scans_mark rfl rfl).append (scans_margin _)
    have parts := scans_intercalate comma each
    have whole := (((opens.append (scans_margin (depth + 1))).append parts).append (scans_margin depth)).append closes
    simpa [enclosed] using whole

theorem scans_pretty (v : Json) : ∀ depth, Scans (pretty depth v) (tokens v) := by
  induction v using Json.induction with
  | string s =>
    intro depth
    exact scans_quoted s
  | boolean b =>
    intro depth done
    rw [pretty, tokens]
    cases b <;> rfl
  | list items ih =>
    intro depth
    rw [pretty, tokens, prettyItems_eq, itemTokens_eq]
    exact scans_enclosed (scans_mark rfl rfl) (scans_mark rfl rfl) depth fun v member => ih v member _
  | record members ih =>
    intro depth
    rw [pretty, tokens, prettyMembers_eq, memberTokens_eq]
    refine scans_enclosed (scans_mark rfl rfl) (scans_mark rfl rfl) depth fun m member => ?_
    have colon : Scans ": " [.colon] := fun done => rfl
    exact ((scans_quoted m.1).append colon).append (ih m member _)

theorem tokens?_pretty (depth : Nat) (v : Json) : tokens? (pretty depth v) = some (tokens v) := by
  rw [tokens?, scans_pretty v depth []]
  rfl

end GLHeader.Json
