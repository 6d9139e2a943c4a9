import GLHeader.Text.Cut
import GLHeader.Xml.Character
import GLHeader.Xml.Token

namespace GLHeader.Xml

open GLHeader.Text

def expect? (mark : String) (s : List Char) : Option (List Char) :=
  if mark.toList.isPrefixOf s then some (s.drop mark.length) else none

theorem length_of_expect? {mark : String} {s rest : List Char}
    (found : expect? mark s = some rest) : rest.length ≤ s.length := by
  unfold expect? at found
  split at found <;> cases found
  simp

def skipSpace (s : List Char) : List Char := s.dropWhile isSpace

theorem length_skipSpace (s : List Char) : (skipSpace s).length ≤ s.length :=
  (List.dropWhile_suffix _).length_le

def through? (mark : String) (s : List Char) : Option (List Char × List Char) :=
  (cut mark.toList s).filter fun (before, _) => before.all isAllowed

theorem length_of_through? {mark : String} {s before rest : List Char}
    (found : through? mark s = some (before, rest)) : rest.length ≤ s.length := by
  have size := length_of_cut (Option.filter_eq_some_iff.mp found).1
  omega

def startsName : List Char → Bool
  | [] => false
  | c :: _ => isNameStart c

def splitName? (run : List Char) : Option QualifiedName :=
  match run.splitOn ':' with
  | [base] => if startsName base then some ⟨"", .ofList base⟩ else none
  | [qualifier, base] =>
    if startsName base && (qualifier.isEmpty || startsName qualifier) then
      some ⟨.ofList qualifier, .ofList base⟩
    else none
  | _ => none

def qualifiedName? (s : List Char) : Option (QualifiedName × List Char) :=
  (splitName? (s.takeWhile isNameChar)).map fun name => (name, s.dropWhile isNameChar)

theorem length_of_qualifiedName? {s rest : List Char} {name : QualifiedName}
    (found : qualifiedName? s = some (name, rest)) : rest.length < s.length := by
  obtain ⟨_, named, same⟩ := Option.map_eq_some_iff.mp found
  cases same
  have whole := congrArg List.length (List.takeWhile_append_dropWhile (p := isNameChar) (l := s))
  cases run : s.takeWhile isNameChar with
  | nil =>
    rw [run] at named
    cases named
  | cons first others =>
    simp only [run, List.length_append, List.length_cons] at whole
    omega

def quoted? : List Char → Option (List Char × List Char)
  | [] => none
  | mark :: rest =>
    if mark == '\x27' || mark == '\x22' then
      (cut [mark] rest).filter fun (written, _) => written.all fun c => isAllowed c && c != '<'
    else none

theorem length_of_quoted? {s written rest : List Char} (found : quoted? s = some (written, rest)) :
    rest.length ≤ s.length := by
  cases s with
  | nil => cases found
  | cons mark inside =>
    simp only [quoted?] at found
    split at found
    · have size := length_of_cut (Option.filter_eq_some_iff.mp found).1
      simp only [List.length_cons]
      omega
    · cases found

def attribute? (s : List Char) : Option (RawAttribute × List Char) := do
  let (name, afterName) ← qualifiedName? s
  let afterSign ← expect? "=" (skipSpace afterName)
  let (written, rest) ← quoted? (skipSpace afterSign)
  return (⟨name, written⟩, rest)

theorem length_of_attribute? {s rest : List Char} {raw : RawAttribute}
    (found : attribute? s = some (raw, rest)) : rest.length < s.length := by
  obtain ⟨⟨_, afterName⟩, named, found⟩ := Option.bind_eq_some_iff.mp found
  obtain ⟨afterSign, signed, found⟩ := Option.bind_eq_some_iff.mp found
  obtain ⟨_, valued, same⟩ := Option.bind_eq_some_iff.mp found
  cases same
  have := length_of_qualifiedName? named
  have := length_skipSpace afterName
  have := length_of_expect? signed
  have := length_skipSpace afterSign
  have := length_of_quoted? valued
  omega

/-- Reads a tag after its name: each attribute follows white space. The flag tells whether content
    is to come. -/
def attributes? (s : List Char) : Option (List RawAttribute × Bool × List Char) :=
  match skipSpace s with
  | '>' :: rest => some ([], true, rest)
  | '/' :: '>' :: rest => some ([], false, rest)
  | _ =>
    if s.head?.any isSpace then
      match _ : attribute? (skipSpace s) with
      | none => none
      | some (first, rest) => (attributes? rest).map fun (others, more) => (first :: others, more)
    else none
termination_by s.length
decreasing_by
  have := length_skipSpace s
  have := length_of_attribute? ‹attribute? _ = some (first, rest)›
  omega

theorem length_of_attributes? {s rest : List Char} {attributes : List RawAttribute}
    {hasContent : Bool} (found : attributes? s = some (attributes, hasContent, rest)) : rest.length ≤ s.length := by
  fun_induction attributes? s generalizing attributes with
  | case1 s inside ended =>
    cases found
    have := length_skipSpace s
    simp_all
    omega
  | case2 s inside ended =>
    cases found
    have := length_skipSpace s
    simp_all
    omega
  | case3 => cases found
  | case4 s _ first inside named _ _ ih =>
    obtain ⟨⟨_, _⟩, others, same⟩ := Option.map_eq_some_iff.mp found
    cases same
    have := length_skipSpace s
    have := length_of_attribute? named
    have := ih others
    omega
  | case5 => cases found

def tag? (s : List Char) : Option (Token × List Char) := do
  let (name, afterName) ← qualifiedName? s
  let (attributes, hasContent, rest) ← attributes? afterName
  return (if hasContent then .opening name attributes else .whole name attributes, rest)

def closing? (s : List Char) : Option (Token × List Char) := do
  let (name, afterName) ← qualifiedName? s
  let rest ← expect? ">" (skipSpace afterName)
  return (.closing name, rest)

/-- A comment holds no two hyphens in a row and does not end with one. -/
def comment? (s : List Char) : Option (Token × List Char) :=
  ((through? "-->" s).filter fun (wording, _) =>
    (cut "--".toList wording).isNone && wording.getLast? != some '-').map
      fun (_, rest) => (.comment, rest)

def literal? (s : List Char) : Option (Token × List Char) :=
  (through? "]]>" s).map fun (written, rest) => (.literal written, rest)

/-- An instruction whose target is `xml` with a space after it is a declaration out of place. -/
def instruction? (s : List Char) : Option (Token × List Char) :=
  if startsName s && (expect? "xml " s).isNone then
    (through? "?>" (skipSpace (s.dropWhile isNameChar))).map fun (_, rest) => (.instruction, rest)
  else none

def markup? (s : List Char) : Option (Token × List Char) :=
  match s with
  | '/' :: rest => closing? rest
  | '?' :: rest => instruction? rest
  | '!' :: '-' :: '-' :: rest => comment? rest
  | '!' :: rest => expect? "[CDATA[" rest >>= literal?
  | _ => tag? s

theorem length_of_markup? {s rest : List Char} {token : Token}
    (found : markup? s = some (token, rest)) : rest.length ≤ s.length := by
  unfold markup? at found
  split at found
  · obtain ⟨⟨_, afterName⟩, named, found⟩ := Option.bind_eq_some_iff.mp found
    obtain ⟨_, ended, same⟩ := Option.bind_eq_some_iff.mp found
    cases same
    have := length_of_qualifiedName? named
    have := length_skipSpace afterName
    have := length_of_expect? ended
    simp only [List.length_cons]
    omega
  · rename_i inside
    unfold instruction? at found
    split at found
    · obtain ⟨_, ended, same⟩ := Option.map_eq_some_iff.mp found
      cases same
      have := (List.dropWhile_suffix isNameChar (l := inside)).length_le
      have := length_skipSpace (inside.dropWhile isNameChar)
      have := length_of_through? ended
      simp only [List.length_cons]
      omega
    · cases found
  · obtain ⟨_, ended, same⟩ := Option.map_eq_some_iff.mp found
    cases same
    have := length_of_through? (Option.filter_eq_some_iff.mp ended).1
    simp only [List.length_cons]
    omega
  · obtain ⟨_, opened, found⟩ := Option.bind_eq_some_iff.mp found
    obtain ⟨_, ended, same⟩ := Option.map_eq_some_iff.mp found
    cases same
    have := length_of_expect? opened
    have := length_of_through? ended
    simp only [List.length_cons]
    omega
  · obtain ⟨_, named, found⟩ := Option.bind_eq_some_iff.mp found
    obtain ⟨_, ended, same⟩ := Option.bind_eq_some_iff.mp found
    cases same
    have := length_of_qualifiedName? named
    have := length_of_attributes? ended
    omega

/-- A run of text up to the next markup holds no `]]>`. -/
def text? (s : List Char) : Option (Token × List Char) :=
  let written := s.takeWhile (· != '<')
  if written.all isAllowed && (cut "]]>".toList written).isNone then
    some (.text written, s.dropWhile (· != '<'))
  else none

def token? (c : Char) (s : List Char) : Option (Token × List Char) :=
  if c == '<' then markup? s else text? (c :: s)

theorem length_of_token? {c : Char} {s rest : List Char} {token : Token}
    (found : token? c s = some (token, rest)) : rest.length ≤ s.length := by
  unfold token? at found
  split at found
  · exact length_of_markup? found
  · rename_i plain
    unfold text? at found
    dsimp only at found
    split at found <;> cases found
    simp only [bne, plain, List.dropWhile_cons, Bool.not_false, if_true]
    exact (List.dropWhile_suffix _).length_le

def tokens? : List Char → Option (List Token)
  | [] => some []
  | c :: s =>
    match _ : token? c s with
    | none => none
    | some (first, rest) => (tokens? rest).map (first :: ·)
termination_by s => s.length
decreasing_by
  have := length_of_token? ‹token? c s = some (first, rest)›
  simp only [List.length_cons]
  omega

end GLHeader.Xml
