import GLHeader.Proofs.Text.Pattern
import GLHeader.Proofs.Text.Words

namespace GLHeader.Preprocessor

open GLHeader.Text

structure Test where
  wanted : Bool
  name : String
deriving DecidableEq, Repr

/-- Alternatives of conjunctions. A condition of any other form is left unread. -/
abbrev Condition := List (List Test)

inductive Directive where
  | opening (condition : Option Condition)
  | alternative (condition : Option Condition)
  | otherwise
  | closing
  | define (name : String)
  | undefine (name : String)
  | error
  | other
deriving DecidableEq, Repr

def identifier? (s : List Char) : Option String :=
  let name := (s.dropWhile isBlank).takeWhile isIdentifierChar
  if name.isEmpty then none else some (.ofList name)

def test? (operator operand : List Char) : Option Test :=
  match Piece.read? [.mark "(", .word, .mark ")"] operand with
  | some [name] =>
    if operator = "defined".toList then some ⟨true, name⟩
    else if operator = "!defined".toList then some ⟨false, name⟩
    else none
  | _ => none

def condition? : List (List Char) → Option Condition
  | [operator, operand] => (test? operator operand).map fun test => [[test]]
  | operator :: operand :: connective :: rest => do
    let test ← test? operator operand
    match connective, ← condition? rest with
    | ['|', '|'], later => return [test] :: later
    | ['&', '&'], first :: later => return (test :: first) :: later
    | _, _ => none
  | _ => none

def Directive.ofKeyword (keyword : String) (rest : List Char) : Directive :=
  match keyword with
  | "if" => .opening (condition? (tokens rest))
  | "ifdef" => .opening ((identifier? rest).map fun name => [[⟨true, name⟩]])
  | "ifndef" => .opening ((identifier? rest).map fun name => [[⟨false, name⟩]])
  | "elif" => .alternative (condition? (tokens rest))
  | "else" => .otherwise
  | "endif" => .closing
  | "define" => ((identifier? rest).map .define).getD .other
  | "undef" => ((identifier? rest).map .undefine).getD .other
  | "error" => .error
  | _ => .other

/-- The directive of a line whose first character after blanks is a number sign. Comments and continued
lines are not known. -/
def directive? (line : List Char) : Option Directive :=
  match line.dropWhile isBlank with
  | '#' :: rest =>
    let wording := rest.dropWhile isBlank
    some (.ofKeyword (.ofList (wording.takeWhile isIdentifierChar)) (wording.dropWhile isIdentifierChar))
  | _ => none

theorem directive?_plain {line : List Char} (start : (line.dropWhile isBlank).head? ≠ some '#') :
    directive? line = none := by
  unfold directive?
  split
  · rename_i same
    rw [same] at start
    exact absurd rfl start
  · rfl

theorem isBlank_of_isIdentifierChar {c : Char} (h : isIdentifierChar c = true) : isBlank c = false := by
  have ranges : ((65 ≤ c.toNat ∧ c.toNat ≤ 90) ∨ (97 ≤ c.toNat ∧ c.toNat ≤ 122)) ∨
      (48 ≤ c.toNat ∧ c.toNat ≤ 57) ∨ c.toNat = 95 := by
    rw [isIdentifierChar, Char.isAlphanum] at h
    simp only [Bool.or_eq_true, beq_iff_eq] at h
    rcases h with (letter | digit) | rfl
    · rcases Bool.or_eq_true_iff.mp letter with capital | small
      · exact .inl (.inl (of_decide_eq_true capital))
      · exact .inl (.inr (by simpa [UInt32.le_iff_toNat_le] using Bool.and_eq_true_iff.mp small))
    · exact .inr (.inl (by simpa [UInt32.le_iff_toNat_le] using Bool.and_eq_true_iff.mp digit))
    · exact .inr (.inr rfl)
  simp only [isBlank, Bool.or_eq_false_iff, Bool.and_eq_false_iff, decide_eq_false_iff_not, beq_eq_false_iff_ne]
  omega

theorem isIdentifierChar_of_isBlank {c : Char} (blank : isBlank c = true) : isIdentifierChar c = false := by
  cases own : isIdentifierChar c with
  | false => rfl
  | true => cases blank.symm.trans (isBlank_of_isIdentifierChar own)

theorem isWord_solid {s : String} (h : IsWord s) : ∀ c ∈ s.toList, isBlank c = false :=
  fun c member => isBlank_of_isIdentifierChar (List.all_eq_true.mp h.2 c member)

theorem dropWhile_blank_word {w rest : List Char} (some : w ≠ []) (proper : w.all isIdentifierChar) :
    (w ++ rest).dropWhile isBlank = w ++ rest := by
  obtain ⟨c, tail, rfl⟩ := List.exists_cons_of_ne_nil some
  rw [List.all_cons, Bool.and_eq_true] at proper
  rw [List.cons_append, List.dropWhile_cons_of_neg]
  simp [isBlank_of_isIdentifierChar proper.1]

theorem directive?_word (depth : Nat) {keyword : String} (word : IsWord keyword) {rest : List Char}
    (ended : rest.head?.any isIdentifierChar = false) :
    directive? ('#' :: (List.replicate depth ' ' ++ (keyword.toList ++ rest))) =
      some (.ofKeyword keyword rest) := by
  obtain ⟨some, proper⟩ := word
  obtain ⟨taken, dropped⟩ := takeWhile_word proper ended
  have mark : ('#' :: (List.replicate depth ' ' ++ (keyword.toList ++ rest))).dropWhile isBlank =
      '#' :: (List.replicate depth ' ' ++ (keyword.toList ++ rest)) :=
    List.dropWhile_cons_of_neg (by decide)
  have indent : (List.replicate depth ' ' ++ (keyword.toList ++ rest)).dropWhile isBlank =
      keyword.toList ++ rest := by
    have spaces : ∀ c ∈ List.replicate depth ' ', isBlank c = true := by
      intro c member
      rw [List.eq_of_mem_replicate member]
      rfl
    rw [List.dropWhile_append_of_pos spaces, dropWhile_blank_word some proper]
  simp only [directive?, mark, indent, taken, dropped, String.ofList_toList]

theorem identifier?_word {name : String} (word : IsWord name) {rest : List Char}
    (ended : rest.head?.any isIdentifierChar = false) :
    identifier? (' ' :: (name.toList ++ rest)) = some name := by
  obtain ⟨some, proper⟩ := word
  have shown : (' ' :: (name.toList ++ rest)).dropWhile isBlank = name.toList ++ rest := by
    rw [List.dropWhile_cons_of_pos (by decide), dropWhile_blank_word some proper]
  have given : name.toList.isEmpty = false := by simpa using some
  rw [identifier?, shown, (takeWhile_word proper ended).1, given, String.ofList_toList]
  rfl

theorem condition?_defined {name : String} (word : IsWord name) :
    condition? (tokens (" defined (" ++ name ++ ")").toList) = some [[⟨true, name⟩]] := by
  have operand : Piece.read? [.mark "(", .word, .mark ")"] ("(" ++ name ++ ")").toList = some [name] := by
    have written : "(" ++ name ++ ")" = Piece.write [.mark "(", .word, .mark ")"] [name] := by
      simp [Piece.write, String.append_assoc]
    rw [written]
    exact Piece.read?_write (by decide) rfl (by simp [word])
  have solid : ∀ c ∈ ("(" ++ name ++ ")").toList, isBlank c = false := by
    simp only [String.toList_append, List.mem_append]
    rintro c ((opening | inside) | closing)
    · simp at opening
      exact opening ▸ rfl
    · exact isWord_solid word c inside
    · simp at closing
      exact closing ▸ rfl
  have parts : tokens (" defined (" ++ name ++ ")").toList =
      ["defined".toList, ("(" ++ name ++ ")").toList] := by
    have text : (" defined (" ++ name ++ ")").toList =
        ' ' :: ("defined".toList ++ ' ' :: ("(" ++ name ++ ")").toList) := by simp
    have operator : IsWord "defined" := by decide
    rw [text, tokens_blank_cons (by decide), tokens_append operator.1 (isWord_solid operator) (by decide),
      tokens_word (by simp) solid]
  rw [parts, condition?, test?, operand]
  rfl

example : directive? "#  ifndef WIN32 // a".toList = some (.opening (some [[⟨false, "WIN32"⟩]])) := by decide

end GLHeader.Preprocessor
