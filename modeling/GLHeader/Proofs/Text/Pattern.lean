import GLHeader.Proofs.Text.Lines
import Mathlib.Data.List.Basic

namespace GLHeader.Text

def isIdentifierChar (c : Char) : Bool := c.isAlphanum || c == '_'

def IsIdentifier (s : String) : Prop :=
  s.toList.head?.any (!·.isDigit) ∧ s.toList.all isIdentifierChar

instance (s : String) : Decidable (IsIdentifier s) := inferInstanceAs (Decidable (_ ∧ _))

def IsWord (s : String) : Prop := s.toList ≠ [] ∧ s.toList.all isIdentifierChar

instance (s : String) : Decidable (IsWord s) := inferInstanceAs (Decidable (_ ∧ _))

theorem IsIdentifier.isWord {s : String} (h : IsIdentifier s) : IsWord s := by
  refine ⟨fun empty => ?_, h.2⟩
  have start := h.1
  rw [empty] at start
  cases start

theorem IsWord.append_left {s t : String} (before : s.toList.all isIdentifierChar) (h : IsWord t) :
    IsWord (s ++ t) := by
  refine ⟨by simp [String.toList_append, h.1], ?_⟩
  rw [String.toList_append, List.all_append, before, h.2]
  rfl

theorem IsWord.append_right {s t : String} (h : IsWord s) (after : t.toList.all isIdentifierChar) :
    IsWord (s ++ t) := by
  refine ⟨by simp [String.toList_append, h.1], ?_⟩
  rw [String.toList_append, List.all_append, h.2, after]
  rfl

theorem toUpper_eq_or_isUpper (c : Char) : c.toUpper = c ∨ c.toUpper.isUpper = true := by
  by_cases lower : c.val ≥ 'a'.val ∧ c.val ≤ 'z'.val
  · right
    have low : 97 ≤ c.val.toNat := UInt32.le_iff_toNat_le.mp lower.1
    have high : c.val.toNat ≤ 122 := UInt32.le_iff_toNat_le.mp lower.2
    have raised : c.toUpper = ⟨c.val + ('A'.val - 'a'.val), _⟩ := dif_pos lower
    refine decide_eq_true (p := 'A'.val ≤ c.toUpper.val ∧ c.toUpper.val ≤ 'Z'.val) ?_
    rw [raised, UInt32.le_iff_toNat_le, UInt32.le_iff_toNat_le, UInt32.toNat_add]
    change 65 ≤ (c.val.toNat + 4294967264) % 4294967296 ∧ (c.val.toNat + 4294967264) % 4294967296 ≤ 90
    omega
  · left
    exact dif_neg lower

theorem isIdentifierChar_toUpper {c : Char} (h : isIdentifierChar c = true) :
    isIdentifierChar c.toUpper = true := by
  rcases toUpper_eq_or_isUpper c with same | capital
  · rwa [same]
  · have letter : c.toUpper.isAlpha = true := Bool.or_eq_true_iff.mpr (.inl capital)
    rw [isIdentifierChar, Char.isAlphanum, letter]
    rfl

theorem IsWord.toUpper {s : String} (h : IsWord s) : IsWord s.toUpper := by
  rw [IsWord, String.toUpper, String.toList_map]
  refine ⟨by simp [h.1], ?_⟩
  rw [List.all_map, List.all_eq_true]
  exact fun c member => isIdentifierChar_toUpper (List.all_eq_true.mp h.2 c member)

theorem IsWord.not_mem {s : String} (h : IsWord s) {c : Char} (other : isIdentifierChar c = false) :
    c ∉ s.toList := by
  intro member
  cases other.symm.trans (List.all_eq_true.mp h.2 c member)

theorem IsWord.oneLine {s : String} (h : IsWord s) : OneLine s := h.not_mem rfl

theorem oneLine_toUpper {s : String} (h : OneLine s) : OneLine s.toUpper := by
  rw [OneLine, String.toUpper, String.toList_map]
  intro member
  obtain ⟨c, inside, same⟩ := List.mem_map.mp member
  rcases toUpper_eq_or_isUpper c with unchanged | capital
  · rw [unchanged] at same
    exact h (same ▸ inside)
  · rw [same] at capital
    exact absurd capital (by decide)

theorem takeWhile_word {s rest : List Char} (proper : s.all isIdentifierChar)
    (ended : rest.head?.any isIdentifierChar = false) :
    (s ++ rest).takeWhile isIdentifierChar = s ∧ (s ++ rest).dropWhile isIdentifierChar = rest := by
  rw [List.all_eq_true] at proper
  rw [List.takeWhile_append_of_pos proper, List.dropWhile_append_of_pos proper]
  cases rest with
  | nil => simp
  | cons c rest =>
    have ends : isIdentifierChar c = false := by simpa using ended
    simp [ends]

inductive Piece where
  | mark (text : String)
  | word
deriving DecidableEq, Repr

namespace Piece

def read? : List Piece → List Char → Option (List String)
  | [], s => if s.isEmpty then some [] else none
  | .mark text :: pieces, s => (s.dropPrefix? text.toList).bind (read? pieces)
  | .word :: pieces, s =>
    if s.head?.any isIdentifierChar then
      (read? pieces (s.dropWhile isIdentifierChar)).map (.ofList (s.takeWhile isIdentifierChar) :: ·)
    else none

def write : List Piece → List String → String
  | [], _ => ""
  | .mark text :: pieces, words => text ++ write pieces words
  | .word :: pieces, words => words.head?.getD "" ++ write pieces words.tail

def wordCount : List Piece → Nat
  | [] => 0
  | .mark _ :: pieces => wordCount pieces
  | .word :: pieces => wordCount pieces + 1

def separated : List Piece → Bool
  | [] => true
  | .mark _ :: pieces => separated pieces
  | [.word] => true
  | .word :: .mark text :: pieces => text.toList.head?.any (!isIdentifierChar ·) && separated pieces
  | .word :: .word :: _ => false

theorem read?_mark (text : String) (pieces : List Piece) (s : String) :
    read? (.mark text :: pieces) (text ++ s).toList = read? pieces s.toList := by
  rw [String.toList_append, read?, List.dropPrefix?_append_of_beq _ (by simp)]
  rfl

theorem read?_mark_of_start {text : String} {c : Char} (start : text.toList.head? = some c)
    (pieces : List Piece) {s : List Char} (other : s.head? ≠ some c) :
    read? (.mark text :: pieces) s = none := by
  obtain ⟨rest, same⟩ := List.head?_eq_some_iff.mp start
  have unmarked : s.dropPrefix? text.toList = none := by
    rw [same]
    cases s with
    | nil => rfl
    | cons d tail =>
      have different : (d == c) = false := by simpa using other
      simp [List.dropPrefix?, different]
  rw [read?, unmarked]
  rfl

theorem read?_word {w : String} (proper : IsWord w) (pieces : List Piece) {s : String}
    (ended : s.toList.head?.any isIdentifierChar = false) :
    read? (.word :: pieces) (w ++ s).toList = (read? pieces s.toList).map (w :: ·) := by
  obtain ⟨some, all⟩ := proper
  obtain ⟨taken, dropped⟩ := takeWhile_word all ended
  obtain ⟨c, tail, same⟩ := List.exists_cons_of_ne_nil some
  have start : (w.toList ++ s.toList).head?.any isIdentifierChar = true := by
    rw [same, List.all_cons, Bool.and_eq_true] at all
    simp [same, all.1]
  rw [String.toList_append, read?, if_pos start, taken, dropped, String.ofList_toList]

theorem write_ended {pieces : List Piece} {words : List String}
    (fits : separated (.word :: pieces)) :
    (write pieces words).toList.head?.any isIdentifierChar = false := by
  match pieces with
  | [] => rfl
  | .mark text :: pieces =>
    rw [separated, Bool.and_eq_true] at fits
    cases chars : text.toList with
    | nil => simp [chars] at fits
    | cons c rest =>
      simp [chars] at fits
      simp [write, chars, fits]

theorem separated_tail {pieces : List Piece} (fits : separated (.word :: pieces)) : separated pieces := by
  match pieces with
  | [] => rfl
  | .mark text :: pieces =>
    rw [separated, Bool.and_eq_true] at fits
    exact fits.2

theorem read?_write {pieces : List Piece} {words : List String}
    (fits : separated pieces) (count : words.length = wordCount pieces) (proper : ∀ w ∈ words, IsWord w) :
    read? pieces (write pieces words).toList = some words := by
  induction pieces generalizing words with
  | nil =>
    cases words with
    | nil => rfl
    | cons => cases count
  | cons piece pieces ih =>
    cases piece with
    | mark text =>
      rw [write, read?_mark]
      exact ih fits count proper
    | word =>
      cases words with
      | nil => cases count
      | cons w words =>
        obtain ⟨first, later⟩ := List.forall_mem_cons.mp proper
        have rest := ih (separated_tail fits) (Nat.succ.inj count) later
        rw [write, List.head?_cons, Option.getD_some, List.tail_cons, read?_word first _ (write_ended fits), rest]
        rfl

end Piece

end GLHeader.Text
