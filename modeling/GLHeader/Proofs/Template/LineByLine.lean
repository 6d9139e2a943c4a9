import GLHeader.Header.Templates
import GLHeader.Proofs.Template.Grammar
import GLHeader.Proofs.Text.Lines

namespace GLHeader

open GLHeader.Text GLHeader.Template

variable {values : List (String × String)}

theorem fillTemplate_append_of_ok {a b x y : String} (apart : Apart '{' '_' a.toList b.toList)
    (first : fillTemplate a values = .ok x) (second : fillTemplate b values = .ok y) :
    fillTemplate (a ++ b) values = .ok (x ++ y) := by
  rw [fillTemplate_append apart first, second]
  rfl

theorem fillTemplate_literal {line : String} (plain : occurs openingMark line = false) :
    fillTemplate line values = .ok line := by
  rw [fillTemplate, ofString, ofChars_of_none (occurs_eq_false_iff.mp plain)]
  simp [fill, pure, Except.pure, bind, Except.bind]

theorem fillTemplate_slot {name value : String} (plain : occurs closingMark name = false)
    (known : values.lookup name = some value) :
    fillTemplate (openingMark ++ name ++ closingMark) values = .ok value := by
  have solid : Lacks closingMark name := lacks_iff.mpr (occurs_eq_false_iff.mp plain)
  have bare : Lacks openingMark "" := lacks_iff.mpr rfl
  have alone : openingMark ++ name ++ closingMark = Slot.text ⟨"", name⟩ ++ "" := by simp [Slot.text]
  have head : fillSlot values ⟨"", name⟩ = .ok value := by simp [fillSlot, known]
  have last : fillTemplate "" values = .ok "" := fillTemplate_literal rfl
  rw [alone, fillTemplate, ofString_slot bare solid, fill_cons, ← fillTemplate, last, head]
  simp [Except.bind, following, Except.mapError, Except.map]

theorem fillTemplate_around (lead : String) {name value rest text : String}
    (literal : occurs openingMark lead = false)
    (apart : lead.toList.getLast? ≠ some '{') (plain : occurs closingMark name = false)
    (known : values.lookup name = some value) (later : fillTemplate rest values = .ok text) :
    fillTemplate (lead ++ ((openingMark ++ name ++ closingMark) ++ rest)) values = .ok (lead ++ (value ++ text)) := by
  have slot := fillTemplate_append_of_ok (Apart.of_last (c := '}') (by simp [closingMark]) (by decide) _)
    (fillTemplate_slot plain known) later
  exact fillTemplate_append_of_ok (fun together => apart together.1) (fillTemplate_literal literal) slot

inductive FillsTo (values : List (String × String)) : List String → List String → Prop where
  | nil : FillsTo values [] []
  | cons {line text : String} {shown ls xs : List String} (filled : fillTemplate line values = .ok text)
      (lines : text ++ "\n" = unlines shown) (later : FillsTo values ls xs) :
      FillsTo values (line :: ls) (shown ++ xs)

namespace FillsTo

theorem append {first second xs ys : List String} (before : FillsTo values first xs)
    (after : FillsTo values second ys) : FillsTo values (first ++ second) (xs ++ ys) := by
  induction before with
  | nil => exact after
  | cons filled lines _ ih =>
    rw [List.cons_append, List.append_assoc]
    exact .cons filled lines ih

theorem line {line text : String} (filled : fillTemplate line values = .ok text) :
    FillsTo values [line] [text] := by
  have lines : text ++ "\n" = unlines [text] := by simp [unlines]
  exact .cons filled lines .nil

theorem place (name : String) {value : String} {shown ls xs : List String}
    (plain : occurs closingMark name = false) (known : values.lookup name = some value)
    (lines : value ++ "\n" = unlines shown) (later : FillsTo values ls xs) :
    FillsTo values ((openingMark ++ name ++ closingMark) :: ls) (shown ++ xs) :=
  .cons (fillTemplate_slot plain known) lines later

theorem literal {ls : List String} (plain : ∀ line ∈ ls, occurs openingMark line = false) :
    FillsTo values ls ls := by
  induction ls with
  | nil => exact .nil
  | cons line ls ih =>
    obtain ⟨first, later⟩ := List.forall_mem_cons.mp plain
    exact (FillsTo.line (fillTemplate_literal first)).append (ih later)

theorem fillTemplate_unlines {ls xs : List String} (fills : FillsTo values ls xs) :
    fillTemplate (unlines ls) values = .ok (unlines xs) := by
  induction fills with
  | nil => exact fillTemplate_literal rfl
  | @cons line text shown ls xs filled lines _ ih =>
    have split (l : String) (ls : List String) : unlines (l :: ls) = l ++ ("\n" ++ unlines ls) := by
      simp [unlines, String.append_assoc]
    have feed : fillTemplate ("\n" ++ unlines ls) values = .ok ("\n" ++ unlines xs) :=
      fillTemplate_append_of_ok (Apart.of_last (c := '\n') rfl (by decide) _) (fillTemplate_literal (by decide)) ih
    have apart : Apart '{' '_' line.toList ("\n" ++ unlines ls).toList := by
      rintro ⟨-, start⟩
      simp at start
    rw [split, fillTemplate_append_of_ok apart filled feed, unlines_append, ← lines, String.append_assoc]

theorem concat_inv {ls xs : List String} {last : String} (fills : FillsTo values (ls ++ [last]) xs) :
    ∃ ys text shown, FillsTo values ls ys ∧ fillTemplate last values = .ok text ∧
      text ++ "\n" = unlines shown ∧ xs = ys ++ shown := by
  induction ls generalizing xs with
  | nil =>
    cases fills with
    | cons filled lines later =>
      cases later
      exact ⟨[], _, _, .nil, filled, lines, by simp⟩
  | cons line ls ih =>
    cases fills with
    | cons first lines later =>
      obtain ⟨ys, text, shown, before, filled, same, rfl⟩ := ih later
      exact ⟨_, text, shown, .cons first lines before, filled, same, by simp⟩

end FillsTo

theorem trimEnd_unlines {ls : List String} {last : String} {c : Char}
    (shown : last.toList.getLast? = some c) (solid : isBlank c = false) :
    trimEnd (unlines (ls ++ [last])) = unlines ls ++ last := by
  obtain ⟨start, same⟩ := List.getLast?_eq_some_iff.mp shown
  have text : (unlines (ls ++ [last])).toList.reverse =
      '\n' :: c :: (start.reverse ++ (unlines ls).toList.reverse) := by
    simp [unlines, same]
  have feed : isBlank '\n' = true := rfl
  rw [trimEnd, text, List.dropWhile_cons_of_pos feed, List.dropWhile_cons_of_neg (by simp [solid]),
    ← String.toList_inj, String.toList_ofList, String.toList_append, same]
  simp

theorem Header.fillFragment_unlines {ls xs : List String} {last : String} {c : Char}
    (fills : FillsTo values (ls ++ [last]) xs) (shown : last.toList.getLast? = some c)
    (solid : isBlank c = false) :
    ∃ text, fillFragment (unlines (ls ++ [last])) values = .ok text ∧ text ++ "\n" = unlines xs := by
  obtain ⟨ys, text, ended, before, filled, same, rfl⟩ := fills.concat_inv
  refine ⟨unlines ys ++ text, ?_, by rw [String.append_assoc, same, unlines_append]⟩
  have apart : Apart '{' '_' (unlines ls).toList last.toList := by
    rcases List.eq_nil_or_concat ls with rfl | ⟨init, line, rfl⟩
    · rintro ⟨empty, -⟩
      cases empty
    · apply Apart.of_last (c := '\n')
      · simp [unlines]
      · decide
  rw [fillFragment, trimEnd_unlines shown solid]
  exact fillTemplate_append_of_ok apart before.fillTemplate_unlines filled

end GLHeader
