import GLHeader.Text.Cut
import Mathlib.Data.List.Infix

namespace GLHeader.Text

theorem cut_append {mark s before after : List Char} (found : cut mark s = some (before, after))
    (t : List Char) : cut mark (s ++ t) = some (before, after ++ t) := by
  induction s generalizing before with
  | nil =>
    unfold cut at found
    split at found
    · rename_i empty
      rw [List.isEmpty_iff] at empty
      cases found
      subst empty
      cases t <;> simp [cut]
    · cases found
  | cons c rest ih =>
    rw [cut] at found
    split at found
    · rename_i here
      have start := List.isPrefixOf_iff_prefix.mp here
      have longer : mark.isPrefixOf (c :: rest ++ t) = true :=
        List.isPrefixOf_iff_prefix.mpr (start.trans (List.prefix_append _ _))
      cases found
      rw [List.cons_append] at longer ⊢
      rw [cut, if_pos longer, ← List.cons_append, List.drop_append_of_le_length start.length_le]
    · rename_i other
      obtain ⟨⟨inner, outer⟩, deeper, same⟩ := Option.map_eq_some_iff.mp found
      cases same
      -- The mark is no longer than the text in which it is found further on.
      have fits : mark.length ≤ (c :: rest).length := by
        have total := length_of_cut deeper
        rw [List.length_cons]
        omega
      have absent : ¬ mark.isPrefixOf (c :: (rest ++ t)) = true := by
        intro start
        have long : mark <+: c :: rest ++ t := List.isPrefixOf_iff_prefix.mp start
        exact other (List.isPrefixOf_iff_prefix.mpr
          (List.prefix_of_prefix_length_le long (List.prefix_append _ _) fits))
      rw [List.cons_append, cut, if_neg absent, ih deeper]
      rfl

def Apart (a b : Char) (s t : List Char) : Prop := ¬ (s.getLast? = some a ∧ t.head? = some b)

theorem Apart.of_last {a b c : Char} {s : List Char} (last : s.getLast? = some c) (other : c ≠ a)
    (t : List Char) : Apart a b s t := by
  rintro ⟨same, -⟩
  exact other (Option.some.inj (last.symm.trans same))

theorem Apart.of_append {a b : Char} {p s t : List Char} (apart : Apart a b (p ++ s) t) :
    Apart a b s t := by
  rintro ⟨last, start⟩
  refine apart ⟨?_, start⟩
  rw [List.getLast?_append, last]
  rfl

theorem cut_append_of_none {a b : Char} {s t : List Char} (absent : cut [a, b] s = none)
    (apart : Apart a b s t) :
    cut [a, b] (s ++ t) = (cut [a, b] t).map fun found => (s ++ found.1, found.2) := by
  induction s with
  | nil => simp
  | cons c rest ih =>
    rw [cut] at absent
    split at absent
    · cases absent
    · rename_i other
      have deeper : cut [a, b] rest = none := by simpa using absent
      have unmarked : ¬ [a, b].isPrefixOf (c :: (rest ++ t)) = true := by
        cases rest with
        | nil =>
          intro start
          obtain ⟨tail, same⟩ := List.isPrefixOf_iff_prefix.mp start
          rw [List.nil_append] at same
          injection same with first later
          exact apart ⟨by simp [first], by rw [← later]; rfl⟩
        | cons d rest =>
          intro start
          refine other ?_
          simpa [List.isPrefixOf] using start
      have later : Apart a b rest t := Apart.of_append (p := [c]) apart
      rw [List.cons_append, cut, if_neg unmarked, ih deeper later, Option.map_map]
      rfl

def Lacks (mark s : String) : Prop := ¬ mark.toList <:+: s.toList

theorem cut_eq_none_iff {mark s : List Char} : cut mark s = none ↔ ¬ mark <:+: s := by
  induction s with
  | nil => simp [cut]
  | cons c rest ih =>
    rw [List.infix_cons_iff, not_or, ← ih, ← List.isPrefixOf_iff_prefix, cut]
    split
    · rename_i here
      simp [here]
    · rename_i other
      simp [other]

theorem lacks_iff {mark s : String} : Lacks mark s ↔ cut mark.toList s.toList = none := cut_eq_none_iff.symm

theorem cut_lead {mark s before after : List Char} (shown : mark ≠ [])
    (found : cut mark s = some (before, after)) : cut mark before = none := by
  cases earlier : cut mark before with
  | none => rfl
  | some parts =>
    have whole : cut mark (before ++ (mark ++ after)) = some (parts.1, parts.2 ++ (mark ++ after)) :=
      cut_append earlier _
    rw [← List.append_assoc, ← eq_append_of_cut found, found] at whole
    have same : before = parts.1 := congrArg Prod.fst (Option.some.inj whole)
    have total := length_of_cut earlier
    have long : 0 < mark.length := List.length_pos_iff.mpr shown
    rw [← same] at total
    omega

theorem cut_append_mark {a b : Char} {s : List Char} (absent : cut [a, b] s = none) (other : a ≠ b)
    (t : List Char) : cut [a, b] (s ++ ([a, b] ++ t)) = some (s, t) := by
  have apart : Apart a b s ([a, b] ++ t) := by
    rintro ⟨-, start⟩
    exact other (Option.some.inj start)
  have here : cut [a, b] ([a, b] ++ t) = some ([], t) := by simp [cut]
  rw [cut_append_of_none absent apart, here]
  simp

theorem cut_append_of_not_mem {c : Char} {mark s : List Char} (absent : c ∉ s) (t : List Char) :
    cut (c :: mark) (s ++ (c :: mark ++ t)) = some (s, t) := by
  induction s with
  | nil =>
    have here : (c :: mark).isPrefixOf (c :: (mark ++ t)) = true :=
      List.isPrefixOf_iff_prefix.mpr (List.prefix_append (c :: mark) t)
    rw [List.nil_append, List.cons_append, cut, if_pos here, ← List.cons_append, List.drop_left]
  | cons d s ih =>
    rw [List.mem_cons, not_or] at absent
    rw [List.cons_append, cut, if_neg (by simp [List.isPrefixOf, absent.1]), ih absent.2]
    rfl

theorem occurs_iff {mark s : String} : occurs mark s = true ↔ mark.toList <:+: s.toList := by
  rw [← not_iff_not, ← cut_eq_none_iff, Bool.not_eq_true, occurs, Option.isSome_eq_false_iff,
    Option.isNone_iff_eq_none]

theorem occurs_eq_false_iff {mark s : String} : occurs mark s = false ↔ cut mark.toList s.toList = none := by
  rw [occurs, Option.isSome_eq_false_iff, Option.isNone_iff_eq_none]

end GLHeader.Text
