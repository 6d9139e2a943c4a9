import GLHeader.Proofs.Text.Collapse

namespace GLHeader.Text

theorem tokens_squeeze (s : List Char) : tokens (squeeze s) = tokens s := by
  rw [tokens_eq_runs, tokens_eq_runs, runs_squeeze fun c blank => by simp [blank]]

theorem words_collapse (s : String) : words (collapse s) = words s := by
  rw [words_eq_tokens, words_eq_tokens, toList_collapse, tokens_squeeze]

theorem collapse_eq_of_words {s t : String} (same : words s = words t) : collapse s = collapse t := by
  rw [collapse, collapse, same]

theorem collapse_eq_iff {s t : String} : collapse s = collapse t ↔ words s = words t := by
  refine ⟨fun same => ?_, collapse_eq_of_words⟩
  rw [← words_collapse s, same, words_collapse t]

theorem words_trim (s : String) : words (trim s) = words s := by
  obtain ⟨front, back, whole, blank, blank', -⟩ := exists_trim s
  have notFront (c : Char) (member : c ∈ front) : (!isBlank c) = false := by simp [blank c member]
  have notBack (c : Char) (member : c ∈ back) : (!isBlank c) = false := by simp [blank' c member]
  rw [words_eq_tokens, words_eq_tokens, tokens_eq_runs, tokens_eq_runs, whole, runs_append_of_not notFront,
    runs_append_gap_right notBack]

theorem collapse_trim (s : String) : collapse (trim s) = collapse s := collapse_eq_of_words (words_trim s)

/-- A space where the first text ends with a blank or the second one begins with one, and nothing otherwise. -/
def gapBetween (s t : String) : String :=
  if s.toList.getLast?.any isBlank || t.toList.head?.any isBlank then " " else ""

theorem getLast?_squeeze {s : List Char} (stop : s.getLast?.any isBlank = false) :
    (squeeze s).getLast? = s.getLast? := by
  rw [← getLast?_solid (singleSpaced_squeeze s).stop, solid_squeeze, getLast?_solid stop]

theorem any_not_blank {o : Option Char} (blank : o.any isBlank = true) : o.any (!isBlank ·) = false := by
  cases o with
  | none => rfl
  | some c => simpa using blank

theorem words_of_parts (s t : String) : words (collapse s ++ gapBetween s t ++ collapse t) = words (s ++ t) := by
  have first := tokens_squeeze s.toList
  have second := tokens_squeeze t.toList
  rw [tokens_eq_runs, tokens_eq_runs] at first second
  suffices same : runs (!isBlank ·) (squeeze s.toList ++ (gapBetween s t).toList ++ squeeze t.toList) =
      runs (!isBlank ·) (s.toList ++ t.toList) by
    rw [words_eq_tokens, words_eq_tokens, tokens_eq_runs, tokens_eq_runs, String.toList_append, String.toList_append,
      String.toList_append, toList_collapse, toList_collapse, same]
  by_cases blank : (s.toList.getLast?.any isBlank || t.toList.head?.any isBlank) = true
  · -- Blanks at the seam keep the words of the parts apart, and so does the space that stands for them.
    have gap : (gapBetween s t).toList = [' '] := by
      rw [gapBetween, if_pos blank]
      rfl
    have parted : runs (!isBlank ·) (s.toList ++ t.toList) =
        runs (!isBlank ·) s.toList ++ runs (!isBlank ·) t.toList := by
      rcases Bool.or_eq_true_iff.mp blank with stop | start
      · exact runs_append_of_stop (any_not_blank stop) _
      · exact runs_append_of_start (any_not_blank start) _
    have space : ∀ c ∈ [' '], (!isBlank c) = false := List.forall_mem_singleton.mpr rfl
    rw [gap, List.append_assoc, runs_append_gap (List.cons_ne_nil _ _) space, first, second, parted]
  · have gap : (gapBetween s t).toList = [] := by
      rw [gapBetween, if_neg blank]
      rfl
    rw [Bool.not_eq_true, Bool.or_eq_false_iff] at blank
    rw [gap, List.append_nil]
    exact runs_append_congr first second (by rw [getLast?_squeeze blank.1]) (by rw [head?_squeeze blank.2])

/-- Collapsing keeps the words of a text and fixes the text by them, so collapsing once more changes nothing.
A text may be collapsed in two parts, wherever it is cut. -/
theorem collapse_by_words (s t : String) :
    words (collapse s) = words s ∧ (collapse s = collapse t ↔ words s = words t) ∧
      collapse (collapse s) = collapse s ∧
        collapse (s ++ t) = collapse (collapse s ++ gapBetween s t ++ collapse t) :=
  ⟨words_collapse s, collapse_eq_iff, collapse_eq_of_words (words_collapse s),
    collapse_eq_of_words (words_of_parts s t).symm⟩

example :
    words "\u2003const\t GLchar\n*\u0085" = ["const", "GLchar", "*"] ∧
      collapse "\u2003const\t GLchar\n*\u0085" = "const GLchar *" ∧
        gapBetween "const" "GLchar *" = "" ∧ gapBetween "const\n" "GLchar *" = " " := by
  decide +kernel

end GLHeader.Text
