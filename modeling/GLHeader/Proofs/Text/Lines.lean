import GLHeader.Text.Lines

namespace GLHeader.Text

def OneLine (s : String) : Prop := '\n' ∉ s.toList

instance (s : String) : Decidable (OneLine s) := inferInstanceAs (Decidable (¬ _))

@[simp] theorem oneLine_append {s t : String} : OneLine (s ++ t) ↔ OneLine s ∧ OneLine t := by
  simp [OneLine, String.toList_append]

theorem not_mem_intercalate {c : Char} {separator : String} {ts : List String} (between : c ∉ separator.toList)
    (each : ∀ t ∈ ts, c ∉ t.toList) : c ∉ (separator.intercalate ts).toList := by
  induction ts with
  | nil => simp
  | cons t ts ih =>
    obtain ⟨first, later⟩ := List.forall_mem_cons.mp each
    cases ts with
    | nil => simpa using first
    | cons next ts =>
      rw [String.intercalate_cons_cons, String.toList_append, String.toList_append, List.mem_append, List.mem_append]
      rintro ((inFirst | inSeparator) | inLater)
      · exact first inFirst
      · exact between inSeparator
      · exact ih later inLater

theorem oneLine_intercalate {separator : String} {ts : List String} (between : OneLine separator)
    (each : ∀ t ∈ ts, OneLine t) : OneLine (separator.intercalate ts) :=
  not_mem_intercalate between each

/-- The pieces between line feeds. After the last line feed there is a line only if text follows. -/
def lines (s : String) : List String :=
  let pieces := s.toList.splitOn '\n'
  (if pieces.getLast? = some [] then pieces.dropLast else pieces).map String.ofList

theorem toList_unlines_cons (line : String) (rest : List String) :
    (unlines (line :: rest)).toList = line.toList ++ '\n' :: (unlines rest).toList := by
  simp [unlines]

theorem splitOn_unlines {ls : List String} (whole : ∀ line ∈ ls, OneLine line) :
    (unlines ls).toList.splitOn '\n' = ls.map String.toList ++ [[]] := by
  induction ls with
  | nil => rfl
  | cons line rest ih =>
    obtain ⟨first, later⟩ := List.forall_mem_cons.mp whole
    rw [toList_unlines_cons, List.splitOn_append_cons_self_of_not_mem first, ih later]
    rfl

theorem lines_unlines {ls : List String} (whole : ∀ line ∈ ls, OneLine line) :
    lines (unlines ls) = ls := by
  rw [lines, splitOn_unlines whole, List.getLast?_append, List.dropLast_concat]
  simp [Function.comp_def, String.ofList_toList]

theorem intercalate_lines {ls : List String} (some : ls ≠ []) :
    "\n".intercalate ls ++ "\n" = unlines ls := by
  induction ls with
  | nil => exact absurd rfl some
  | cons line rest ih =>
    cases rest with
    | nil => simp [unlines]
    | cons next rest =>
      have later := ih (List.cons_ne_nil next rest)
      rw [String.intercalate_cons_cons, String.append_assoc, later]
      simp [unlines, String.append_assoc]

theorem lines_intercalate {ls : List String} (whole : ∀ line ∈ ls, OneLine line)
    (shown : ∀ line ∈ ls, line ≠ "") : lines ("\n".intercalate ls) = ls := by
  by_cases given : ls = []
  · subst given
    rfl
  · have pieces : ("\n".intercalate ls).toList.splitOn '\n' = ls.map String.toList := by
      have each : ∀ l ∈ ls.map String.toList, '\n' ∉ l := by
        intro l member
        obtain ⟨line, inside, rfl⟩ := List.mem_map.mp member
        exact whole line inside
      have mark : "\n".toList = ['\n'] := rfl
      rw [String.toList_intercalate, mark, List.splitOn_intercalate '\n' each (by simpa using given)]
    have ended : (ls.map String.toList).getLast? ≠ some [] := by
      intro last
      obtain ⟨line, inside, empty⟩ := List.mem_map.mp (List.mem_of_getLast? last)
      exact shown line inside (String.toList_eq_nil_iff.mp empty)
    rw [lines, pieces, if_neg ended, List.map_map]
    simp [Function.comp_def, String.ofList_toList]

/-- Literals are spelled out line by line, for their characters are slow to evaluate. -/
theorem map_toList_cons {chars : List Char} {rest : List String} {later : List (List Char)}
    (same : rest.map String.toList = later) :
    (String.ofList chars :: rest).map String.toList = chars :: later := by
  rw [List.map_cons, same, String.toList_ofList]

theorem forall_of_chars {p : List Char → Bool} {ls : List String} {chars : List (List Char)}
    (same : ls.map String.toList = chars) (all : chars.all p) : ∀ line ∈ ls, p line.toList = true := by
  subst same
  rw [List.all_map, List.all_eq_true] at all
  exact all

theorem map_of_chars {α : Type} {f : List Char → α} {ls : List String} {chars : List (List Char)} {xs : List α}
    (same : ls.map String.toList = chars) (values : chars.map f = xs) :
    (ls.map fun line => f line.toList) = xs := by
  subst same
  rwa [List.map_map] at values

def placed : List String → List String
  | [] => [""]
  | line :: rest => line :: rest

theorem placed_eq (ls : List String) : ∃ blank, placed ls = blank ++ ls := by
  cases ls with
  | nil => exact ⟨[""], rfl⟩
  | cons line rest => exact ⟨[], rfl⟩

theorem unlines_placed (ls : List String) : "\n".intercalate ls ++ "\n" = unlines (placed ls) := by
  cases ls with
  | nil => rfl
  | cons line rest => exact intercalate_lines (List.cons_ne_nil line rest)

end GLHeader.Text
