namespace GLHeader.Text

/-- What stands before and after the first occurrence of a mark. -/
def cut (mark : List Char) : List Char → Option (List Char × List Char)
  | [] => if mark.isEmpty then some ([], []) else none
  | c :: rest =>
    if mark.isPrefixOf (c :: rest) then some ([], (c :: rest).drop mark.length)
    else (cut mark rest).map fun (before, after) => (c :: before, after)

theorem eq_append_of_cut {mark s before after : List Char}
    (found : cut mark s = some (before, after)) : s = before ++ mark ++ after := by
  induction s generalizing before with
  | nil =>
    unfold cut at found
    split at found <;> simp_all
  | cons c rest ih =>
    unfold cut at found
    split at found
    · rename_i here
      obtain ⟨tail, same⟩ := List.isPrefixOf_iff_prefix.mp here
      cases found
      simp [← same]
    · obtain ⟨⟨inner, outer⟩, deeper, same⟩ := Option.map_eq_some_iff.mp found
      cases same
      simp [ih deeper]

theorem length_of_cut {mark s before after : List Char}
    (found : cut mark s = some (before, after)) :
    before.length + mark.length + after.length = s.length := by
  simp [eq_append_of_cut found]
  omega

def occurs (mark s : String) : Bool := (cut mark.toList s.toList).isSome

end GLHeader.Text
