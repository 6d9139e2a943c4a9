import GLHeader.Proofs.Text.Lines
import GLHeader.Text.Blank
import Mathlib.Data.List.Basic

namespace GLHeader.Text

def tokens (s : List Char) : List (List Char) := (s.splitOnP isBlank).filter (!·.isEmpty)

theorem words_eq_tokens (s : String) : words s = (tokens s.toList).map String.ofList := rfl

theorem tokens_blank_cons {c : Char} (blank : isBlank c = true) (s : List Char) :
    tokens (c :: s) = tokens s := by
  rw [tokens, List.splitOnP_cons_eq_if_modifyHead, if_pos blank]
  rfl

theorem tokens_solid_cons {c : Char} (solid : isBlank c = false) (s : List Char) :
    ∃ w ws, tokens (c :: s) = (c :: w) :: ws := by
  obtain ⟨w, ws, same⟩ := List.exists_cons_of_ne_nil (List.splitOnP_ne_nil isBlank s)
  refine ⟨w, ws.filter (!·.isEmpty), ?_⟩
  simp [tokens, List.splitOnP_cons_eq_if_modifyHead, solid, same]

theorem tokens_word {w : List Char} (some : w ≠ []) (solid : ∀ c ∈ w, isBlank c = false) :
    tokens w = [w] := by
  rw [tokens, List.splitOnP_eq_singleton solid]
  simp [some]

theorem tokens_append {w : List Char} (some : w ≠ []) (solid : ∀ c ∈ w, isBlank c = false)
    {c : Char} (blank : isBlank c = true) (s : List Char) :
    tokens (w ++ c :: s) = w :: tokens s := by
  rw [tokens, List.splitOnP_append_cons _ _ blank, List.splitOnP_eq_singleton solid]
  simp [some, tokens]

theorem solid_of_splitOnP {s w : List Char} (member : w ∈ s.splitOnP isBlank) :
    ∀ c ∈ w, isBlank c = false := by
  induction s generalizing w with
  | nil =>
    rw [List.splitOnP_nil, List.mem_singleton] at member
    subst member
    simp
  | cons d s ih =>
    rw [List.splitOnP_cons_eq_if_modifyHead] at member
    split at member
    · rcases List.mem_cons.mp member with rfl | later
      · simp
      · exact ih later
    · rename_i solid
      obtain ⟨first, rest, same⟩ := List.exists_cons_of_ne_nil (List.splitOnP_ne_nil isBlank s)
      rw [same] at member ih
      rcases List.mem_cons.mp member with rfl | later
      · rw [List.forall_mem_cons]
        exact ⟨by simpa using solid, ih List.mem_cons_self⟩
      · exact ih (List.mem_cons_of_mem _ later)

theorem mem_tokens {s w : List Char} (member : w ∈ tokens s) :
    w ≠ [] ∧ ∀ c ∈ w, isBlank c = false := by
  obtain ⟨piece, shown⟩ := List.mem_filter.mp member
  exact ⟨by simpa using shown, solid_of_splitOnP piece⟩

def AllBlank (s : String) : Prop := ∀ c ∈ s.toList, isBlank c = true

instance (s : String) : Decidable (AllBlank s) := List.decidableBAll _ s.toList

theorem forall_mem_dropWhile {p : Char → Bool} {s : List Char} :
    (∀ c ∈ s.dropWhile p, p c = true) ↔ ∀ c ∈ s, p c = true := by
  induction s with
  | nil => rfl
  | cons c rest ih =>
    by_cases dropped : p c = true
    · rw [List.dropWhile_cons_of_pos dropped, ih, List.forall_mem_cons, and_iff_right dropped]
    · rw [List.dropWhile_cons_of_neg dropped]

theorem allBlank_trim {s : String} : AllBlank (trim s) ↔ AllBlank s := by
  simp only [AllBlank, trim, trimEnd, String.toList_ofList, forall_mem_dropWhile, List.mem_reverse]

theorem exists_trimEnd_append (s : String) :
    ∃ b, s.toList = (trimEnd s).toList ++ b ∧ ∀ c ∈ b, isBlank c = true := by
  refine ⟨(s.toList.reverse.takeWhile isBlank).reverse, ?_, ?_⟩
  · rw [trimEnd, String.toList_ofList, ← List.reverse_append, List.takeWhile_append_dropWhile,
      List.reverse_reverse]
  · intro c member
    exact List.all_eq_true.mp List.all_takeWhile c (List.mem_reverse.mp member)

theorem head?_dropWhile (s : List Char) : (s.dropWhile isBlank).head?.any isBlank = false := by
  have solid := List.head?_dropWhile_not isBlank s
  cases start : (s.dropWhile isBlank).head? with
  | none => rfl
  | some c =>
    rw [start] at solid
    simpa using solid

theorem getLast?_trimEnd (s : String) : (trimEnd s).toList.getLast?.any isBlank = false := by
  rw [trimEnd, String.toList_ofList, List.getLast?_reverse]
  exact head?_dropWhile _

theorem exists_trim (s : String) : ∃ front back, s.toList = front ++ ((trim s).toList ++ back) ∧
    (∀ c ∈ front, isBlank c = true) ∧ (∀ c ∈ back, isBlank c = true) ∧
    (trim s).toList.head?.any isBlank = false ∧ (trim s).toList.getLast?.any isBlank = false ∧
    ((trim s).toList = [] → front = []) := by
  obtain ⟨back, whole, blank⟩ := exists_trimEnd_append s
  have parts := List.takeWhile_append_dropWhile (p := isBlank) (l := (trimEnd s).toList)
  have stop := getLast?_trimEnd s
  have core : (trim s).toList = (trimEnd s).toList.dropWhile isBlank := String.toList_ofList
  rw [core]
  refine ⟨(trimEnd s).toList.takeWhile isBlank, back, ?_, ?_, blank, head?_dropWhile _, ?_, ?_⟩
  · rw [← List.append_assoc, parts, whole]
  · exact fun c member => List.all_eq_true.mp List.all_takeWhile c member
  · cases shown : (trimEnd s).toList.dropWhile isBlank with
    | nil => rfl
    | cons c rest =>
      rwa [← parts, shown, List.getLast?_append_cons] at stop
  · intro empty
    rw [empty, List.append_nil] at parts
    rw [← parts] at stop
    cases last : ((trimEnd s).toList.takeWhile isBlank).getLast? with
    | none => exact List.getLast?_eq_none_iff.mp last
    | some c =>
      have here := List.all_eq_true.mp List.all_takeWhile c (List.mem_of_getLast? last)
      rw [last] at stop
      cases here.symm.trans stop

theorem mem_collapse {s : String} {c : Char} (member : c ∈ (collapse s).toList) :
    c = ' ' ∨ isBlank c = false := by
  have solid : ∀ w ∈ words s, ∀ c ∈ w.toList, isBlank c = false := by
    intro w inside
    rw [words_eq_tokens] at inside
    obtain ⟨token, found, rfl⟩ := List.mem_map.mp inside
    rw [String.toList_ofList]
    exact (mem_tokens found).2
  rw [collapse] at member
  generalize words s = ws at solid member
  induction ws with
  | nil => simp at member
  | cons w ws ih =>
    obtain ⟨first, later⟩ := List.forall_mem_cons.mp solid
    cases ws with
    | nil => exact .inr (first c (by simpa using member))
    | cons next ws =>
      rw [String.intercalate_cons_cons, String.toList_append, String.toList_append, List.mem_append,
        List.mem_append] at member
      rcases member with (here | space) | rest
      · exact .inr (first c here)
      · exact .inl (by simpa using space)
      · exact ih later rest

theorem oneLine_collapse (s : String) : OneLine (collapse s) := by
  intro member
  rcases mem_collapse member with same | solid
  · exact absurd same (by decide)
  · exact absurd solid (by decide)

theorem head_collapse_eq (s : String) : (collapse s).toList.head? = (s.toList.dropWhile isBlank).head? := by
  rw [collapse, words_eq_tokens]
  induction s.toList with
  | nil => rfl
  | cons c rest ih =>
    cases blank : isBlank c with
    | true => rw [tokens_blank_cons blank, List.dropWhile_cons_of_pos blank, ih]
    | false =>
      obtain ⟨w, ws, same⟩ := tokens_solid_cons blank rest
      rw [same, List.dropWhile_cons_of_neg (by simp [blank])]
      cases ws <;> simp [String.intercalate_cons_cons]

theorem head_collapse {s : String} {c : Char} (start : (collapse s).toList.head? = some c) :
    isBlank c = false := by
  have solid := head?_dropWhile s.toList
  rwa [← head_collapse_eq, start] at solid

end GLHeader.Text
