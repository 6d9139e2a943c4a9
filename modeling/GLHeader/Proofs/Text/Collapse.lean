import GLHeader.Proofs.Text.Runs
import GLHeader.Proofs.Text.Words
import Mathlib.Data.List.Chain
import Mathlib.Data.List.Infix

namespace GLHeader.Text

/-- Of the blanks between two other characters one space stays. -/
def squeeze : List Char → List Char
  | [] => []
  | c :: rest =>
    if isBlank c then squeeze rest
    else if rest.head?.any isBlank && !(squeeze rest).isEmpty then c :: ' ' :: squeeze rest
    else c :: squeeze rest

theorem squeeze_blank_cons {c : Char} (blank : isBlank c = true) (rest : List Char) :
    squeeze (c :: rest) = squeeze rest := if_pos blank

theorem squeeze_solid_cons {c : Char} (solid : isBlank c = false) (rest : List Char) :
    squeeze (c :: rest) = c :: squeeze rest ∧ (rest.head?.any isBlank = false ∨ squeeze rest = []) ∨
      squeeze (c :: rest) = c :: ' ' :: squeeze rest ∧ rest.head?.any isBlank = true ∧ squeeze rest ≠ [] := by
  rw [squeeze, if_neg (by simp [solid])]
  cases gap : rest.head?.any isBlank with
  | false => exact .inl ⟨rfl, .inl rfl⟩
  | true =>
    by_cases ended : squeeze rest = []
    · exact .inl ⟨by simp [ended], .inr ended⟩
    · exact .inr ⟨by simp [ended], rfl, ended⟩

theorem tokens_eq_runs (s : List Char) : tokens s = runs (!isBlank ·) s := by
  simp [tokens, runs]

theorem intercalate_tokens (s : List Char) : [' '].intercalate (tokens s) = squeeze s := by
  induction s with
  | nil => rfl
  | cons c rest ih =>
    cases blank : isBlank c with
    | true => rw [tokens_blank_cons blank, squeeze_blank_cons blank, ih]
    | false =>
      have own : (!isBlank c) = true := by simp [blank]
      cases next : rest.head?.any (!isBlank ·) with
      | true =>
        obtain ⟨w, ws, before, after⟩ := runs_cons_of_next own next
        have near : rest.head?.any isBlank = false := by
          cases rest <;> simp_all
        rw [← tokens_eq_runs] at before after
        rw [squeeze, if_neg (by simp [blank]), if_neg (by simp [near]), ← ih, before, after]
        cases ws <;> simp [List.intercalate_cons_cons]
      | false =>
        have ended := runs_cons_of_last own next
        rw [← tokens_eq_runs, ← tokens_eq_runs] at ended
        rw [squeeze, if_neg (by simp [blank]), ended]
        cases later : tokens rest with
        | nil =>
          rw [later] at ih
          simp [← ih]
        | cons w ws =>
          have some : w ≠ [] := (mem_tokens (later ▸ List.mem_cons_self)).1
          have gap : rest.head?.any isBlank = true := by
            cases rest with
            | nil => cases later
            | cons d rest => simpa using next
          rw [later] at ih
          have shown : squeeze rest ≠ [] := by
            rw [← ih]
            cases ws <;> simp [some, List.intercalate_cons_cons]
          rw [if_pos (by simp [gap, shown]), List.intercalate_cons_cons, ih]
          rfl

theorem toList_collapse (s : String) : (collapse s).toList = squeeze s.toList := by
  rw [collapse, words_eq_tokens, String.toList_intercalate, ← intercalate_tokens]
  simp [Function.comp_def]

def solid (s : List Char) : List Char := s.filter (!isBlank ·)

@[simp] theorem solid_append (s t : List Char) : solid (s ++ t) = solid s ++ solid t := List.filter_append s t

theorem solid_join (ss : List String) : solid (String.join ss).toList = ss.flatMap fun s => solid s.toList := by
  rw [String.toList_join, solid, List.filter_flatMap]
  rfl

theorem solid_dropWhile (s : List Char) : solid (s.dropWhile isBlank) = solid s := by
  induction s with
  | nil => rfl
  | cons c rest ih =>
    cases blank : isBlank c with
    | true => simpa [List.dropWhile_cons_of_pos blank, solid, blank] using ih
    | false => rw [List.dropWhile_cons_of_neg (by simp [blank])]

theorem solid_trim (s : String) : solid (trim s).toList = solid s.toList := by
  have back (t : List Char) : solid t.reverse = (solid t).reverse := List.filter_reverse
  rw [trim, trimEnd, String.toList_ofList, String.toList_ofList, solid_dropWhile, back, solid_dropWhile, back,
    List.reverse_reverse]

theorem getLast?_solid {s : List Char} (stop : s.getLast?.any isBlank = false) :
    (solid s).getLast? = s.getLast? := by
  rcases List.eq_nil_or_concat s with rfl | ⟨first, c, rfl⟩
  · rfl
  · have shown : isBlank c = false := by simpa using stop
    simp [solid, shown]

theorem solid_squeeze (s : List Char) : solid (squeeze s) = solid s := by
  induction s with
  | nil => rfl
  | cons c rest ih =>
    cases blank : isBlank c with
    | true => simpa [squeeze_blank_cons blank, solid, blank] using ih
    | false =>
      have space : isBlank ' ' = true := rfl
      rcases squeeze_solid_cons blank rest with ⟨same, -⟩ | ⟨same, -⟩ <;>
        simpa [same, solid, blank, space] using ih

theorem squeeze_of_solid {s : List Char} (whole : s.all (!isBlank ·)) : squeeze s = s := by
  induction s with
  | nil => rfl
  | cons c rest ih =>
    rw [List.all_cons, Bool.and_eq_true] at whole
    obtain ⟨first, later⟩ := whole
    rcases squeeze_solid_cons (by simpa using first) rest with ⟨same, -⟩ | ⟨-, gap, -⟩
    · rw [same, ih later]
    · cases rest with
      | nil => cases gap
      | cons d rest =>
        have next : isBlank d = true := gap
        simp [next] at later

theorem head?_blank_of_squeeze {s : List Char} (empty : squeeze s = []) (c : Char) (start : s.head? = some c) :
    isBlank c = true := by
  have kept := solid_squeeze s
  rw [empty] at kept
  have all : ∀ d ∈ s, isBlank d = true := by simpa [solid] using kept.symm
  exact all c (List.mem_of_mem_head? start)

theorem head?_squeeze {s : List Char} (start : s.head?.any isBlank = false) : (squeeze s).head? = s.head? := by
  cases s with
  | nil => rfl
  | cons c rest =>
    rcases squeeze_solid_cons start rest with ⟨same, -⟩ | ⟨same, -⟩ <;> rw [same] <;> rfl

theorem runs_squeeze {p : Char → Bool} (shown : ∀ c, isBlank c = true → p c = false) (s : List Char) :
    runs p (squeeze s) = runs p s := by
  induction s with
  | nil => rfl
  | cons c rest ih =>
    cases blank : isBlank c with
    | true => rw [squeeze_blank_cons blank, runs_cons_of_not (shown c blank), ih]
    | false =>
      have other : rest.head?.any isBlank = true → rest.head?.any p = false := by
        cases rest with
        | nil => intro gap; cases gap
        | cons d rest => exact shown d
      rcases squeeze_solid_cons blank rest with ⟨same, near | ended⟩ | ⟨same, gap, -⟩
      · rw [same]
        exact runs_cons_congr c ih (by rw [head?_squeeze near])
      · rw [same]
        refine runs_cons_congr c ih ?_
        rw [ended]
        cases rest with
        | nil => rfl
        | cons d rest => exact (other (head?_blank_of_squeeze ended d rfl)).symm
      · have space : p ' ' = false := shown ' ' rfl
        rw [same]
        refine runs_cons_congr c ((runs_cons_of_not space _).trans ih) ?_
        rw [other gap]
        exact space

/-- The only blanks are single spaces, each between two characters that are not blank. -/
structure SingleSpaced (s : List Char) : Prop where
  spaces : ∀ c ∈ s, isBlank c = true → c = ' '
  single : s.IsChain fun a b => isBlank a = false ∨ isBlank b = false
  start : s.head?.any isBlank = false
  stop : s.getLast?.any isBlank = false

theorem SingleSpaced.cons {c : Char} (solid : isBlank c = false) {s : List Char} (h : SingleSpaced s) :
    SingleSpaced (c :: s) where
  spaces d member blank := by
    rcases List.mem_cons.mp member with rfl | inside
    · cases blank.symm.trans solid
    · exact h.spaces d inside blank
  single := List.isChain_cons.mpr ⟨fun _ _ => .inl solid, h.single⟩
  start := solid
  stop := by
    cases s with
    | nil => exact solid
    | cons d s => exact h.stop

theorem SingleSpaced.gap {c : Char} (solid : isBlank c = false) {s : List Char} (h : SingleSpaced s)
    (shown : s ≠ []) : SingleSpaced (c :: ' ' :: s) where
  spaces d member blank := by
    rcases List.mem_cons.mp member with rfl | inside
    · cases blank.symm.trans solid
    · rcases List.mem_cons.mp inside with rfl | inside
      · rfl
      · exact h.spaces d inside blank
  single := by
    refine List.isChain_cons_cons.mpr ⟨.inl solid, List.isChain_cons.mpr ⟨fun d start => .inr ?_, h.single⟩⟩
    have first := h.start
    rw [start] at first
    exact first
  start := solid
  stop := by
    cases s with
    | nil => exact absurd rfl shown
    | cons d s => exact h.stop

theorem SingleSpaced.concat {c : Char} (solid : isBlank c = false) {s : List Char} (h : SingleSpaced s) :
    SingleSpaced (s ++ [c]) where
  spaces d member blank := by
    rcases List.mem_append.mp member with inside | last
    · exact h.spaces d inside blank
    · cases (List.mem_singleton.mp last ▸ blank).symm.trans solid
  single := by
    refine List.isChain_append.mpr ⟨h.single, List.isChain_singleton c, fun _ _ d last => .inr ?_⟩
    cases last
    exact solid
  start := by
    cases s with
    | nil => exact solid
    | cons d s => exact h.start
  stop := by simpa using solid

theorem singleSpaced_squeeze (s : List Char) : SingleSpaced (squeeze s) := by
  induction s with
  | nil => exact ⟨by simp [squeeze], by simp [squeeze], rfl, rfl⟩
  | cons c rest ih =>
    cases blank : isBlank c with
    | true => rwa [squeeze_blank_cons blank]
    | false =>
      rcases squeeze_solid_cons blank rest with ⟨same, -⟩ | ⟨same, -, shown⟩ <;> rw [same]
      · exact ih.cons blank
      · exact ih.gap blank shown

theorem squeeze_append_suffix (s t : List Char) : squeeze t <:+ squeeze (s ++ t) := by
  induction s with
  | nil => exact List.suffix_refl _
  | cons c s ih =>
    rw [List.cons_append]
    cases blank : isBlank c with
    | true => rwa [squeeze_blank_cons blank]
    | false =>
      rcases squeeze_solid_cons blank (s ++ t) with ⟨same, -⟩ | ⟨same, -⟩ <;> rw [same]
      · exact ih.trans (List.suffix_cons c _)
      · exact ih.trans (List.suffix_append [c, ' '] _)

theorem squeeze_prefix_append (s t : List Char) : squeeze s <+: squeeze (s ++ t) := by
  induction s with
  | nil => exact List.nil_prefix
  | cons c s ih =>
    rw [List.cons_append]
    cases blank : isBlank c with
    | true => rwa [squeeze_blank_cons blank, squeeze_blank_cons blank]
    | false =>
      rcases squeeze_solid_cons blank s with ⟨same, near⟩ | ⟨same, gap, shown⟩ <;>
        rcases squeeze_solid_cons blank (s ++ t) with ⟨same', near'⟩ | ⟨same', gap', -⟩ <;> rw [same, same']
      · exact List.cons_prefix_cons.mpr ⟨rfl, ih⟩
      · -- Only where nothing follows in the first part can a space follow in the whole text alone.
        rcases near with near | ended
        · cases s with
          | nil => exact List.cons_prefix_cons.mpr ⟨rfl, List.nil_prefix⟩
          | cons d s => cases gap'.symm.trans near
        · rw [ended]
          exact List.cons_prefix_cons.mpr ⟨rfl, List.nil_prefix⟩
      · cases s with
        | nil => cases gap
        | cons d s =>
          rcases near' with near' | ended
          · cases gap.symm.trans near'
          · rw [ended] at ih
            exact absurd (List.prefix_nil.mp ih) shown
      · exact List.cons_prefix_cons.mpr ⟨rfl, List.cons_prefix_cons.mpr ⟨rfl, ih⟩⟩

theorem squeeze_infix {s t : List Char} (part : s <:+: t) : squeeze s <:+: squeeze t := by
  obtain ⟨before, after, rfl⟩ := part
  exact (squeeze_append_suffix before s).isInfix.trans (squeeze_prefix_append (before ++ s) after).isInfix

theorem exists_around_collapse {s t : String} (part : s.toList <:+: t.toList) :
    ∃ before after, collapse t = before ++ collapse s ++ after := by
  obtain ⟨before, after, whole⟩ := squeeze_infix part
  refine ⟨.ofList before, .ofList after, ?_⟩
  simp only [← String.toList_inj, String.toList_append, String.toList_ofList, toList_collapse, whole]

theorem exists_after_collapse (s t : String) : ∃ after, collapse (s ++ t) = collapse s ++ after := by
  obtain ⟨after, whole⟩ := squeeze_prefix_append s.toList t.toList
  refine ⟨.ofList after, ?_⟩
  simp only [← String.toList_inj, String.toList_append, String.toList_ofList, toList_collapse, whole]

end GLHeader.Text
