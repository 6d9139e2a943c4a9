import GLHeader.Proofs.Header.TypeText
import GLHeader.Proofs.Preprocessor.Directive
import GLHeader.Proofs.Text.Pattern

namespace GLHeader

open GLHeader.Preprocessor GLHeader.Text GLHeader.Xml

namespace Text

section Ends

variable {p : Char → Bool} {s t : List Char} (all : ∀ c ∈ s, p c = true)
include all

theorem head?_append_iff_ne_nil (other : t.head?.any p = false) : (s ++ t).head?.any p = true ↔ s ≠ [] := by
  cases s with
  | nil => simpa using other
  | cons c s => simp [all c List.mem_cons_self]

theorem getLast?_append_iff_ne_nil (other : t.getLast?.any p = false) : (t ++ s).getLast?.any p = true ↔ s ≠ [] := by
  rcases List.eq_nil_or_concat s with rfl | ⟨first, c, rfl⟩
  · simpa using other
  · simp [all c (by simp)]

end Ends

/-- White space at an end of the text in the middle is all that stands between two runs, of which one may
also begin or end in the middle. -/
def TrimJoins (p : Char → Bool) (before middle after : String) : Prop :=
  middle.toList.head?.any isBlank ∧ before.toList.getLast?.any p ∧ (trim middle ++ after).toList.head?.any p ∨
    middle.toList.getLast?.any isBlank ∧ (before ++ trim middle).toList.getLast?.any p ∧ after.toList.head?.any p

theorem merges_trim {p : Char → Bool} (shown : ∀ c, isBlank c = true → p c = false)
    (before middle after : String) :
    Merges p (TrimJoins p before middle after) (before ++ trim middle ++ after).toList
      (before ++ middle ++ after).toList := by
  obtain ⟨front, back, whole, blank, blank', start, stop, empty⟩ := exists_trim middle
  have notFront (c : Char) (member : c ∈ front) : p c = false := shown c (blank c member)
  have notBack (c : Char) (member : c ∈ back) : p c = false := shown c (blank' c member)
  have first := merges_gap notFront before.toList ((trim middle).toList ++ after.toList)
  have later := merges_gap notBack (before.toList ++ (front ++ (trim middle).toList)) after.toList
  have joined : TrimJoins p before middle after ↔
      (front ≠ [] ∧ before.toList.getLast?.any p = true ∧ ((trim middle).toList ++ after.toList).head?.any p = true) ∨
        (back ≠ [] ∧ (before.toList ++ (front ++ (trim middle).toList)).getLast?.any p = true ∧
          after.toList.head?.any p = true) := by
    rw [TrimJoins, whole, String.toList_append, String.toList_append]
    cases core : (trim middle).toList with
    | nil =>
      obtain rfl := empty core
      have atFront := head?_append_iff_ne_nil (t := []) blank' rfl
      have atBack := getLast?_append_iff_ne_nil (t := []) blank' rfl
      rw [List.append_nil] at atFront
      simp only [List.nil_append, List.append_nil, atFront] at atBack ⊢
      rw [atBack]
      simp
    | cons c rest =>
      rw [core] at start stop
      have atFront := head?_append_iff_ne_nil (t := c :: rest ++ back) blank (by simpa using start)
      have solid : (front ++ c :: rest).getLast?.any isBlank = false := by
        rw [List.getLast?_append_cons, stop]
      have atBack := getLast?_append_iff_ne_nil blank' solid
      have last : (before.toList ++ (front ++ c :: rest)).getLast? = (before.toList ++ c :: rest).getLast? := by
        rw [← List.append_assoc, List.getLast?_append_cons, List.getLast?_append_cons]
      rw [List.append_assoc] at atBack
      rw [atFront, atBack, last]
  have both := first.trans (by simpa only [List.append_assoc] using later)
  rw [joined]
  simpa only [whole, String.toList_append, List.append_assoc] using both

end Text

namespace Registry

def trimmedText (children : List (Element × Option String)) : String :=
  String.join (children.map fun (child, tail) => childText child ++ trim (tail.getD ""))

/-- With a text before them, some children and the texts after them hold two words that are joined where
one of these texts is trimmed. -/
def FusesAfter (before : String) (children : List (Element × Option String)) : Prop :=
  ∃ earlier child tail later, children = earlier ++ (child, tail) :: later ∧
    TrimJoins isIdentifierChar (before ++ trimmedText earlier ++ childText child) (tail.getD "")
      (tailedText later)

def Fuses (e : Element) : Prop := FusesAfter e.leadText (elementsWithTails e.children)

theorem fusesAfter_cons_iff {before : String} {child : Element} {tail : Option String}
    {later : List (Element × Option String)} :
    FusesAfter before ((child, tail) :: later) ↔
      FusesAfter (before ++ childText child ++ trim (tail.getD "")) later ∨
        TrimJoins isIdentifierChar (before ++ childText child) (tail.getD "") (tailedText later) := by
  constructor
  · rintro ⟨earlier, child', tail', later', same, joined⟩
    cases earlier with
    | nil =>
      obtain ⟨⟨rfl, rfl⟩, rfl⟩ := List.cons.inj same |>.imp Prod.mk.inj id
      exact .inr (by simpa [trimmedText] using joined)
    | cons entry earlier =>
      obtain ⟨rfl, rfl⟩ := List.cons.inj same
      refine .inl ⟨earlier, child', tail', later', rfl, ?_⟩
      simpa [trimmedText, String.append_assoc] using joined
  · rintro (⟨earlier, child', tail', later', rfl, joined⟩ | joined)
    · refine ⟨(child, tail) :: earlier, child', tail', later', rfl, ?_⟩
      simpa [trimmedText, String.append_assoc] using joined
    · exact ⟨[], child, tail, later, rfl, by simpa [trimmedText] using joined⟩

theorem merges_tailedText (before : String) (children : List (Element × Option String)) :
    Merges isIdentifierChar (FusesAfter before children) (before ++ trimmedText children).toList
      (before ++ tailedText children).toList := by
  induction children generalizing before with
  | nil =>
    refine .inl ⟨?_, by rw [trimmedText, tailedText, List.map_nil, List.map_nil]⟩
    rintro ⟨earlier, child, tail, later, same, -⟩
    cases earlier <;> cases same
  | cons entry children ih =>
    obtain ⟨child, tail⟩ := entry
    have rest := ih (before ++ childText child ++ trim (tail.getD ""))
    have here := merges_trim (fun _ => isIdentifierChar_of_isBlank) (before ++ childText child) (tail.getD "")
      (tailedText children)
    have both := rest.trans here
    rw [← fusesAfter_cons_iff] at both
    simpa [trimmedText, tailedText, String.append_assoc] using both

theorem merges_alias {e : Element} {t : String} (read : typeAlias? e = some t) :
    Merges isIdentifierChar (Fuses e) t.toList (aliasText e).toList := by
  have runs_terminated (s : String) : runs isIdentifierChar (terminated s).toList = runs isIdentifierChar s.toList := by
    rw [toList_terminated]
    split
    · rw [List.append_nil]
    · exact runs_concat_of_not rfl _
  rw [typeAlias?_eq] at read
  split at read
  · obtain rfl := Option.some.inj read
    have same : runs isIdentifierChar (terminated (collapse (aliasSource e))).toList =
        runs isIdentifierChar (aliasSource e).toList := by
      rw [runs_terminated, toList_collapse, runs_squeeze fun _ => isIdentifierChar_of_isBlank]
    have source : aliasSource e = e.leadText ++ trimmedText (elementsWithTails e.children) := by
      simp only [aliasSource, trimmedText, aliasPart_eq]
    rw [Merges, same, source, aliasText, writtenText_eq]
    exact merges_tailedText e.leadText (elementsWithTails e.children)
  · cases read

/-- A declaration has the words of C that its element writes, one by one, exactly where none of them are
joined. Where some are, it has fewer. -/
theorem alias_words_kept_iff {e : Element} {t : String} (read : typeAlias? e = some t) :
    (runs isIdentifierChar t.toList = runs isIdentifierChar (aliasText e).toList ↔ ¬ Fuses e) ∧
      (Fuses e →
        (runs isIdentifierChar t.toList).length < (runs isIdentifierChar (aliasText e).toList).length) := by
  have merged := merges_alias read
  refine ⟨merged.eq_iff, fun fused => ?_⟩
  rcases merged with ⟨apart, -⟩ | ⟨-, fewer⟩
  · exact absurd fused apart
  · exact fewer

theorem alias_words_kept_iff_callback :
    let callback : Element := ⟨"type", [], [.text "typedef\tvoid ( ", .element "apientry" [] [], .text " *",
      .element "name" [] [.text "F"], .text " ) (int\n a) "]⟩
    typeAlias? callback = some "typedef void ( APIENTRY *F) (int a);" ∧ ¬ Fuses callback := by
  intro callback
  have read : typeAlias? callback = some "typedef void ( APIENTRY *F) (int a);" := by decide +kernel
  exact ⟨read, (alias_words_kept_iff read).1.mp (by decide +kernel)⟩

def twoNames : Element :=
  ⟨"type", [], [.text "typedef struct ", .element "name" [] [.text "A"], .text " ",
    .element "name" [] [.text "B"], .text ";"]⟩

/-- Of two names with a space between them one word is made. -/
theorem words_joined_by_trim :
    typeAlias? twoNames = some "typedef struct AB;" ∧
      ¬ ∀ e t, (∀ child ∈ e.elements, child.name = "name" ∨ child.name = "apientry") → typeAlias? e = some t →
        runs isIdentifierChar t.toList = runs isIdentifierChar (aliasText e).toList := by
  have read : typeAlias? twoNames = some "typedef struct AB;" := by decide +kernel
  refine ⟨read, fun claimed => ?_⟩
  have same := claimed twoNames _ (by decide) read
  exact absurd same (by decide +kernel)

end Registry

end GLHeader
