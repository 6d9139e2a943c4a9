import GLHeader.Proofs.Template.Concatenation
import Mathlib.Data.List.Forall2

namespace GLHeader

open GLHeader.Text

namespace Template

/-- Literal texts hold no opening mark. Names hold no closing mark, and neither does what follows an
opening mark that is never closed. -/
structure IsProper (t : Template) : Prop where
  leads : ∀ slot ∈ t.slots, Lacks openingMark slot.lead
  names : ∀ slot ∈ t.slots, Lacks closingMark slot.name
  last : Lacks openingMark t.last
  unclosed : ∀ inside ∈ t.unclosed, Lacks closingMark inside

theorem IsProper.cons {slot : Slot} {t : Template} (lead : Lacks openingMark slot.lead)
    (name : Lacks closingMark slot.name) (later : t.IsProper) :
    IsProper { t with slots := slot :: t.slots } where
  leads := List.forall_mem_cons.mpr ⟨lead, later.leads⟩
  names := List.forall_mem_cons.mpr ⟨name, later.names⟩
  last := later.last
  unclosed := later.unclosed

theorem IsProper.later {slot : Slot} {slots : List Slot} {last : String} {unclosed : Option String}
    (proper : IsProper ⟨slot :: slots, last, unclosed⟩) : IsProper ⟨slots, last, unclosed⟩ where
  leads := (List.forall_mem_cons.mp proper.leads).2
  names := (List.forall_mem_cons.mp proper.names).2
  last := proper.last
  unclosed := proper.unclosed

theorem isProper_ofChars (s : List Char) : (ofChars s).IsProper := by
  have lacks {mark : String} {s : List Char} (absent : cut mark.toList s = none) :
      Lacks mark (.ofList s) := by
    rw [lacks_iff, String.toList_ofList]
    exact absent
  induction s using ofChars_induction with
  | plain s absent =>
    rw [ofChars_of_none absent]
    exact ⟨by simp, by simp, lacks absent, by simp⟩
  | unclosed s lead inside opened absent =>
    rw [ofChars_of_unclosed opened absent]
    refine ⟨by simp, by simp, lacks (cut_lead (by decide) opened), ?_⟩
    rintro _ ⟨⟩
    exact lacks absent
  | slot s lead inside name rest opened closed ih =>
    rw [ofChars_of_slot opened closed]
    exact ih.cons (lacks (cut_lead (by decide) opened)) (lacks (cut_lead (by decide) closed))

theorem text_cons (slot : Slot) (t : Template) :
    text { t with slots := slot :: t.slots } = Slot.text slot ++ t.text := by
  simp [text, String.append_assoc]

theorem ofString_slot {slot : Slot} (lead : Lacks openingMark slot.lead)
    (name : Lacks closingMark slot.name) (rest : String) :
    ofString (Slot.text slot ++ rest) = { ofString rest with slots := slot :: (ofString rest).slots } := by
  have plain : cut ['{', '_'] slot.lead.toList = none := lacks_iff.mp lead
  have solid : cut ['_', '}'] slot.name.toList = none := lacks_iff.mp name
  have closed := cut_append_mark solid (by decide) rest.toList
  have opened := cut_append_mark plain (by decide) (slot.name.toList ++ (['_', '}'] ++ rest.toList))
  have whole : (Slot.text slot ++ rest).toList =
      slot.lead.toList ++ (['{', '_'] ++ (slot.name.toList ++ (['_', '}'] ++ rest.toList))) := by
    simp [Slot.text, openingMark, closingMark]
  rw [← whole] at opened
  rw [ofString, ofChars_of_slot opened closed, String.ofList_toList, String.ofList_toList]
  rfl

theorem ofString_text {t : Template} (proper : t.IsProper) : ofString t.text = t := by
  obtain ⟨slots, last, unclosed⟩ := t
  induction slots with
  | nil =>
    have plain : cut ['{', '_'] last.toList = none := lacks_iff.mp proper.last
    cases unclosed with
    | none =>
      have whole : (Template.mk [] last none).text = last := by simp [text]
      rw [whole, ofString, ofChars_of_none plain, String.ofList_toList]
    | some inside =>
      have found := cut_append_mark plain (by decide) inside.toList
      have whole : (Template.mk [] last (some inside)).text.toList =
          last.toList ++ (['{', '_'] ++ inside.toList) := by
        simp [text, openingMark]
      rw [← whole] at found
      rw [ofString, ofChars_of_unclosed found (lacks_iff.mp (proper.unclosed inside rfl)),
        String.ofList_toList, String.ofList_toList]
  | cons slot slots ih =>
    have lead := proper.leads slot List.mem_cons_self
    have name := proper.names slot List.mem_cons_self
    rw [text_cons slot ⟨slots, last, unclosed⟩, ofString_slot lead name, ih proper.later]

theorem eq_ofString_iff {t : Template} {s : String} : t = ofString s ↔ t.IsProper ∧ t.text = s := by
  constructor
  · rintro rfl
    refine ⟨isProper_ofChars s.toList, ?_⟩
    rw [ofString, text_ofChars, String.ofList_toList]
  · rintro ⟨proper, rfl⟩
    exact (ofString_text proper).symm

def FirstValue (values : List (String × String)) (key value : String) : Prop :=
  ∃ before after, values = before ++ (key, value) :: after ∧ ∀ pair ∈ before, pair.1 ≠ key

variable {values : List (String × String)}

theorem lookup_eq_some {key value : String} :
    values.lookup key = some value ↔ FirstValue values key value := by
  simp only [List.lookup_eq_some_iff, FirstValue, bne_iff_ne, ne_comm]

theorem forall₂_firstValue_iff {slots : List Slot} {filled : List String} :
    List.Forall₂ (fun slot value => FirstValue values slot.name value) slots filled ↔
      (∀ slot ∈ slots, IsKey values slot.name) ∧
        filled = slots.map fun slot => (values.lookup slot.name).getD "" := by
  induction slots generalizing filled with
  | nil => simp
  | cons slot slots ih =>
    rw [List.forall₂_cons_left_iff, List.forall_mem_cons, ← isSome_lookup_iff, Option.isSome_iff_exists]
    constructor
    · rintro ⟨value, later, first, rest, rfl⟩
      obtain ⟨known, rfl⟩ := ih.mp rest
      have found := lookup_eq_some.mpr first
      exact ⟨⟨⟨value, found⟩, known⟩, by simp [found]⟩
    · rintro ⟨⟨⟨value, found⟩, known⟩, rfl⟩
      exact ⟨value, _, lookup_eq_some.mp found, ih.mpr ⟨known, rfl⟩, by simp [found]⟩

theorem text_of_unclosed {t : Template} {inside : String} (unclosed : t.unclosed = some inside) :
    t.text = (String.join (t.slots.map Slot.text) ++ t.last) ++ openingMark ++ inside := by
  simp [text, unclosed, String.append_assoc]

end Template

open Template

/-- A template has exactly one decomposition. It is filled when it is closed and all its names are
keys: the first value of each name then stands in the place of the placeholder as it is. Otherwise the
fault is the first name that is no key, or the place of the unclosed opening mark where all are keys. -/
theorem fillTemplate_by_parts (template : String) (values : List (String × String)) :
    ∃ t : Template, (t.IsProper ∧ t.text = template) ∧
      (∀ u : Template, u.IsProper → u.text = template → u = t) ∧
      ((∃ text, fillTemplate template values = .ok text) ↔
        t.unclosed = none ∧ ∀ slot ∈ t.slots, IsKey values slot.name) ∧
      (∀ text, fillTemplate template values = .ok text ↔ t.unclosed = none ∧ ∃ filled,
        List.Forall₂ (fun slot value => FirstValue values slot.name value) t.slots filled ∧
          text =
            String.join (List.zipWith (fun slot value => slot.lead ++ value) t.slots filled) ++ t.last) ∧
      (∀ name, fillTemplate template values = .error (.unknown name) ↔
        ∃ before slot after, t.slots = before ++ slot :: after ∧
          (∀ earlier ∈ before, IsKey values earlier.name) ∧
            ¬ IsKey values slot.name ∧ name = slot.name) ∧
      ∀ offset, fillTemplate template values = .error (.unterminated offset) ↔
        (∀ slot ∈ t.slots, IsKey values slot.name) ∧ ∃ closed inside, t.unclosed = some inside ∧
          template = closed ++ openingMark ++ inside ∧ offset = closed.utf8ByteSize := by
  have reads := reads_fill values
  obtain ⟨proper, same⟩ := eq_ofString_iff.mp (rfl : ofString template = _)
  refine ⟨ofString template, ⟨proper, same⟩, fun u own text => eq_ofString_iff.mpr ⟨own, text⟩,
    reads.sound_iff, ?_, ?_, ?_⟩
  · intro text
    have value (slots : List Slot) : List.zipWith (fun slot value => slot.lead ++ value) slots
        (slots.map fun slot => (values.lookup slot.name).getD "") =
          slots.map fun slot => slot.lead ++ (values.lookup slot.name).getD "" := by
      rw [List.zipWith_map_right, List.zipWith_self]
    refine reads.ok_iff.trans ?_
    simp only [forall₂_firstValue_iff, and_assoc, exists_and_left, exists_eq_left, value]
  · intro name
    refine reads.error_iff.trans ⟨?_, ?_⟩
    · rintro ⟨slots, earlier, other⟩
      exact ⟨_, _, _, slots, earlier, other, rfl⟩
    · rintro ⟨before, slot, after, slots, earlier, other, rfl⟩
      exact .unknown slots earlier other
  · intro offset
    refine reads.error_iff.trans ⟨fun found => ?_, ?_⟩
    · cases found with
      | unterminated known unclosed =>
        exact ⟨known, _, _, unclosed, same.symm.trans (text_of_unclosed unclosed), rfl⟩
    · rintro ⟨known, closed, inside, unclosed, whole, rfl⟩
      have before : closed =
          String.join ((ofString template).slots.map Slot.text) ++ (ofString template).last := by
        rw [← same, text_of_unclosed unclosed, String.append_left_inj, String.append_left_inj] at whole
        exact whole.symm
      rw [before]
      exact .unterminated known unclosed

example : fillTemplate "[\x7b_A_\x7d\x7b_B_\x7d]" [("A", "\x7b_B_\x7d"), ("B", "b"), ("A", "a")] =
    .ok "[\x7b_B_\x7db]" := by decide +kernel

/-- Marks that overlap: the brace after the opening mark closes nothing. -/
example : fillTemplate "é\x7b\x7b__\x7d\x7b_\x7d" [("", "")] = .error (.unterminated 7) := by decide +kernel

end GLHeader
