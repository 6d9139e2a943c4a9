import GLHeader.Proofs.Text.Cut
import GLHeader.Proofs.Template.Outcome

namespace GLHeader.Template

open GLHeader.Text

variable {s t lead inside name rest : List Char}

theorem ofChars_of_none (absent : cut openingMark.toList s = none) :
    ofChars s = ⟨[], .ofList s, none⟩ := by
  rw [ofChars]
  split
  · rfl
  · rename_i found
    rw [absent] at found
    cases found

theorem ofChars_of_unclosed (opened : cut openingMark.toList s = some (lead, inside))
    (unclosed : cut closingMark.toList inside = none) :
    ofChars s = ⟨[], .ofList lead, some (.ofList inside)⟩ := by
  rw [ofChars]
  split
  · rename_i absent
    rw [opened] at absent
    cases absent
  · rename_i found
    rw [opened] at found
    cases found
    split
    · rfl
    · rename_i closed
      rw [unclosed] at closed
      cases closed

theorem ofChars_of_slot (opened : cut openingMark.toList s = some (lead, inside))
    (closed : cut closingMark.toList inside = some (name, rest)) :
    ofChars s = { ofChars rest with slots := ⟨.ofList lead, .ofList name⟩ :: (ofChars rest).slots } := by
  rw [ofChars]
  split
  · rename_i absent
    rw [opened] at absent
    cases absent
  · rename_i found
    rw [opened] at found
    cases found
    split
    · rename_i absent
      rw [closed] at absent
      cases absent
    · rename_i found
      rw [closed] at found
      cases found
      rfl

theorem ofChars_induction {motive : List Char → Prop}
    (plain : ∀ s, cut openingMark.toList s = none → motive s)
    (unclosed : ∀ s lead inside, cut openingMark.toList s = some (lead, inside) →
      cut closingMark.toList inside = none → motive s)
    (slot : ∀ s lead inside name rest, cut openingMark.toList s = some (lead, inside) →
      cut closingMark.toList inside = some (name, rest) → motive rest → motive s)
    (s : List Char) : motive s := by
  induction s using ofChars.induct with
  | case1 s absent => exact plain s absent
  | case2 s lead inside opened absent => exact unclosed s lead inside opened absent
  | case3 s lead inside opened name rest closed ih => exact slot s lead inside name rest opened closed ih

def text (t : Template) : String :=
  String.join (t.slots.map Slot.text) ++ t.last ++ (t.unclosed.map (openingMark ++ ·)).getD ""

theorem text_ofChars (s : List Char) : (ofChars s).text = .ofList s := by
  induction s using ofChars_induction with
  | plain s absent =>
    rw [ofChars_of_none absent]
    simp [text]
  | unclosed s lead inside opened absent =>
    rw [ofChars_of_unclosed opened absent, eq_append_of_cut opened]
    simp [text, String.ofList_append, String.ofList_toList]
  | slot s lead inside name rest opened closed ih =>
    rw [ofChars_of_slot opened closed, eq_append_of_cut opened, eq_append_of_cut closed]
    rw [text] at ih
    simp [text, Slot.text, String.ofList_append, String.ofList_toList, String.append_assoc, ← ih]

def prepend (lead : String) (t : Template) : Template :=
  match t.slots with
  | [] => { t with last := lead ++ t.last }
  | slot :: later => { t with slots := { slot with lead := lead ++ slot.lead } :: later }

theorem prepend_ofChars {p : List Char} (absent : cut openingMark.toList p = none)
    (apart : Apart '{' '_' p t) : ofChars (p ++ t) = (ofChars t).prepend (.ofList p) := by
  have found := cut_append_of_none absent apart
  induction t using ofChars_induction with
  | plain t none =>
    change cut openingMark.toList (p ++ t) = (cut openingMark.toList t).map _ at found
    rw [none] at found
    rw [ofChars_of_none none, ofChars_of_none found]
    simp [prepend, String.ofList_append]
  | unclosed t lead inside opened none =>
    change cut openingMark.toList (p ++ t) = (cut openingMark.toList t).map _ at found
    rw [opened] at found
    rw [ofChars_of_unclosed opened none, ofChars_of_unclosed found none]
    simp [prepend, String.ofList_append]
  | slot t lead inside name rest opened closed ih =>
    change cut openingMark.toList (p ++ t) = (cut openingMark.toList t).map _ at found
    rw [opened] at found
    rw [ofChars_of_slot opened closed, ofChars_of_slot found closed]
    simp [prepend, String.ofList_append]

theorem ofChars_append (closed : (ofChars s).unclosed = none) (apart : Apart '{' '_' s t) :
    ofChars (s ++ t) =
      let later := (ofChars t).prepend (ofChars s).last
      { later with slots := (ofChars s).slots ++ later.slots } := by
  induction s using ofChars_induction with
  | plain s absent =>
    rw [prepend_ofChars absent apart, ofChars_of_none absent]
    rfl
  | unclosed s lead inside opened absent =>
    rw [ofChars_of_unclosed opened absent] at closed
    cases closed
  | slot s lead inside name rest opened inner ih =>
    rw [ofChars_of_slot opened inner] at closed ⊢
    have suffix : s = (lead ++ openingMark.toList ++ name ++ closingMark.toList) ++ rest := by
      rw [eq_append_of_cut opened, eq_append_of_cut inner]
      simp
    rw [suffix] at apart
    rw [ofChars_of_slot (cut_append opened t) (cut_append inner t), ih closed apart.of_append]
    rfl

theorem slots_prefix_append (s t : List Char) : (ofChars s).slots <+: (ofChars (s ++ t)).slots := by
  induction s using ofChars_induction with
  | plain s absent =>
    rw [ofChars_of_none absent]
    exact List.nil_prefix
  | unclosed s lead inside opened absent =>
    rw [ofChars_of_unclosed opened absent]
    exact List.nil_prefix
  | slot s lead inside name rest opened inner ih =>
    rw [ofChars_of_slot opened inner, ofChars_of_slot (cut_append opened t) (cut_append inner t)]
    exact List.cons_prefix_cons.mpr ⟨rfl, ih⟩

def Fault.after (size : Nat) : Fault → Fault
  | .unknown name => .unknown name
  | .unterminated offset => .unterminated (size + offset)

/-- The result of a template that follows others of that size, which give that text. -/
def following (size : Nat) (before : String) (result : Except Fault String) : Except Fault String :=
  (result.mapError (Fault.after size)).map (before ++ ·)

theorem following_following (first second : Nat) (before between : String)
    (result : Except Fault String) :
    following first before (following second between result) =
      following (first + second) (before ++ between) result := by
  rcases result with fault | text
  · cases fault <;> simp [following, Except.mapError, Except.map, Fault.after, Nat.add_assoc]
  · simp [following, Except.mapError, Except.map, String.append_assoc]

section Values

variable {values : List (String × String)} {slots : List Slot} {filled : List String}

theorem after_of_slots {fault : Fault} (failed : slots.mapM (fillSlot values) = .error fault)
    (size : Nat) : fault.after size = fault := by
  obtain ⟨_, slot, _, -, -, -, rfl⟩ := (reads_fillSlot values).mapM.error_iff.mp failed
  rfl

theorem closedSize_append (slots : List Slot) (t : Template) :
    closedSize { t with slots := slots ++ t.slots } =
      (String.join (slots.map Slot.text)).utf8ByteSize + t.closedSize := by
  simp only [closedSize, List.map_append, String.join_append, String.utf8ByteSize_append]
  omega

theorem fill_slots_append (before : slots.mapM (fillSlot values) = .ok filled) (t : Template) :
    fill { t with slots := slots ++ t.slots } values =
      following (String.join (slots.map Slot.text)).utf8ByteSize (String.join filled) (t.fill values) := by
  have parts : (slots ++ t.slots).mapM (fillSlot values) =
      (t.slots.mapM (fillSlot values)).map (filled ++ ·) := by
    rw [List.mapM_append, before]
    cases t.slots.mapM (fillSlot values) <;> rfl
  rw [fill, fill, parts, closedSize_append]
  cases later : t.slots.mapM (fillSlot values) with
  | error fault =>
    have same := after_of_slots later (String.join (slots.map Slot.text)).utf8ByteSize
    simp only [following, Except.mapError, Except.map, bind, Except.bind, same]
  | ok more =>
    cases t.unclosed with
    | none =>
      simp [following, Except.mapError, Except.map, bind, Except.bind, pure, Except.pure,
        String.append_assoc]
    | some inside => rfl

theorem fill_cons (slot : Slot) (t : Template) :
    fill { t with slots := slot :: t.slots } values =
      (fillSlot values slot).bind fun text =>
        following (Slot.text slot).utf8ByteSize text (t.fill values) := by
  cases head : fillSlot values slot with
  | error fault =>
    simp only [fill, List.mapM_cons, head]
    rfl
  | ok text =>
    have before : [slot].mapM (fillSlot values) = .ok [text] := by
      rw [List.mapM_cons, head]
      rfl
    have filled := fill_slots_append before t
    simpa [Except.bind] using filled

theorem fill_prepend (lead : String) (t : Template) :
    (t.prepend lead).fill values = following lead.utf8ByteSize lead (t.fill values) := by
  obtain ⟨slots, last, unclosed⟩ := t
  cases slots with
  | nil =>
    cases unclosed with
    | none => rfl
    | some inside => simp [prepend, fill, closedSize, following, Except.mapError, Except.map, Fault.after]
  | cons slot later =>
    have first : fillSlot values { slot with lead := lead ++ slot.lead } =
        (fillSlot values slot).map (lead ++ ·) := by
      unfold fillSlot
      cases values.lookup slot.name <;> simp [Except.map, String.append_assoc]
    have size : (Slot.text { slot with lead := lead ++ slot.lead }).utf8ByteSize =
        lead.utf8ByteSize + (Slot.text slot).utf8ByteSize := by
      simp [Slot.text]
      omega
    rw [prepend, fill_cons { slot with lead := lead ++ slot.lead } ⟨later, last, unclosed⟩,
      fill_cons slot ⟨later, last, unclosed⟩, first, size]
    cases head : fillSlot values slot with
    | error fault =>
      obtain ⟨-, rfl⟩ := (reads_fillSlot values).error_iff.mp head
      rfl
    | ok text => exact (following_following _ _ _ _ _).symm

end Values

theorem slots_of_fill {t : Template} {values : List (String × String)} {x : String}
    (filled : t.fill values = .ok x) :
    ∃ texts, t.slots.mapM (fillSlot values) = .ok texts ∧ x = String.join texts ++ t.last := by
  obtain ⟨⟨-, known⟩, same⟩ := (reads_fill values).ok_iff.mp filled
  exact ⟨_, (reads_fillSlot values).mapM.ok t.slots known, same⟩

end Template

open Template Text

theorem fillTemplate_append {a b x : String} {values : List (String × String)}
    (apart : Apart '{' '_' a.toList b.toList) (filled : fillTemplate a values = .ok x) :
    fillTemplate (a ++ b) values = following a.utf8ByteSize x (fillTemplate b values) := by
  have closed : (ofChars a.toList).unclosed = none := ((reads_fill values).ok_iff.mp filled).1.1
  obtain ⟨texts, slots, same⟩ := slots_of_fill filled
  have size : a.utf8ByteSize = (String.join ((ofString a).slots.map Slot.text)).utf8ByteSize +
      (ofString a).last.utf8ByteSize := by
    have whole := congrArg String.utf8ByteSize (text_ofChars a.toList)
    rw [text, closed, String.ofList_toList] at whole
    simpa [ofString] using whole.symm
  rw [size, same, ← following_following, fillTemplate, fillTemplate, ofString, String.toList_append,
    ofChars_append closed apart, ← fill_prepend]
  exact fill_slots_append slots _

theorem fillTemplate_append_of_unknown {a name : String} {values : List (String × String)}
    (failed : fillTemplate a values = .error (.unknown name)) (b : String) :
    fillTemplate (a ++ b) values = .error (.unknown name) := by
  obtain ⟨later, whole⟩ := slots_prefix_append a.toList b.toList
  refine (reads_fill values).error_iff.mpr ?_
  rw [ofString, String.toList_append]
  cases (reads_fill values).error_iff.mp failed with
  | @unknown before after slot slots earlier other =>
    have longer : (ofChars (a.toList ++ b.toList)).slots = before ++ slot :: (after ++ later) := by
      have own : (ofChars a.toList).slots = before ++ slot :: after := slots
      rw [← whole, own, List.append_assoc, List.cons_append]
    exact .unknown longer earlier other

/-- Two templates that are written one after the other are filled one after the other, and the positions of
faults in the second one count from the start of the first one. This holds unless an opening mark stands across
the two; and where the first one names an unknown placeholder, nothing behind it matters. -/
theorem fillTemplate_in_turn (a b : String) (values : List (String × String)) :
    (∀ x, fillTemplate a values = .ok x → ¬ (a.toList.getLast? = some '{' ∧ b.toList.head? = some '_') →
      fillTemplate (a ++ b) values = match fillTemplate b values with
        | .ok y => .ok (x ++ y)
        | .error (.unknown name) => .error (.unknown name)
        | .error (.unterminated n) => .error (.unterminated (a.utf8ByteSize + n))) ∧
      ∀ name, fillTemplate a values = .error (.unknown name) →
        fillTemplate (a ++ b) values = .error (.unknown name) := by
  refine ⟨fun x filled apart => ?_, fun name failed => fillTemplate_append_of_unknown failed b⟩
  rw [fillTemplate_append apart filled]
  cases fillTemplate b values with
  | ok y => rfl
  | error fault => cases fault <;> rfl

theorem fillTemplate_in_turn_unclosed :
    let a := "é\x7b_A_\x7d\x7b"
    let b := "\x7b_A_\x7d\x7b_x"
    let values := [("A", "\x7b_")]
    fillTemplate a values = .ok "é\x7b_\x7b" ∧ ¬ (a.toList.getLast? = some '{' ∧ b.toList.head? = some '_') ∧
      fillTemplate b values = .error (.unterminated 5) ∧
      fillTemplate (a ++ b) values = .error (.unterminated 13) ∧
      fillTemplate "\x7b_B_\x7d\x7b" values = .error (.unknown "B") ∧
      fillTemplate ("\x7b_B_\x7d\x7b" ++ "_A") values = .error (.unknown "B") := by
  intro a b values
  have first : fillTemplate a values = .ok "é\x7b_\x7b" := by decide +kernel
  have apart : ¬ (a.toList.getLast? = some '{' ∧ b.toList.head? = some '_') := by decide
  have second : fillTemplate b values = .error (.unterminated 5) := by decide +kernel
  have failed : fillTemplate "\x7b_B_\x7d\x7b" values = .error (.unknown "B") := by decide +kernel
  have both := (fillTemplate_in_turn a b values).1 _ first apart
  rw [second] at both
  exact ⟨first, apart, second, both, failed, (fillTemplate_in_turn _ "_A" values).2 "B" failed⟩

/-- Across the two a placeholder can arise that neither of them has. -/
example : fillTemplate "\x7b" [("A", "a")] = .ok "\x7b" ∧ fillTemplate "_A_\x7d" [("A", "a")] = .ok "_A_\x7d" ∧
    fillTemplate ("\x7b" ++ "_A_\x7d") [("A", "a")] = .ok "a" := by decide +kernel

end GLHeader
