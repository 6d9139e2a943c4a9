import GLHeader.Proofs.Surface.Exposure

namespace GLHeader.Registry

open GLHeader.Text GLHeader.Xml

/-- None of the texts that a declaration of the command needs is blank. -/
structure IsUsable (name : String) (signature : Signature) : Prop where
  name : ¬ AllBlank name
  result : ¬ AllBlank signature.result.short
  parameters : ∀ p ∈ signature.parameters, ¬ AllBlank p.name ∧ ¬ AllBlank p.type.short

/-- The name holds more than blanks, and so does the marker of the type, or where there is no marker
the leading text of the element. -/
def Filled (name marker : Option Element) (e : Element) : Prop :=
  (∃ n, name = some n ∧ ¬ AllBlank n.leadText) ∧
    ((∃ m, marker = some m ∧ ¬ AllBlank m.leadText) ∨ marker = none ∧ ¬ AllBlank e.leadText)

def FilledParameter (p : Element) : Prop :=
  Filled (p.elementsNamed "name").getLast? (p.elementsNamed "ptype").getLast? p

def FilledCommand (e : Element) : Prop :=
  ∃ prototype, e.firstNamed? "proto" = some prototype ∧
    Filled (prototype.firstNamed? "name") (prototype.firstNamed? "ptype") prototype ∧
    ∀ p ∈ e.elementsNamed "param", FilledParameter p

theorem filled_iff (name marker : Option Element) (e : Element) :
    Filled name marker e ↔ ¬ AllBlank ((name.bind Element.leadText?).getD "") ∧
      ¬ AllBlank ((marker.map Element.leadText).getD e.leadText) := by
  have empty : AllBlank "" := by decide
  have named : (∃ n, name = some n ∧ ¬ AllBlank n.leadText) ↔
      ¬ AllBlank ((name.bind Element.leadText?).getD "") := by
    cases name with
    | none => simpa using empty
    | some n => simp [Element.leadText]
  have typed : ((∃ m, marker = some m ∧ ¬ AllBlank m.leadText) ∨ marker = none ∧ ¬ AllBlank e.leadText) ↔
      ¬ AllBlank ((marker.map Element.leadText).getD e.leadText) := by
    cases marker <;> simp
  rw [Filled, named, typed]

theorem filledParameter_iff (p : Element) :
    FilledParameter p ↔ ¬ AllBlank (statedParameter p).name ∧ ¬ AllBlank (statedParameter p).type.short :=
  filled_iff _ _ p

theorem isUsable_iff_filled {e prototype : Element} (found : e.firstNamed? "proto" = some prototype) :
    IsUsable ((commandName? e).getD "") (statedSignature e) ↔ FilledCommand e := by
  have name : (commandName? e).getD "" =
      trim (((prototype.firstNamed? "name").bind Element.leadText?).getD "") := by
    rw [commandName?, found, Option.bind_some, prototypeName?]
    cases (prototype.firstNamed? "name").bind Element.leadText? <;> rfl
  have result : (statedSignature e).result.short =
      trim (((prototype.firstNamed? "ptype").map Element.leadText).getD prototype.leadText) := by
    simp [statedSignature, found]
  have parameters : (∀ p ∈ (statedSignature e).parameters, ¬ AllBlank p.name ∧ ¬ AllBlank p.type.short) ↔
      ∀ p ∈ e.elementsNamed "param", FilledParameter p := by
    simp only [statedSignature, List.forall_mem_map, filledParameter_iff]
  have whole : FilledCommand e ↔ Filled (prototype.firstNamed? "name") (prototype.firstNamed? "ptype") prototype ∧
      ∀ p ∈ e.elementsNamed "param", FilledParameter p := by
    simp [FilledCommand, found]
  -- Trimming takes nothing from a text but blanks: it is blank after that exactly if it was before.
  rw [whole, filled_iff, ← allBlank_trim, ← name, ← allBlank_trim (s := Option.getD _ prototype.leadText), ← result,
    ← parameters]
  exact ⟨fun h => ⟨⟨h.name, h.result⟩, h.parameters⟩, fun h => ⟨h.1.1, h.1.2, h.2⟩⟩

/-- Of the definitions of one command the last one counts. -/
def counting? (root : Element) (name : String) : Option Element :=
  ((commandElements root).filter (commandName? · == some name)).getLast?

theorem of_counting? {root e : Element} {name : String} (counts : counting? root name = some e) :
    e ∈ commandElements root ∧ commandName? e = some name := by
  obtain ⟨member, named⟩ := List.mem_filter.mp (List.mem_of_getLast? counts)
  exact ⟨member, eq_of_beq named⟩

theorem usable_iff_of_counting? {root e : Element} {name : String}
    (sound : ∀ e ∈ commandElements root, SoundCommand e) (counts : counting? root name = some e) :
    IsUsable name (statedSignature e) ↔ FilledCommand e := by
  obtain ⟨member, named⟩ := of_counting? counts
  obtain ⟨prototype, found, -⟩ := sound e member
  have usable := isUsable_iff_filled found
  rwa [named] at usable

/-- A tree is refused exactly where a command lacks a text, and all accepted commands are usable exactly
if none of the texts of a command that counts is blank. -/
theorem commands_usable_iff (root : Element) :
    ((∃ d, ofRoot root = .error d) ↔ ∃ e ∈ commandElements root, ¬ SoundCommand e) ∧
      ((∀ registry, ofRoot root = .ok registry → ∀ name signature,
          latest? registry.commands name = some signature → IsUsable name signature) ↔
        (∃ d, ofRoot root = .error d) ∨ ∀ name e, counting? root name = some e → FilledCommand e) := by
  by_cases sound : ∀ e ∈ commandElements root, SoundCommand e
  · have read := reads_registry.ok root sound
    have table (name : String) : latest? (statedRegistry root).commands name =
        (counting? root name).map statedSignature := Surface.latest?_commands name sound
    have accepted : ¬ ∃ d, ofRoot root = .error d := by
      rintro ⟨d, failed⟩
      cases read.symm.trans failed
    refine ⟨iff_of_false accepted fun ⟨e, member, unsound⟩ => unsound (sound e member), ?_⟩
    rw [or_iff_right accepted]
    constructor
    · intro usable name e counts
      have entry : latest? (statedRegistry root).commands name = some (statedSignature e) := by
        rw [table, counts]
        rfl
      exact (usable_iff_of_counting? sound counts).mp (usable _ read name _ entry)
    · intro filled registry same name signature entry
      obtain rfl : statedRegistry root = registry := Except.ok.inj (read.symm.trans same)
      rw [table] at entry
      obtain ⟨e, counts, rfl⟩ := Option.map_eq_some_iff.mp entry
      exact (usable_iff_of_counting? sound counts).mpr (filled name e counts)
  · obtain ⟨d, fault⟩ := reads_registry.faulty root sound
    have failed := reads_registry.error root d fault
    have refused : ∃ d, ofRoot root = .error d := ⟨d, failed⟩
    refine ⟨iff_of_true refused (by simpa using sound), iff_of_true ?_ (.inl refused)⟩
    intro registry accepted
    cases accepted.symm.trans failed

def blankName : Element :=
  ⟨"registry", [], [.element "commands" [] [.element "command" [] [
    .element "proto" [] [.text "void ", .element "name" [] [.text " "]]]]]⟩

/-- A blank name is not refused but trimmed to nothing. -/
theorem blank_name_accepted :
    ¬ ∀ registry, ofRoot blankName = .ok registry → ∀ name signature,
      latest? registry.commands name = some signature → IsUsable name signature := by
  intro claimed
  have read : ofRoot blankName = .ok ⟨[], [], [("", ⟨⟨"void", "void"⟩, []⟩)]⟩ := by decide +kernel
  exact (claimed _ read "" _ rfl).name (by decide)

end GLHeader.Registry
