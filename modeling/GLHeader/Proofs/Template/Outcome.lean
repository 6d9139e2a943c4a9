import GLHeader.Proofs.Traversal
import GLHeader.Template

namespace GLHeader.Template

def IsKey (values : List (String × String)) (key : String) : Prop := key ∈ values.map Prod.fst

variable {values : List (String × String)}

theorem isSome_lookup_iff {key : String} : (values.lookup key).isSome ↔ IsKey values key := by
  rw [← not_iff_not, Option.not_isSome_iff_eq_none, List.lookup_eq_none_iff, IsKey, List.mem_map]
  simp only [bne_iff_ne, ne_comm, not_exists, not_and, ne_eq]

theorem reads_fillSlot (values : List (String × String)) :
    Reads (fillSlot values) (fun slot => IsKey values slot.name)
      (fun slot => slot.lead ++ (values.lookup slot.name).getD "")
      (fun slot fault => ¬ IsKey values slot.name ∧ fault = .unknown slot.name) where
  ok slot known := by
    obtain ⟨value, same⟩ := Option.isSome_iff_exists.mp (isSome_lookup_iff.mpr known)
    simp [fillSlot, same]
  error slot fault unknown := by
    obtain ⟨other, rfl⟩ := unknown
    rw [← isSome_lookup_iff, Option.not_isSome_iff_eq_none] at other
    simp [fillSlot, other]
  faulty slot unknown := ⟨.unknown slot.name, unknown, rfl⟩

/-- The fault of a template that is filled with values of these names: the first other name, or else
an opening mark that is never closed. -/
inductive HasFault (names : List String) (t : Template) : Fault → Prop where
  | unknown {before after : List Slot} {slot : Slot} (slots : t.slots = before ++ slot :: after)
      (earlier : ∀ s ∈ before, s.name ∈ names) (other : slot.name ∉ names) :
      HasFault names t (.unknown slot.name)
  | unterminated {inside : String} (known : ∀ slot ∈ t.slots, slot.name ∈ names)
      (unclosed : t.unclosed = some inside) : HasFault names t (.unterminated t.closedSize)

theorem exists_unknown {names : List String} {t : Template}
    (other : ¬ ∀ slot ∈ t.slots, slot.name ∈ names) : ∃ name, HasFault names t (.unknown name) := by
  have first : ∃ s, FirstFault (fun slot : Slot => slot.name ∈ names)
      (fun slot s => slot = s ∧ slot.name ∉ names) t.slots s :=
    exists_firstFault (fun slot unknown => ⟨slot, rfl, unknown⟩) other
  obtain ⟨slot, before, _, after, slots, earlier, rfl, unknown⟩ := first
  exact ⟨_, .unknown slots earlier unknown⟩

theorem reads_fill (values : List (String × String)) :
    Reads (fill · values) (fun t => t.unclosed = none ∧ ∀ slot ∈ t.slots, IsKey values slot.name)
      (fun t =>
        String.join (t.slots.map fun slot => slot.lead ++ (values.lookup slot.name).getD "") ++ t.last)
      (HasFault (values.map Prod.fst)) where
  ok t sound := by
    obtain ⟨closed, known⟩ := sound
    rw [fill, (reads_fillSlot values).mapM.ok t.slots known, closed]
    rfl
  error t fault found := by
    cases found with
    | @unknown before after slot slots earlier other =>
      have failed := (reads_fillSlot values).mapM.error t.slots (.unknown slot.name)
        ⟨before, slot, after, slots, earlier, other, rfl⟩
      rw [fill, failed]
      rfl
    | unterminated known unclosed =>
      rw [fill, (reads_fillSlot values).mapM.ok t.slots known, unclosed]
      rfl
  faulty t unsound := by
    by_cases known : ∀ slot ∈ t.slots, slot.name ∈ values.map Prod.fst
    · obtain ⟨inside, unclosed⟩ := Option.ne_none_iff_exists'.mp fun closed => unsound ⟨closed, known⟩
      exact ⟨_, .unterminated known unclosed⟩
    · obtain ⟨name, found⟩ := exists_unknown known
      exact ⟨_, found⟩

end GLHeader.Template
