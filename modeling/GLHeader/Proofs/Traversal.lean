import Mathlib.Data.List.Basic

namespace GLHeader

variable {α β δ : Type} {f : α → Except δ β} {sound : α → Prop} {value : α → β}
  {fault : α → δ → Prop}

theorem bind_ok {x : Except δ α} {next : α → Except δ β} {result : β} (ended : x >>= next = .ok result) :
    ∃ value, x = .ok value ∧ next value = .ok result := by
  cases x with
  | error d => cases ended
  | ok value => exact ⟨value, rfl, ended⟩

theorem bind_error {x : Except δ α} {next : α → Except δ β} {d : δ} (failed : x >>= next = .error d) :
    x = .error d ∨ ∃ value, x = .ok value ∧ next value = .error d := by
  cases x with
  | error e =>
    cases failed
    exact .inl rfl
  | ok value => exact .inr ⟨value, rfl, failed⟩

/-- The first element that is not sound has that fault. -/
def FirstFault (sound : α → Prop) (fault : α → δ → Prop) (xs : List α) (d : δ) : Prop :=
  ∃ before x after, xs = before ++ x :: after ∧ (∀ y ∈ before, sound y) ∧ fault x d

theorem FirstFault.of_head {x : α} {d : δ} (found : fault x d) (xs : List α) :
    FirstFault sound fault (x :: xs) d :=
  ⟨[], x, xs, rfl, by simp, found⟩

theorem FirstFault.cons {x : α} {xs : List α} {d : δ} (first : sound x)
    (later : FirstFault sound fault xs d) : FirstFault sound fault (x :: xs) d := by
  obtain ⟨before, y, after, rfl, earlier, found⟩ := later
  refine ⟨x :: before, y, after, rfl, ?_, found⟩
  intro z member
  rcases List.mem_cons.mp member with rfl | member
  · exact first
  · exact earlier z member

theorem firstFault_cons_iff {x : α} {xs : List α} {d : δ} :
    FirstFault sound fault (x :: xs) d ↔ fault x d ∨ sound x ∧ FirstFault sound fault xs d := by
  constructor
  · rintro ⟨before, y, after, same, earlier, found⟩
    cases before with
    | nil =>
      obtain ⟨rfl, -⟩ := List.cons.inj same
      exact .inl found
    | cons z before =>
      obtain ⟨rfl, rfl⟩ := List.cons.inj same
      obtain ⟨first, later⟩ := List.forall_mem_cons.mp earlier
      exact .inr ⟨first, before, y, after, rfl, later, found⟩
  · rintro (found | ⟨first, later⟩)
    · exact .of_head found xs
    · exact later.cons first

theorem not_firstFault_nil {d : δ} : ¬ FirstFault sound fault [] d := by
  rintro ⟨before, x, after, same, -⟩
  cases before <;> cases same

theorem exists_firstFault {xs : List α} (faulty : ∀ x, ¬ sound x → ∃ d, fault x d)
    (unsound : ¬ ∀ x ∈ xs, sound x) : ∃ d, FirstFault sound fault xs d := by
  induction xs with
  | nil => exact absurd (by simp) unsound
  | cons x xs ih =>
    by_cases first : sound x
    · have rest : ¬ ∀ y ∈ xs, sound y := fun h => unsound (List.forall_mem_cons.mpr ⟨first, h⟩)
      obtain ⟨d, later⟩ := ih rest
      exact ⟨d, later.cons first⟩
    · obtain ⟨d, found⟩ := faulty x first
      exact ⟨d, .of_head found xs⟩

/-- Reading gives its value for every sound element, and for the others exactly their faults. -/
structure Reads (f : α → Except δ β) (sound : α → Prop) (value : α → β)
    (fault : α → δ → Prop) : Prop where
  ok : ∀ x, sound x → f x = .ok (value x)
  error : ∀ x d, fault x d → f x = .error d
  faulty : ∀ x, ¬ sound x → ∃ d, fault x d

namespace Reads

theorem ok_iff (reads : Reads f sound value fault) {x : α} {y : β} :
    f x = .ok y ↔ sound x ∧ y = value x := by
  by_cases h : sound x
  · simp [reads.ok x h, h, eq_comm]
  · obtain ⟨d, found⟩ := reads.faulty x h
    simp [reads.error x d found, h]

theorem error_iff (reads : Reads f sound value fault) {x : α} {d : δ} :
    f x = .error d ↔ fault x d := by
  refine ⟨fun failed => ?_, reads.error x d⟩
  have unsound : ¬ sound x := fun h => by cases failed.symm.trans (reads.ok x h)
  obtain ⟨e, found⟩ := reads.faulty x unsound
  cases failed.symm.trans (reads.error x e found)
  exact found

theorem sound_iff (reads : Reads f sound value fault) {x : α} :
    (∃ y, f x = .ok y) ↔ sound x := by
  simp [reads.ok_iff]

theorem mapM (reads : Reads f sound value fault) :
    Reads (List.mapM f) (fun xs => ∀ x ∈ xs, sound x) (List.map value) (FirstFault sound fault) where
  ok xs h := by
    induction xs with
    | nil => rfl
    | cons x xs ih =>
      obtain ⟨first, later⟩ := List.forall_mem_cons.mp h
      rw [List.mapM_cons, reads.ok x first, ih later]
      rfl
  error xs d h := by
    obtain ⟨before, x, after, rfl, earlier, found⟩ := h
    induction before with
    | nil =>
      rw [List.nil_append, List.mapM_cons, reads.error x d found]
      rfl
    | cons y before ih =>
      obtain ⟨first, rest⟩ := List.forall_mem_cons.mp earlier
      rw [List.cons_append, List.mapM_cons, reads.ok y first, ih rest]
      rfl
  faulty _ := exists_firstFault reads.faulty

end Reads

theorem mapM_map_of_some {ι : Type} {g : ι → α} {read? : α → Option β} {value : ι → β} {xs : List ι}
    (reads : ∀ x ∈ xs, read? (g x) = some (value x)) :
    (xs.map g).mapM read? = some (xs.map value) := by
  induction xs with
  | nil => rfl
  | cons x xs ih =>
    obtain ⟨first, later⟩ := List.forall_mem_cons.mp reads
    rw [List.map_cons, List.mapM_cons, first, ih later]
    rfl

section Machines

variable {σ ι : Type} {step : σ → ι → Option σ} {s next : σ}

theorem foldlM_cons_of_some {x : ι} (first : step s x = some next) (xs : List ι) :
    (x :: xs).foldlM step s = xs.foldlM step next := by
  rw [List.foldlM_cons, first, Option.bind_eq_bind, Option.bind_some]

theorem foldlM_append_of_some {xs : List ι} (first : xs.foldlM step s = some next) (ys : List ι) :
    (xs ++ ys).foldlM step s = ys.foldlM step next := by
  rw [List.foldlM_append, first, Option.bind_eq_bind, Option.bind_some]

theorem foldlM_keeps {kept : σ → Prop} (keeps : ∀ s x next, step s x = some next → kept s → kept next)
    {xs : List ι} (run : xs.foldlM step s = some next) (start : kept s) : kept next := by
  induction xs generalizing s with
  | nil =>
    cases run
    exact start
  | cons x xs ih =>
    rw [List.foldlM_cons] at run
    obtain ⟨between, stepped, later⟩ := Option.bind_eq_some_iff.mp run
    exact ih later (keeps s x between stepped start)

end Machines

end GLHeader
