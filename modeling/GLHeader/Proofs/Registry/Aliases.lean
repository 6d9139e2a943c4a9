import GLHeader.Proofs.Text.Words
import GLHeader.Registry

namespace GLHeader.Registry

open GLHeader.Text GLHeader.Xml

def aliasSource (e : Element) : String :=
  e.leadText ++ String.join ((elementsWithTails e.children).map fun (child, tail) =>
    aliasPart child ++ trim (tail.getD ""))

theorem typeAlias?_eq (e : Element) :
    typeAlias? e =
      if occurs "typedef" e.leadText then some (terminated (collapse (aliasSource e))) else none := by
  cases lead : e.leadText? with
  | none =>
    have same : e.leadText = "" := by simp [Element.leadText, lead]
    have unmarked : ¬ occurs "typedef" "" = true := by simp [occurs, cut]
    rw [typeAlias?, lead, same, if_neg unmarked]
    rfl
  | some text =>
    have same : e.leadText = text := by simp [Element.leadText, lead]
    rw [typeAlias?, lead, aliasSource, same]
    by_cases marked : occurs "typedef" text
    · have passes : (guard (occurs "typedef" text) : Option Unit) = some () := if_pos marked
      rw [if_pos marked, Option.bind_eq_bind, Option.bind_some, passes]
      rfl
    · have fails : (guard (occurs "typedef" text) : Option Unit) = none := if_neg marked
      rw [if_neg marked, Option.bind_eq_bind, Option.bind_some, fails]
      rfl

/-- A declaration that the registry reads from some type element. -/
def IsAlias (t : String) : Prop := ∃ e, typeAlias? e = some t

theorem isAlias_of_mem {root : Element} {t : String} (member : t ∈ typesOf root) : IsAlias t := by
  obtain ⟨e, -, read⟩ := List.mem_filterMap.mp member
  exact ⟨e, read⟩

theorem IsAlias.eq_terminated {t : String} (h : IsAlias t) : ∃ s, t = terminated (collapse s) := by
  obtain ⟨e, read⟩ := h
  rw [typeAlias?_eq] at read
  split at read
  · exact ⟨_, (Option.some.inj read).symm⟩
  · cases read

theorem IsAlias.ne_empty {t : String} (h : IsAlias t) : t ≠ "" := by
  obtain ⟨s, rfl⟩ := h.eq_terminated
  unfold terminated
  split
  · rename_i last
    intro empty
    rw [empty] at last
    cases last
  · simp

theorem oneLine_terminated {s : String} (h : OneLine s) : OneLine (terminated s) := by
  unfold terminated
  split
  · exact h
  · exact oneLine_append.mpr ⟨h, by decide⟩

theorem IsAlias.oneLine {t : String} (h : IsAlias t) : OneLine t := by
  obtain ⟨s, rfl⟩ := h.eq_terminated
  exact oneLine_terminated (oneLine_collapse s)

theorem head_terminated {s : String} {c : Char} (start : s.toList.head? = some c) :
    (terminated s).toList.head? = some c := by
  unfold terminated
  split
  · exact start
  · obtain ⟨rest, same⟩ := List.head?_eq_some_iff.mp start
    simp [same]

theorem IsAlias.head_solid {t : String} (h : IsAlias t) {c : Char} (start : t.toList.head? = some c) :
    isBlank c = false := by
  obtain ⟨s, rfl⟩ := h.eq_terminated
  unfold terminated at start
  split at start
  · exact head_collapse start
  · cases chars : (collapse s).toList with
    | nil =>
      simp [chars] at start
      exact start ▸ rfl
    | cons d rest =>
      simp [chars] at start
      exact start ▸ head_collapse (by rw [chars]; rfl)

end GLHeader.Registry
