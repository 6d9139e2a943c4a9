import GLHeader.Header.Sections
import GLHeader.Proofs.Preprocessor.Run
import GLHeader.Proofs.Surface.Placement
import Mathlib.Data.List.TakeWhile

namespace GLHeader

open GLHeader.Text GLHeader.Preprocessor GLHeader.Xml

namespace Preprocessor

theorem directive?_eq_none_iff {line : List Char} :
    directive? line = none ↔ (line.dropWhile isBlank).head? ≠ some '#' := by
  refine ⟨fun unread start => ?_, directive?_plain⟩
  obtain ⟨rest, same⟩ := List.head?_eq_some_iff.mp start
  rw [directive?, same] at unread
  cases unread

end Preprocessor

namespace Registry

/-- The declaration of a type element would begin like a directive. -/
def IsGuarded (e : Element) : Prop :=
  occurs "typedef" e.leadText ∧ (e.leadText.toList.dropWhile isBlank).head? = some '#'

theorem dropWhile_ne_nil_of_occurs {s : String} (marked : occurs "typedef" s) :
    s.toList.dropWhile isBlank ≠ [] := by
  obtain ⟨⟨before, after⟩, found⟩ := Option.isSome_iff_exists.mp marked
  intro blank
  rw [List.dropWhile_eq_nil_iff, eq_append_of_cut found] at blank
  have letter := blank 't' (by simp)
  exact absurd letter (by decide)

theorem head_alias {e : Element} (marked : occurs "typedef" e.leadText) :
    (collapse (aliasSource e)).toList.head? = (e.leadText.toList.dropWhile isBlank).head? := by
  have shown := dropWhile_ne_nil_of_occurs marked
  rw [head_collapse_eq, aliasSource, String.toList_append, List.dropWhile_append, if_neg (by simpa using shown)]
  exact List.head?_append_of_ne_nil _ shown

theorem starts_of_typeAlias? {e : Element} {t : String} (read : typeAlias? e = some t) :
    t.toList.head? = some '#' ↔ IsGuarded e := by
  rw [typeAlias?_eq] at read
  split at read
  · rename_i marked
    obtain rfl := Option.some.inj read
    obtain ⟨c, start⟩ : ∃ c, (collapse (aliasSource e)).toList.head? = some c := by
      rw [head_alias marked, ← Option.isSome_iff_exists, List.isSome_head?]
      exact dropWhile_ne_nil_of_occurs marked
    rw [head_terminated start, IsGuarded, ← head_alias marked, start]
    exact (and_iff_right marked).symm
  · cases read

theorem typesOf_plain_iff (root : Element) :
    (∀ t ∈ typesOf root, t.toList.head? ≠ some '#') ↔ ∀ e ∈ Surface.typeElements root, ¬ IsGuarded e := by
  constructor
  · intro plain e member guarded
    have read : typeAlias? e = some (terminated (collapse (aliasSource e))) := by
      rw [typeAlias?_eq, if_pos guarded.1]
    exact plain _ (List.mem_filterMap.mpr ⟨e, member, read⟩) ((starts_of_typeAlias? read).mpr guarded)
  · intro unguarded t member start
    obtain ⟨e, inside, read⟩ := List.mem_filterMap.mp member
    exact unguarded e inside ((starts_of_typeAlias? read).mp start)

theorem directive?_alias_iff {t : String} (h : IsAlias t) :
    directive? t.toList = none ↔ t.toList.head? ≠ some '#' := by
  rw [directive?_eq_none_iff]
  cases chars : t.toList with
  | nil => rfl
  | cons c rest =>
    have solid : isBlank c = false := h.head_solid (by rw [chars]; rfl)
    rw [List.dropWhile_cons_of_neg (by simp [solid])]

theorem lines_types (root : Element) : lines ("\n".intercalate (typesOf root)) = typesOf root :=
  lines_intercalate (fun _ member => (isAlias_of_mem member).oneLine)
    fun _ member => (isAlias_of_mem member).ne_empty

/-- Type declarations are free of directives, as they stand in a registry and as a header prints them,
exactly where no type element is guarded. -/
theorem types_free_of_directives_iff (root : Element) :
    ((∀ t ∈ typesOf root, t.toList.head? ≠ some '#') ↔ ∀ e ∈ Surface.typeElements root, ¬ IsGuarded e) ∧
      ∀ (s : Surface) (o : Header.Options),
        (∀ line ∈ lines (Header.sections { s with types := typesOf root } o).types,
          directive? line.toList = none) ↔ ∀ e ∈ Surface.typeElements root, ¬ IsGuarded e := by
  refine ⟨typesOf_plain_iff root, fun s o => ?_⟩
  have printed : lines (Header.sections { s with types := typesOf root } o).types = typesOf root :=
    lines_types root
  rw [printed, ← typesOf_plain_iff]
  exact forall₂_congr fun t member => directive?_alias_iff (isAlias_of_mem member)

def conditionalType : Element :=
  ⟨"registry", [], [.element "types" [] [.element "type" [] [.text "#ifdef A\ntypedef int ",
    .element "name" [] [.text "T"], .text ";\n#endif"]]]⟩

/-- A conditional is not left out. It becomes one line, which opens what nothing closes. -/
theorem conditional_type_kept :
    (¬ ∀ t ∈ typesOf conditionalType, t.toList.head? ≠ some '#') ∧
      typesOf conditionalType = ["#ifdef A typedef int T; #endif;"] ∧ ¬ Balanced (typesOf conditionalType) := by
  have read : typesOf conditionalType = ["#ifdef A typedef int T; #endif;"] := by decide +kernel
  rw [read]
  exact ⟨by decide, rfl, by decide⟩

end Registry

end GLHeader
