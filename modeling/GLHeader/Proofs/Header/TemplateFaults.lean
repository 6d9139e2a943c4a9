import GLHeader.Proofs.Header.Assembled
import GLHeader.Proofs.Template.Grammar
import GLHeader.Proofs.Text.Words

namespace GLHeader

open GLHeader.Text

namespace Template

def Alike (t u : Template) : Prop :=
  t.slots = u.slots ∧ ((t.unclosed = none ∧ u.unclosed = none) ∨
    t.last = u.last ∧ t.unclosed.isSome ∧ u.unclosed.isSome)

theorem Alike.symm {t u : Template} (alike : t.Alike u) : u.Alike t := by
  obtain ⟨slots, ⟨first, second⟩ | ⟨last, first, second⟩⟩ := alike
  · exact ⟨slots.symm, .inl ⟨second, first⟩⟩
  · exact ⟨slots.symm, .inr ⟨last.symm, second, first⟩⟩

theorem Alike.hasFault {t u : Template} {names : List String} {fault : Fault} (alike : t.Alike u)
    (found : HasFault names t fault) : HasFault names u fault := by
  obtain ⟨same, ended⟩ := alike
  cases found with
  | unknown slots earlier other => exact .unknown (same ▸ slots) earlier other
  | @unterminated inside known unclosed =>
    rcases ended with ⟨closed, -⟩ | ⟨last, -, later⟩
    · cases closed.symm.trans unclosed
    · obtain ⟨_, shown⟩ := Option.isSome_iff_exists.mp later
      have size : t.closedSize = u.closedSize := by rw [closedSize, closedSize, same, last]
      rw [size]
      exact .unterminated (same ▸ known) shown

theorem cut_append_blanks {x y : Char} {s b : List Char} (absent : cut [x, y] s = none)
    (blank : ∀ c ∈ b, isBlank c = true) (first : isBlank x = false) (second : isBlank y = false) :
    cut [x, y] (s ++ b) = none := by
  have apart : Apart x y s b := by
    rintro ⟨-, start⟩
    rw [blank y (List.mem_of_mem_head? start)] at second
    cases second
  have unmarked : cut [x, y] b = none := by
    rw [cut_eq_none_iff]
    intro inside
    rw [blank x (inside.subset List.mem_cons_self)] at first
    cases first
  rw [cut_append_of_none absent apart, unmarked]
  rfl

theorem alike_append_blanks {b : List Char} (blank : ∀ c ∈ b, isBlank c = true) (s : List Char) :
    (ofChars s).Alike (ofChars (s ++ b)) := by
  induction s using ofChars_induction with
  | plain s absent =>
    have longer : cut openingMark.toList (s ++ b) = none := cut_append_blanks absent blank rfl rfl
    rw [ofChars_of_none absent, ofChars_of_none longer]
    exact ⟨rfl, .inl ⟨rfl, rfl⟩⟩
  | unclosed s lead inside opened absent =>
    have longer : cut closingMark.toList (inside ++ b) = none := cut_append_blanks absent blank rfl rfl
    rw [ofChars_of_unclosed opened absent, ofChars_of_unclosed (cut_append opened b) longer]
    exact ⟨rfl, .inr ⟨rfl, rfl, rfl⟩⟩
  | slot s lead inside name rest opened closed ih =>
    rw [ofChars_of_slot opened closed, ofChars_of_slot (cut_append opened b) (cut_append closed b)]
    exact ⟨congrArg (List.cons _) ih.1, ih.2⟩

theorem fillTemplate_trimEnd_error_iff {s : String} {values : List (String × String)} {fault : Fault} :
    fillTemplate (trimEnd s) values = .error fault ↔ fillTemplate s values = .error fault := by
  obtain ⟨b, whole, blank⟩ := exists_trimEnd_append s
  have alike : (ofString (trimEnd s)).Alike (ofString s) := by
    rw [ofString, ofString, whole]
    exact alike_append_blanks blank _
  have faults {t : Template} := (reads_fill values).error_iff (x := t) (d := fault)
  exact faults.trans (.trans ⟨alike.hasFault, alike.symm.hasFault⟩ faults.symm)

end Template

namespace Header

open Template

structure Filling where
  names : List String
  template : String
deriving DecidableEq, Repr

namespace Filling

def Succeeds (f : Filling) : Prop :=
  ∀ values : List (String × String), values.map Prod.fst = f.names →
    ∃ text, fillTemplate f.template values = .ok text

def Fails (f : Filling) (fault : Fault) : Prop :=
  ∀ values : List (String × String), values.map Prod.fst = f.names →
    fillTemplate f.template values = .error fault

theorem fails_of_hasFault {f : Filling} {fault : Fault}
    (found : HasFault f.names (ofString f.template) fault) : f.Fails fault := by
  intro values named
  rw [← named] at found
  exact (reads_fill values).error _ _ found

theorem exists_fails (f : Filling) (unsound : ¬ f.Succeeds) : ∃ fault, f.Fails fault := by
  simp only [Succeeds, not_forall] at unsound
  obtain ⟨values, named, failed⟩ := unsound
  obtain ⟨fault, found⟩ := (reads_fill values).faulty (ofString f.template) fun sound =>
    failed ⟨_, (reads_fill values).ok _ sound⟩
  exact ⟨fault, fails_of_hasFault (named ▸ found)⟩

end Filling

def sectionNames : List String :=
  ["PROFILE", "VERSION", "GL_VERSION_DEF", "GL_TYPES", "GL_API_DEC", "GL_API_DEF", "GL_API_IMPL"]

def fragmentNames : List String := ["API_DEC", "API_DEF", "API_STATIC"]

/-- The fillings of a header in their order. Only the frame may name the other templates. -/
def Templates.fillings (t : Templates) : List Filling :=
  [⟨sectionNames, t.interface⟩, ⟨sectionNames, t.implementation⟩, ⟨sectionNames, t.support⟩,
    ⟨sectionNames ++ fragmentNames, t.skeleton⟩]

section Fragments

variable {template : String} (s : Sections) (version profile : String)

theorem fillFragment_of_succeeds (succeeds : Filling.Succeeds ⟨sectionNames, template⟩) :
    ∃ text, fillFragment template (s.values version profile) = .ok text := by
  obtain ⟨text, filled⟩ := succeeds (s.values version profile) rfl
  cases trimmed : fillFragment template (s.values version profile) with
  | ok text => exact ⟨text, rfl⟩
  | error fault =>
    have failed := fillTemplate_trimEnd_error_iff.mp trimmed
    cases failed.symm.trans filled

theorem fillFragment_of_fails {fault : Fault} (fails : Filling.Fails ⟨sectionNames, template⟩ fault) :
    fillFragment template (s.values version profile) = .error fault :=
  fillTemplate_trimEnd_error_iff.mpr (fails (s.values version profile) rfl)

end Fragments

section Outcome

variable {t : Templates} (s : Sections) (version profile : String)

theorem Templates.fill_of_firstFault {fault : Fault}
    (found : FirstFault Filling.Succeeds Filling.Fails t.fillings fault) :
    t.fill s version profile = .error fault := by
  simp only [fillings, firstFault_cons_iff, not_firstFault_nil, and_false, or_false] at found
  rcases found with fails | ⟨first, fails | ⟨second, fails | ⟨third, fails⟩⟩⟩
  · simp only [fill, fillFragment_of_fails s version profile fails, bind, Except.bind]
  · obtain ⟨interface, interfaced⟩ := fillFragment_of_succeeds s version profile first
    simp only [fill, interfaced, fillFragment_of_fails s version profile fails, bind, Except.bind]
  · obtain ⟨interface, interfaced⟩ := fillFragment_of_succeeds s version profile first
    obtain ⟨implementation, implemented⟩ := fillFragment_of_succeeds s version profile second
    simp only [fill, interfaced, implemented, fillFragment_of_fails s version profile fails, bind, Except.bind]
  · obtain ⟨interface, interfaced⟩ := fillFragment_of_succeeds s version profile first
    obtain ⟨implementation, implemented⟩ := fillFragment_of_succeeds s version profile second
    obtain ⟨support, supported⟩ := fillFragment_of_succeeds s version profile third
    rw [t.fill_of_ok s version profile interfaced implemented supported]
    exact fails _ rfl

theorem Templates.fill_of_succeed (succeed : ∀ f ∈ t.fillings, f.Succeeds) :
    ∃ text, t.fill s version profile = .ok text := by
  simp only [fillings, List.forall_mem_cons] at succeed
  obtain ⟨first, second, third, last, -⟩ := succeed
  obtain ⟨interface, interfaced⟩ := fillFragment_of_succeeds s version profile first
  obtain ⟨implementation, implemented⟩ := fillFragment_of_succeeds s version profile second
  obtain ⟨support, supported⟩ := fillFragment_of_succeeds s version profile third
  rw [t.fill_of_ok s version profile interfaced implemented supported]
  exact last _ rfl

end Outcome

theorem fails_of_fragmentName {fragment : String} {slot : Slot}
    (member : slot ∈ (ofString fragment).slots) (inner : slot.name ∈ fragmentNames) :
    ∃ name, HasFault sectionNames (ofString fragment) (.unknown name) ∧
      Filling.Fails ⟨sectionNames, fragment⟩ (.unknown name) := by
  have other : slot.name ∉ sectionNames := by
    have disjoint : ∀ name ∈ fragmentNames, name ∉ sectionNames := by decide
    exact disjoint slot.name inner
  obtain ⟨name, found⟩ := exists_unknown fun known => other (known slot member)
  exact ⟨name, found, Filling.fails_of_hasFault found⟩

/-- Either a header is made for every surface with all options, or all of them have the same fault: the
first one in the order of the fillings, whether or not the frame has a place for that template. The
builtin templates have none. A template inside the frame that names another one has its first other
name for its fault, and the blanks at its end have no influence on its fault. -/
theorem header_fault_by_templates (t : Templates) :
    ((∀ (s : Surface) (o : Options), ∃ text, ofSurface s t o = .ok text) ∨
      ∃ fault, ∀ (s : Surface) (o : Options), ofSurface s t o = .error fault) ∧
    (∀ (s : Surface) (o : Options), ∃ text, ofSurface s {} o = .ok text) ∧
    (∀ (s : Surface) (o : Options) (fault : Fault), ofSurface s t o = .error fault ↔
      FirstFault Filling.Succeeds Filling.Fails t.fillings fault) ∧
    (∀ fragment ∈ [t.interface, t.implementation, t.support], ∀ slot ∈ (ofString fragment).slots,
      slot.name ∈ fragmentNames → ∃ name, HasFault sectionNames (ofString fragment) (.unknown name) ∧
        Filling.Fails ⟨sectionNames, fragment⟩ (.unknown name)) ∧
    ∀ (fragment : String) (values : List (String × String)) (fault : Fault),
      fillTemplate (trimEnd fragment) values = .error fault ↔ fillTemplate fragment values = .error fault := by
  have faulty (fault : Fault) (found : FirstFault Filling.Succeeds Filling.Fails t.fillings fault)
      (s : Surface) (o : Options) : ofSurface s t o = .error fault :=
    Templates.fill_of_firstFault (sections s o) _ _ found
  refine ⟨?_, fun s o => ⟨_, ofSurface_builtin s o⟩, ?_, fun _ _ _ => fails_of_fragmentName,
    fun _ _ _ => fillTemplate_trimEnd_error_iff⟩
  · by_cases succeed : ∀ f ∈ t.fillings, f.Succeeds
    · exact .inl fun s o => Templates.fill_of_succeed (sections s o) _ _ succeed
    · obtain ⟨fault, found⟩ := exists_firstFault Filling.exists_fails succeed
      exact .inr ⟨fault, faulty fault found⟩
  · intro s o fault
    refine ⟨fun failed => ?_, fun found => faulty fault found s o⟩
    by_cases succeed : ∀ f ∈ t.fillings, f.Succeeds
    · obtain ⟨text, made⟩ :=
        Templates.fill_of_succeed (sections s o) s.target.version s.target.profile succeed
      cases made.symm.trans failed
    · obtain ⟨first, found⟩ := exists_firstFault Filling.exists_fails succeed
      have same := (faulty first found s o).symm.trans failed
      cases same
      exact found

end Header

end GLHeader
