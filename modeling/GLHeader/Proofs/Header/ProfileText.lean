import GLHeader.Proofs.Header.TemplateFaults
import GLHeader.Proofs.Surface.Exposure
import Mathlib.Algebra.BigOperators.Group.List.Basic
import Mathlib.Algebra.GroupWithZero.Nat

namespace GLHeader

open GLHeader.Text

namespace Text

/-- The text for an argument is the argument in so many gaps between pieces that do not depend on it. -/
def HasGaps (count : Nat) (text : String → String) : Prop :=
  ∃ pieces : List String, pieces.length = count + 1 ∧ ∀ argument, text argument = argument.intercalate pieces

theorem HasGaps.constant (s : String) : HasGaps 0 fun _ => s := ⟨[s], rfl, fun _ => by simp⟩

theorem HasGaps.argument : HasGaps 1 fun argument => argument :=
  ⟨["", ""], rfl, fun argument => by simp [String.intercalate_cons_cons]⟩

theorem intercalate_append_cons (separator a b : String) (before after : List String) :
    separator.intercalate (before ++ (a ++ b) :: after) =
      separator.intercalate (before ++ [a]) ++ separator.intercalate (b :: after) := by
  induction before with
  | nil => cases after <;> simp [String.intercalate_cons_cons, String.append_assoc]
  | cons piece before ih =>
    cases before <;> simp_all [String.intercalate_cons_cons, String.append_assoc]

theorem HasGaps.append {m n : Nat} {text other : String → String} (first : HasGaps m text)
    (second : HasGaps n other) : HasGaps (m + n) fun argument => text argument ++ other argument := by
  obtain ⟨pieces, length, written⟩ := first
  obtain ⟨more, size, spelled⟩ := second
  obtain ⟨before, a, rfl⟩ := (List.eq_nil_or_concat' pieces).resolve_left (by rintro rfl; cases length)
  obtain ⟨b, after, rfl⟩ := List.exists_cons_of_length_eq_add_one size
  -- The last piece of the first text and the first piece of the second become one.
  refine ⟨before ++ (a ++ b) :: after, ?_, fun argument => ?_⟩
  · simp only [List.length_append, List.length_cons, List.length_nil] at length size ⊢
    omega
  · simp only [written, spelled, intercalate_append_cons]

theorem HasGaps.join {ι : Type} {count : ι → Nat} {text : ι → String → String} {xs : List ι}
    (each : ∀ x ∈ xs, HasGaps (count x) (text x)) :
    HasGaps (xs.map count).sum fun argument => String.join (xs.map fun x => text x argument) := by
  induction xs with
  | nil => exact .constant ""
  | cons x xs ih =>
    obtain ⟨first, later⟩ := List.forall_mem_cons.mp each
    simp only [List.map_cons, List.sum_cons, String.join_cons]
    exact first.append (ih later)

end Text

namespace Template

def filled (t : Template) (values : List (String × String)) : String :=
  String.join (t.slots.map fun slot => slot.lead ++ (values.lookup slot.name).getD "") ++ t.last

theorem hasGaps_filled (t : Template) {values : String → List (String × String)} {count : String → Nat}
    (gaps : ∀ name, HasGaps (count name) fun argument => ((values argument).lookup name).getD "") :
    HasGaps (t.slots.map fun slot => count slot.name).sum fun argument => t.filled (values argument) := by
  have slots : HasGaps (t.slots.map fun slot => count slot.name).sum fun argument =>
      String.join (t.slots.map fun slot => slot.lead ++ ((values argument).lookup slot.name).getD "") := by
    refine HasGaps.join fun slot _ => ?_
    have whole := (HasGaps.constant slot.lead).append (gaps slot.name)
    rwa [Nat.zero_add] at whole
  exact slots.append (.constant t.last)

theorem slots_trimEnd (s : String) : (ofString (trimEnd s)).slots = (ofString s).slots := by
  obtain ⟨b, whole, blank⟩ := exists_trimEnd_append s
  have alike := alike_append_blanks blank (trimEnd s).toList
  rw [← whole] at alike
  exact alike.1

end Template

namespace Header

open Template

def profilePlaces (template : String) : Nat := ((ofString template).slots.filter (·.name == "PROFILE")).length

def Templates.inner (t : Templates) : List (String × String) :=
  [("API_DEC", t.interface), ("API_DEF", t.implementation), ("API_STATIC", t.support)]

/-- How often a header has the profile: as often as the frame has its placeholder, and once more for each
one in a template that the frame holds, as often as the frame holds it. -/
def Templates.profilePlaces (t : Templates) : Nat :=
  Header.profilePlaces t.skeleton + ((ofString t.skeleton).slots.map fun slot =>
    ((t.inner.lookup slot.name).map Header.profilePlaces).getD 0).sum

theorem sum_isProfile (slots : List Slot) :
    (slots.map fun slot => if slot.name = "PROFILE" then 1 else 0).sum =
      (slots.filter (·.name == "PROFILE")).length := by
  induction slots with
  | nil => rfl
  | cons slot slots ih =>
    rw [List.map_cons, List.sum_cons, ih]
    by_cases own : slot.name = "PROFILE"
    · simp [own, Nat.add_comm]
    · simp [own]

section Values

variable (s : Sections) (version : String)

theorem hasGaps_value (name : String) : HasGaps (if name = "PROFILE" then 1 else 0) fun profile =>
    ((s.values version profile).lookup name).getD "" := by
  by_cases own : name = "PROFILE"
  · subst own
    exact .argument
  · have other (profile : String) :
        (s.values version profile).lookup name = (s.values version "").lookup name := by
      simp only [Sections.values, List.lookup_cons, beq_false_of_ne own]
    simp only [other, own, if_false]
    exact .constant _

theorem fillFragment_gaps {template : String}
    (succeeds : Filling.Succeeds ⟨sectionNames, template⟩) :
    ∃ text : String → String, (∀ profile, fillFragment template (s.values version profile) = .ok (text profile)) ∧
      HasGaps (profilePlaces template) text := by
  refine ⟨fun profile => (ofString (trimEnd template)).filled (s.values version profile), ?_, ?_⟩
  · intro profile
    obtain ⟨text, made⟩ := fillFragment_of_succeeds s version profile succeeds
    obtain ⟨-, same⟩ := (reads_fill _).ok_iff.mp made
    exact made.trans (congrArg Except.ok same)
  · have gaps := hasGaps_filled (ofString (trimEnd template)) (hasGaps_value s version)
    rwa [slots_trimEnd, sum_isProfile] at gaps

theorem hasGaps_inner (t : Templates) {interface implementation support : String → String}
    (first : HasGaps (profilePlaces t.interface) interface)
    (second : HasGaps (profilePlaces t.implementation) implementation)
    (third : HasGaps (profilePlaces t.support) support) (name : String) :
    HasGaps ((if name = "PROFILE" then 1 else 0) + ((t.inner.lookup name).map profilePlaces).getD 0)
      fun profile => ((s.values version profile ++ [("API_DEC", interface profile),
        ("API_DEF", implementation profile), ("API_STATIC", support profile)]).lookup name).getD "" := by
  by_cases inner : name ∈ fragmentNames
  · have counted {places : Nat} {text : String → String} (gaps : HasGaps places text) :
        HasGaps (0 + places) text := by rwa [Nat.zero_add]
    simp only [fragmentNames, List.mem_cons, List.not_mem_nil, or_false] at inner
    rcases inner with rfl | rfl | rfl
    · exact counted first
    · exact counted second
    · exact counted third
  · have absent (texts : List (String × String)) (named : texts.map Prod.fst = fragmentNames) :
        texts.lookup name = none := by
      rw [← Option.not_isSome_iff_eq_none, isSome_lookup_iff, IsKey, named]
      exact inner
    have bare := absent t.inner rfl
    have unfilled (profile : String) := absent [("API_DEC", interface profile),
      ("API_DEF", implementation profile), ("API_STATIC", support profile)] rfl
    simp only [List.lookup_append, bare, unfilled, Option.or_none]
    exact hasGaps_value s version name

end Values

theorem fill_by_profile (t : Templates) (s : Sections) (version : String) :
    (∃ fault, ∀ profile, t.fill s version profile = .error fault) ∨
      ∃ text, HasGaps t.profilePlaces text ∧ ∀ profile, t.fill s version profile = .ok (text profile) := by
  by_cases succeed : ∀ f ∈ t.fillings, f.Succeeds
  · simp only [Templates.fillings, List.forall_mem_cons] at succeed
    obtain ⟨first, second, third, last, -⟩ := succeed
    obtain ⟨interface, interfaced, interfaceGaps⟩ := fillFragment_gaps s version first
    obtain ⟨implementation, implemented, implementationGaps⟩ := fillFragment_gaps s version second
    obtain ⟨support, supported, supportGaps⟩ := fillFragment_gaps s version third
    have gaps := hasGaps_filled (ofString t.skeleton)
      (hasGaps_inner s version t interfaceGaps implementationGaps supportGaps)
    -- The places of the frame itself, and those of the templates it holds.
    rw [List.sum_map_add, sum_isProfile] at gaps
    refine .inr ⟨_, gaps, fun profile => ?_⟩
    rw [t.fill_of_ok s version profile (interfaced profile) (implemented profile) (supported profile)]
    obtain ⟨text, made⟩ := last (s.values version profile ++ [("API_DEC", interface profile),
      ("API_DEF", implementation profile), ("API_STATIC", support profile)]) rfl
    obtain ⟨-, same⟩ := (reads_fill _).ok_iff.mp made
    exact made.trans (congrArg Except.ok same)
  · obtain ⟨fault, found⟩ := exists_firstFault Filling.exists_fails succeed
    exact .inl ⟨fault, fun profile => Templates.fill_of_firstFault s version profile found⟩

end Header

open Header

def headerFrom (document : String) (target : Target) (t : Templates) (o : Options) : Except Failure String := do
  (← Surface.ofDocument document target).header t o

/-- A header from a document fails in the same way for every profile, or it is one text with the profile
in its gaps, however the profile looks: one gap for each of its placeholders in the frame and in the
templates that the frame holds. The surface has the profile in its target and nowhere else. -/
theorem header_of_profile (document api version : String) (t : Templates) (o : Options) :
    ((∃ failure, ∀ profile, headerFrom document ⟨api, version, profile⟩ t o = .error failure) ∨
      ∃ pieces : List String, pieces.length = t.profilePlaces + 1 ∧
        ∀ profile, headerFrom document ⟨api, version, profile⟩ t o = .ok (profile.intercalate pieces)) ∧
    ∀ profile other, Surface.ofDocument document ⟨api, version, other⟩ =
      (Surface.ofDocument document ⟨api, version, profile⟩).map fun s =>
        { s with target := { s.target with profile := other } } := by
  rcases Surface.ofDocument_by_api document api with ⟨failure, failed⟩ | ⟨root, -, built⟩
  · refine ⟨.inl ⟨failure, fun profile => ?_⟩, fun profile other => ?_⟩
    · rw [headerFrom, failed]
      rfl
    · rw [failed, failed]
      rfl
  · refine ⟨?_, fun profile other => ?_⟩
    · -- The sections of a surface do not look at its target.
      have header (profile : String) : headerFrom document ⟨api, version, profile⟩ t o =
          (t.fill (sections (Surface.exposed root ⟨api, version, ""⟩) o) version profile).mapError .template := by
        rw [headerFrom, built]
        rfl
      rcases fill_by_profile t (sections (Surface.exposed root ⟨api, version, ""⟩) o) version with
        ⟨fault, failed⟩ | ⟨text, ⟨pieces, length, written⟩, filled⟩
      · exact .inl ⟨.template fault, fun profile => by rw [header, failed]; rfl⟩
      · exact .inr ⟨pieces, length, fun profile => by rw [header, filled, written]; rfl⟩
    · rw [built, built]
      rfl

example : Templates.profilePlaces ⟨"\x7b_PROFILE_\x7d\x7b_API_DEC_\x7d\x7b_API_DEC_\x7d", "(\x7b_PROFILE_\x7d) ",
    "\x7b_PROFILE_\x7d", ""⟩ = 3 := by decide +kernel

end GLHeader
