import GLHeader.Header.Templates
import GLHeader.Proofs.Header.Assembled
import GLHeader.Proofs.Template.Grammar

namespace GLHeader

open GLHeader.Text

namespace Template

def spliceSlot (fragments : List (String × String)) (slot : Slot) : String :=
  match fragments.lookup slot.name with
  | some fragment => slot.lead ++ fragment
  | none => Slot.text slot

/-- The text of a template without an unclosed opening mark, with fragments in it. -/
def splice (fragments : List (String × String)) (slots : List Slot) (last : String) : String :=
  String.join (slots.map (spliceSlot fragments)) ++ last

/-- The ends of the inserted texts. Each is given by what stands before it and after it. -/
inductive SplicePoint (fragments : List (String × String)) (last : String) :
    List Slot → String → String → Prop where
  | start {slot : Slot} {later : List Slot} {fragment : String}
      (named : fragments.lookup slot.name = some fragment) :
      SplicePoint fragments last (slot :: later) slot.lead (fragment ++ splice fragments later last)
  | stop {slot : Slot} {later : List Slot} {fragment : String}
      (named : fragments.lookup slot.name = some fragment) :
      SplicePoint fragments last (slot :: later) (slot.lead ++ fragment) (splice fragments later last)
  | later {slot : Slot} {later : List Slot} {before after : String}
      (point : SplicePoint fragments last later before after) :
      SplicePoint fragments last (slot :: later) (spliceSlot fragments slot ++ before) after

/-- No opening mark in the text stands across a splice point. -/
def IsSeamless (fragments : List (String × String)) (slots : List Slot) (last : String) : Prop :=
  ∀ lead rest, splice fragments slots last = lead ++ openingMark ++ rest →
    ¬ SplicePoint fragments last slots (lead ++ "\x7b") ("_" ++ rest)

section Splice

variable {fragments : List (String × String)} {slots : List Slot} {last : String}

theorem splice_cons (slot : Slot) :
    splice fragments (slot :: slots) last = spliceSlot fragments slot ++ splice fragments slots last := by
  simp [splice, String.append_assoc]

theorem spliceSlot_of_some {slot : Slot} {fragment : String}
    (named : fragments.lookup slot.name = some fragment) :
    spliceSlot fragments slot = slot.lead ++ fragment := by
  rw [spliceSlot, named]

theorem spliceSlot_of_none {slot : Slot} (other : fragments.lookup slot.name = none) :
    spliceSlot fragments slot = Slot.text slot := by
  rw [spliceSlot, other]

theorem SplicePoint.whole {before after : String}
    (point : SplicePoint fragments last slots before after) :
    before ++ after = splice fragments slots last := by
  induction point with
  | start named => rw [splice_cons, spliceSlot_of_some named, String.append_assoc]
  | stop named => rw [splice_cons, spliceSlot_of_some named]
  | later _ ih => rw [splice_cons, ← ih, String.append_assoc]

theorem SplicePoint.apart {before after : String}
    (point : SplicePoint fragments last slots before after) (seamless : IsSeamless fragments slots last) :
    Apart '{' '_' before.toList after.toList := by
  rintro ⟨ended, started⟩
  obtain ⟨lead, first⟩ := List.getLast?_eq_some_iff.mp ended
  obtain ⟨rest, second⟩ := List.head?_eq_some_iff.mp started
  have left : before = .ofList lead ++ "\x7b" := by simp [← String.toList_inj, first]
  have right : after = "_" ++ .ofList rest := by simp [← String.toList_inj, second]
  have marked : before ++ after = .ofList lead ++ openingMark ++ .ofList rest := by
    rw [left, right]
    simp [← String.toList_inj, openingMark]
  refine seamless (.ofList lead) (.ofList rest) (point.whole.symm.trans marked) ?_
  rw [← left, ← right]
  exact point

end Splice

variable {values : List (String × String)}

theorem following_closed {t : Template} (closed : t.unclosed = none) (first second : Nat)
    (before : String) :
    following first before (t.fill values) = following second before (t.fill values) := by
  cases result : t.fill values with
  | ok text => rfl
  | error fault =>
    cases (reads_fill values).error_iff.mp result with
    | unknown => rfl
    | unterminated _ unclosed => cases closed.symm.trans unclosed

def Filled (values fragments texts : List (String × String)) : Prop :=
  List.Forall₂ (fun fragment text => text.1 = fragment.1 ∧ fillTemplate fragment.2 values = .ok text.2)
    fragments texts

section Filled

variable {fragments texts : List (String × String)} (filled : Filled values fragments texts)
include filled

theorem lookup_of_none {name : String} (other : fragments.lookup name = none) :
    texts.lookup name = none := by
  induction filled with
  | nil => rfl
  | @cons fragment text fragments texts same _ ih =>
    obtain ⟨named, -⟩ := same
    rw [List.lookup_cons] at other ⊢
    rw [named]
    split at other
    · cases other
    · exact ih other

theorem lookup_of_some {name fragment : String} (named : fragments.lookup name = some fragment) :
    ∃ text, texts.lookup name = some text ∧ fillTemplate fragment values = .ok text := by
  induction filled with
  | nil => cases named
  | @cons head text fragments texts same _ ih =>
    obtain ⟨key, whole⟩ := same
    rw [List.lookup_cons] at named ⊢
    rw [key]
    split at named
    · cases named
      exact ⟨text.2, rfl, whole⟩
    · exact ih named

theorem fillTemplate_splice (other : ∀ fragment ∈ fragments, values.lookup fragment.1 = none)
    {slots : List Slot} {last : String} (proper : IsProper ⟨slots, last, none⟩)
    (apart : ∀ before after, SplicePoint fragments last slots before after →
      Apart '{' '_' before.toList after.toList) :
    fillTemplate (splice fragments slots last) values = fill ⟨slots, last, none⟩ (values ++ texts) := by
  have literal {s : String} (plain : Lacks openingMark s) : fillTemplate s values = .ok s :=
    fillTemplate_literal (occurs_eq_false_iff.mpr (lacks_iff.mp plain))
  induction slots with
  | nil =>
    have whole : splice fragments [] last = last := by simp [splice]
    rw [whole, literal proper.last]
    simp [fill, pure, Except.pure, bind, Except.bind]
  | cons slot slots ih =>
    have rest := ih proper.later fun before after point => by
      have longer := apart _ _ (.later point)
      rw [String.toList_append] at longer
      exact longer.of_append
    have lead := proper.leads slot List.mem_cons_self
    rw [splice_cons, fill_cons slot ⟨slots, last, none⟩]
    cases named : fragments.lookup slot.name with
    | none =>
      -- The placeholder stays, and its value is the same in both fillings.
      have same : fillSlot (values ++ texts) slot = fillSlot values slot := by
        rw [fillSlot, fillSlot, List.lookup_append, lookup_of_none filled named, Option.or_none]
      rw [spliceSlot_of_none named, fillTemplate, ofString_slot lead (proper.names slot List.mem_cons_self),
        fill_cons, ← fillTemplate, rest, same]
    | some fragment =>
      obtain ⟨text, found, whole⟩ := lookup_of_some filled named
      have unlisted : values.lookup slot.name = none := by
        obtain ⟨earlier, later, rfl, -⟩ := List.lookup_eq_some_iff.mp named
        exact other (slot.name, fragment) (by simp)
      have first := apart _ _ (.start named)
      have second : Apart '{' '_' fragment.toList (splice fragments slots last).toList := by
        have longer := apart _ _ (.stop named)
        rw [String.toList_append] at longer
        exact longer.of_append
      have value : fillSlot (values ++ texts) slot = .ok (slot.lead ++ text) := by
        rw [fillSlot, List.lookup_append, unlisted, Option.none_or, found]
      rw [spliceSlot_of_some named, String.append_assoc, fillTemplate_append first (literal lead),
        fillTemplate_append second whole, following_following, rest, value]
      exact following_closed rfl _ _ _

end Filled

end Template

namespace Header

open Template

def Templates.fragments (t : Templates) : List (String × String) :=
  [("API_DEC", trimEnd t.interface), ("API_DEF", trimEnd t.implementation),
    ("API_STATIC", trimEnd t.support)]

def Templates.spliced (t : Templates) : String :=
  splice t.fragments (ofString t.skeleton).slots (ofString t.skeleton).last

/-- Filling the other templates first and the frame with what they give is filling all of it at once,
where the frame is closed and no opening mark stands across an end of an inserted template. -/
theorem fill_eq_spliced {t : Templates} {s : Sections} {version profile : String}
    (filled : ∀ fragment ∈ t.fragments, ∃ text,
      fillTemplate fragment.2 (s.values version profile) = .ok text)
    (closed : (ofString t.skeleton).unclosed = none)
    (seamless : IsSeamless t.fragments (ofString t.skeleton).slots (ofString t.skeleton).last) :
    t.fill s version profile = fillTemplate t.spliced (s.values version profile) ∧
      ((∃ text, t.fill s version profile = .ok text) ∨
        ∃ name, t.fill s version profile = .error (.unknown name)) := by
  simp only [Templates.fragments, List.forall_mem_cons] at filled
  obtain ⟨⟨interface, interfaced⟩, ⟨implementation, implemented⟩, ⟨support, supported⟩, -⟩ :=
    filled
  have texts : Filled (s.values version profile) t.fragments
      [("API_DEC", interface), ("API_DEF", implementation), ("API_STATIC", support)] :=
    .cons ⟨rfl, interfaced⟩ (.cons ⟨rfl, implemented⟩ (.cons ⟨rfl, supported⟩ .nil))
  have other : ∀ fragment ∈ t.fragments, (s.values version profile).lookup fragment.1 = none := by
    simp only [Templates.fragments, List.forall_mem_cons]
    exact ⟨rfl, rfl, rfl, List.forall_mem_nil _⟩
  have skeleton : Template.mk (ofString t.skeleton).slots (ofString t.skeleton).last none =
      ofString t.skeleton := by
    rw [← closed]
  have proper := (eq_ofString_iff.mp skeleton).1
  have once := fillTemplate_splice texts other proper fun before after point => point.apart seamless
  have twice := t.fill_of_ok s version profile interfaced implemented supported
  constructor
  · rw [twice, fillTemplate, ← skeleton]
    exact once.symm
  · cases result : t.fill s version profile with
    | ok text => exact .inl ⟨text, rfl⟩
    | error fault =>
      rw [twice] at result
      cases (reads_fill _).error_iff.mp result with
      | unknown => exact .inr ⟨_, rfl⟩
      | unterminated _ unclosed => cases closed.symm.trans unclosed

theorem fill_eq_spliced_repeated :
    let t : Templates := ⟨"\x7b_API_DEC_\x7d|\x7b_API_STATIC_\x7d\x7b_API_DEC_\x7d", "v\x7b_VERSION_\x7d \n",
      "unused", ""⟩
    let values := Sections.values ⟨"", "", "", "", ""⟩ "\x7b_PROFILE_\x7d" "core"
    (∀ fragment ∈ t.fragments, ∃ text, fillTemplate fragment.2 values = .ok text) ∧
      (ofString t.skeleton).unclosed = none ∧
      IsSeamless t.fragments (ofString t.skeleton).slots (ofString t.skeleton).last ∧
      t.spliced = "v\x7b_VERSION_\x7d|v\x7b_VERSION_\x7d" ∧
      t.fill ⟨"", "", "", "", ""⟩ "\x7b_PROFILE_\x7d" "core" = fillTemplate t.spliced values ∧
      fillTemplate t.spliced values = .ok "v\x7b_PROFILE_\x7d|v\x7b_PROFILE_\x7d" := by
  intro t values
  have fragments : t.fragments =
      [("API_DEC", "v\x7b_VERSION_\x7d"), ("API_DEF", "unused"), ("API_STATIC", "")] := by
    decide +kernel
  have skeleton : ofString t.skeleton =
      ⟨[⟨"", "API_DEC"⟩, ⟨"|", "API_STATIC"⟩, ⟨"", "API_DEC"⟩], "", none⟩ := by
    decide +kernel
  have filled : ∀ fragment ∈ t.fragments, ∃ text, fillTemplate fragment.2 values = .ok text := by
    simp only [fragments, List.forall_mem_cons]
    exact ⟨⟨"v\x7b_PROFILE_\x7d", by decide +kernel⟩, ⟨"unused", by decide +kernel⟩,
      ⟨"", by decide +kernel⟩, List.forall_mem_nil _⟩
  have closed : (ofString t.skeleton).unclosed = none := by rw [skeleton]
  have spliced : t.spliced = "v\x7b_VERSION_\x7d|v\x7b_VERSION_\x7d" := by
    rw [Templates.spliced, fragments, skeleton]
    decide
  -- No text before a splice point ends in a brace.
  have solid : ∀ before after, SplicePoint t.fragments (ofString t.skeleton).last
      (ofString t.skeleton).slots before after → before.toList.getLast? ≠ some '{' := by
    rw [fragments, skeleton]
    intro before after point
    cases point with
    | start named => decide
    | stop named => cases named; decide
    | later point =>
      cases point with
      | start named => decide
      | stop named => cases named; decide
      | later point =>
        cases point with
        | start named => decide
        | stop named => cases named; decide
        | later point => cases point
  have seamless : IsSeamless t.fragments (ofString t.skeleton).slots (ofString t.skeleton).last := by
    intro lead rest _ point
    exact solid _ _ point (by simp)
  refine ⟨filled, closed, seamless, spliced, (fill_eq_spliced filled closed seamless).1, ?_⟩
  rw [spliced]
  decide +kernel

end Header

end GLHeader
