import GLHeader.Proofs.Preprocessor.Directive
import Mathlib.Logic.Function.Basic

namespace GLHeader.Preprocessor

abbrev Macros := String → Bool

def holds (macros : Macros) (condition : Condition) : Bool :=
  condition.any fun tests => tests.all fun test => macros test.name == test.wanted

/-- An open conditional. It is settled when none of its later branches may count. -/
structure Frame where
  active : Bool
  settled : Bool
deriving DecidableEq, Repr

/-- The macros that are defined and the open conditionals, the innermost first. -/
structure State where
  macros : Macros
  frames : List Frame

def State.isActive (s : State) : Bool := s.frames.all (·.active)

def State.step? (s : State) : Option Directive → Option State
  | none | some .other => some s
  | some (.opening condition) =>
    if s.isActive then
      condition.map fun c =>
        { s with frames := ⟨holds s.macros c, holds s.macros c⟩ :: s.frames }
    else some { s with frames := ⟨false, true⟩ :: s.frames }
  | some (.alternative condition) =>
    match s.frames with
    | [] => none
    | frame :: outer =>
      if frame.settled then some { s with frames := ⟨false, true⟩ :: outer }
      else condition.map fun c => { s with frames := ⟨holds s.macros c, holds s.macros c⟩ :: outer }
  | some .otherwise =>
    match s.frames with
    | [] => none
    | frame :: outer => some { s with frames := ⟨!frame.settled, true⟩ :: outer }
  | some .closing =>
    match s.frames with
    | [] => none
    | _ :: outer => some { s with frames := outer }
  | some (.define name) =>
    some (if s.isActive then { s with macros := Function.update s.macros name true } else s)
  | some (.undefine name) =>
    some (if s.isActive then { s with macros := Function.update s.macros name false } else s)
  | some .error => if s.isActive then none else some s

def isConditional : Option Directive → Bool
  | some (.opening _) | some (.alternative _) | some .otherwise | some .closing => true
  | _ => false

def State.keeps (s : State) (line : String) : Bool :=
  s.isActive && !isConditional (directive? line.toList)

/-- The state after some lines, and the lines that are kept. Conditional directives must match, and no
unread condition and no error directive may count. -/
def run (s : State) : List String → Option (State × List String)
  | [] => some (s, [])
  | line :: rest => do
    let next ← s.step? (directive? line.toList)
    let (final, kept) ← run next rest
    return (final, if s.keeps line then line :: kept else kept)

def nest? (depth : Nat) : Option Directive → Option Nat
  | some (.opening _) => some (depth + 1)
  | some (.alternative _) | some .otherwise => if depth = 0 then none else some depth
  | some .closing => if depth = 0 then none else some (depth - 1)
  | _ => some depth

def nesting? (depth : Nat) (lines : List String) : Option Nat :=
  lines.foldlM (fun depth line => nest? depth (directive? line.toList)) depth

/-- The conditional directives match each other. -/
def Balanced (lines : List String) : Prop := nesting? 0 lines = some 0

instance (lines : List String) : Decidable (Balanced lines) := inferInstanceAs (Decidable (_ = _))

theorem nest?_of_step? {s t : State} {d : Option Directive} (stepped : s.step? d = some t) :
    nest? s.frames.length d = some t.frames.length := by
  unfold State.step? at stepped
  split at stepped
  · cases stepped
    rfl
  · cases stepped
    rfl
  · split at stepped
    · obtain ⟨c, -, rfl⟩ := Option.map_eq_some_iff.mp stepped
      rfl
    · cases stepped
      rfl
  · split at stepped
    · cases stepped
    · rename_i frame outer same
      rw [same]
      split at stepped
      · cases stepped
        rfl
      · obtain ⟨c, -, rfl⟩ := Option.map_eq_some_iff.mp stepped
        rfl
  · split at stepped
    · cases stepped
    · rename_i frame outer same
      rw [same]
      cases stepped
      rfl
  · split at stepped
    · cases stepped
    · rename_i frame outer same
      rw [same]
      cases stepped
      rfl
  · cases stepped
    split <;> rfl
  · cases stepped
    split <;> rfl
  · split at stepped
    · cases stepped
    · cases stepped
      rfl

theorem nesting?_of_run {s t : State} {lines kept : List String} (ran : run s lines = some (t, kept)) :
    nesting? s.frames.length lines = some t.frames.length := by
  induction lines generalizing s kept with
  | nil =>
    cases ran
    rfl
  | cons line rest ih =>
    rw [run] at ran
    obtain ⟨next, stepped, later⟩ := Option.bind_eq_some_iff.mp ran
    obtain ⟨⟨final, tail⟩, rested, same⟩ := Option.bind_eq_some_iff.mp later
    cases same
    rw [nesting?, List.foldlM_cons, nest?_of_step? stepped]
    exact ih rested

def Extends (before after : Macros) : Prop := ∀ name, before name = true → after name = true

theorem Extends.refl (macros : Macros) : Extends macros macros := fun _ defined => defined

theorem Extends.trans {first second third : Macros} (h : Extends first second)
    (h' : Extends second third) : Extends first third := fun name defined => h' name (h name defined)

theorem extends_update (macros : Macros) (name : String) :
    Extends macros (Function.update macros name true) := by
  intro other defined
  by_cases same : other = name
  · rw [same, Function.update_self]
  · rwa [Function.update_of_ne same]

/-- Between two states that differ in their macros only, a run that keeps those lines. -/
structure Runs (frames : List Frame) (before : Macros) (lines : List String) (after : Macros)
    (kept : List String) : Prop where
  run : run ⟨before, frames⟩ lines = some (⟨after, frames⟩, kept)
  grows : Extends before after

theorem run_append {s between final : State} {first second kept more : List String}
    (before : run s first = some (between, kept)) (after : run between second = some (final, more)) :
    run s (first ++ second) = some (final, kept ++ more) := by
  induction first generalizing s kept with
  | nil =>
    cases before
    exact after
  | cons line rest ih =>
    rw [run] at before
    obtain ⟨next, stepped, later⟩ := Option.bind_eq_some_iff.mp before
    obtain ⟨⟨_, tail⟩, rested, same⟩ := Option.bind_eq_some_iff.mp later
    cases same
    rw [List.cons_append, run, stepped, Option.bind_eq_bind, Option.bind_some, ih rested]
    by_cases keeps : s.keeps line = true
    · simp [keeps]
    · simp [keeps]

theorem Runs.append {frames : List Frame} {m m' m'' : Macros} {first second kept kept' : List String}
    (before : Runs frames m first m' kept) (after : Runs frames m' second m'' kept') :
    Runs frames m (first ++ second) m'' (kept ++ kept') :=
  ⟨run_append before.run after.run, before.grows.trans after.grows⟩

theorem run_plain {s : State} (active : s.isActive = true) {lines : List String}
    (plain : ∀ line ∈ lines, directive? line.toList = none) : run s lines = some (s, lines) := by
  induction lines with
  | nil => rfl
  | cons line rest ih =>
    obtain ⟨first, later⟩ := List.forall_mem_cons.mp plain
    have keeps : s.keeps line = true := by
      rw [State.keeps, active, first]
      rfl
    rw [run, first, State.step?, Option.bind_eq_bind, Option.bind_some, ih later, keeps]
    rfl

def isSteady : Option Directive → Bool
  | none | some .other | some (.define _) => true
  | _ => false

theorem isSteady_cases {d : Option Directive} (steady : isSteady d = true) :
    d = none ∨ d = some .other ∨ ∃ name, d = some (.define name) := by
  rcases d with _ | directive
  · exact .inl rfl
  · cases directive with
    | other => exact .inr (.inl rfl)
    | define name => exact .inr (.inr ⟨name, rfl⟩)
    | opening | alternative | otherwise | closing | undefine | error => cases steady

def IsSteady (line : String) : Prop := isSteady (directive? line.toList) = true

instance (line : String) : Decidable (IsSteady line) := inferInstanceAs (Decidable (_ = _))

theorem step?_steady {line : String} (steady : IsSteady line) {s : State} (active : s.isActive = true) :
    ∃ macros, s.step? (directive? line.toList) = some ⟨macros, s.frames⟩ ∧ Extends s.macros macros ∧
      ∀ name, directive? line.toList = some (.define name) → macros name = true := by
  rcases isSteady_cases steady with same | same | ⟨name, same⟩
  · exact ⟨s.macros, by rw [same]; rfl, .refl _, by simp [same]⟩
  · exact ⟨s.macros, by rw [same]; rfl, .refl _, by simp [same]⟩
  · refine ⟨Function.update s.macros name true, ?_, extends_update _ _, ?_⟩
    · rw [same, State.step?, if_pos active]
    · intro other defined
      rw [same] at defined
      cases defined
      exact Function.update_self ..

theorem runs_steady {frames : List Frame} (active : ∀ f ∈ frames, f.active = true) {lines : List String}
    (steady : ∀ line ∈ lines, IsSteady line) (macros : Macros) :
    ∃ after, Runs frames macros lines after lines ∧
      ∀ line ∈ lines, ∀ name, directive? line.toList = some (.define name) → after name = true := by
  induction lines generalizing macros with
  | nil => exact ⟨macros, ⟨rfl, .refl _⟩, by simp⟩
  | cons line rest ih =>
    obtain ⟨first, later⟩ := List.forall_mem_cons.mp steady
    have counts : State.isActive ⟨macros, frames⟩ = true := List.all_eq_true.mpr active
    obtain ⟨between, stepped, grows, defines⟩ := step?_steady first counts
    obtain ⟨after, runs, defined⟩ := ih later between
    have unconditional : isConditional (directive? line.toList) = false := by
      rcases isSteady_cases first with same | same | ⟨name, same⟩ <;> rw [same] <;> rfl
    have keeps : State.keeps ⟨macros, frames⟩ line = true := by
      rw [State.keeps, counts, unconditional]
      rfl
    refine ⟨after, ⟨?_, grows.trans runs.grows⟩, ?_⟩
    · rw [run, stepped, Option.bind_eq_bind, Option.bind_some, runs.run, keeps]
      rfl
    · rw [List.forall_mem_cons]
      exact ⟨fun name defining => runs.grows name (defines name defining), defined⟩

def isReadable : Option Directive → Bool
  | some (.opening none) | some (.alternative none) | some (.undefine _) | some .error => false
  | _ => true

/-- Readable lines whose conditional directives match each other. -/
structure IsTame (lines : List String) : Prop where
  balanced : Balanced lines
  readable : ∀ line ∈ lines, isReadable (directive? line.toList) = true

theorem step?_readable {inner outer : List Frame} {d : Option Directive} {after : Nat}
    (readable : isReadable d = true) (nests : nest? inner.length d = some after) (macros : Macros) :
    ∃ later frames, State.step? ⟨macros, inner ++ outer⟩ d = some ⟨later, frames ++ outer⟩ ∧
      frames.length = after ∧ Extends macros later := by
  -- A line that closes or continues a conditional finds it among the inner ones.
  have nonempty (positive : ¬ inner.length = 0) : ∃ f rest, inner = f :: rest :=
    List.exists_cons_of_ne_nil fun empty => positive (by rw [empty]; rfl)
  rcases d with _ | directive
  · cases nests
    exact ⟨macros, inner, rfl, rfl, .refl _⟩
  · cases directive with
    | opening condition =>
      cases condition with
      | none => cases readable
      | some c =>
        cases nests
        by_cases active : State.isActive ⟨macros, inner ++ outer⟩ = true
        · exact ⟨macros, ⟨holds macros c, holds macros c⟩ :: inner, if_pos active, rfl, .refl _⟩
        · exact ⟨macros, ⟨false, true⟩ :: inner, if_neg active, rfl, .refl _⟩
    | alternative condition =>
      cases condition with
      | none => cases readable
      | some c =>
        rw [nest?] at nests
        split at nests
        · cases nests
        · rename_i positive
          cases nests
          obtain ⟨f, rest, rfl⟩ := nonempty positive
          by_cases settled : f.settled = true
          · exact ⟨macros, ⟨false, true⟩ :: rest, if_pos settled, rfl, .refl _⟩
          · exact ⟨macros, ⟨holds macros c, holds macros c⟩ :: rest, if_neg settled, rfl, .refl _⟩
    | otherwise =>
      rw [nest?] at nests
      split at nests
      · cases nests
      · rename_i positive
        cases nests
        obtain ⟨f, rest, rfl⟩ := nonempty positive
        exact ⟨macros, ⟨!f.settled, true⟩ :: rest, rfl, rfl, .refl _⟩
    | closing =>
      rw [nest?] at nests
      split at nests
      · cases nests
      · rename_i positive
        cases nests
        obtain ⟨f, rest, rfl⟩ := nonempty positive
        exact ⟨macros, rest, rfl, rfl, .refl _⟩
    | define name =>
      cases nests
      by_cases active : State.isActive ⟨macros, inner ++ outer⟩ = true
      · exact ⟨_, inner, congrArg some (if_pos active), rfl, extends_update _ _⟩
      · exact ⟨_, inner, congrArg some (if_neg active), rfl, .refl _⟩
    | undefine | error => cases readable
    | other =>
      cases nests
      exact ⟨macros, inner, rfl, rfl, .refl _⟩

theorem run_readable (inner outer : List Frame) {lines : List String} {after : Nat}
    (readable : ∀ line ∈ lines, isReadable (directive? line.toList) = true)
    (nests : nesting? inner.length lines = some after) (macros : Macros) :
    ∃ later frames kept, run ⟨macros, inner ++ outer⟩ lines = some (⟨later, frames ++ outer⟩, kept) ∧
      frames.length = after ∧ Extends macros later := by
  induction lines generalizing inner macros with
  | nil =>
    cases nests
    exact ⟨macros, inner, [], rfl, rfl, .refl _⟩
  | cons line rest ih =>
    rw [nesting?, List.foldlM_cons] at nests
    obtain ⟨here, rest_readable⟩ := List.forall_mem_cons.mp readable
    obtain ⟨between, first, later⟩ := Option.bind_eq_some_iff.mp nests
    obtain ⟨next, frames, stepped, rfl, grows⟩ := step?_readable here first macros
    obtain ⟨final, left, kept, rested, depth, more⟩ := ih frames rest_readable later next
    refine ⟨final, left, if State.keeps ⟨macros, inner ++ outer⟩ line then line :: kept else kept,
      ?_, depth, grows.trans more⟩
    rw [run, stepped, Option.bind_eq_bind, Option.bind_some, rested]
    rfl

theorem IsTame.runs {lines : List String} (tame : IsTame lines) (frames : List Frame) (macros : Macros) :
    ∃ after kept, Runs frames macros lines after kept := by
  obtain ⟨after, inner, kept, ran, depth, grows⟩ :=
    run_readable [] frames tame.readable tame.balanced macros
  obtain rfl := List.eq_nil_of_length_eq_zero depth
  exact ⟨after, kept, ran, grows⟩

end GLHeader.Preprocessor
