import GLHeader.Header.Sections
import GLHeader.Proofs.Header.Regions
import GLHeader.Proofs.Text.Pattern

namespace GLHeader

open GLHeader.Text

def TypeText.IsOneLine (t : TypeText) : Prop := OneLine t.short ∧ OneLine t.full

def Signature.IsOneLine (s : Signature) : Prop :=
  s.result.IsOneLine ∧ ∀ p ∈ s.parameters, p.type.IsOneLine ∧ OneLine p.name

/-- No text of the feature that the header repeats holds a line feed. -/
structure Feature.IsOneLine (f : Feature) : Prop where
  name : OneLine f.name
  constants : ∀ c ∈ f.constants, OneLine c.name ∧ OneLine c.value
  commands : ∀ c ∈ f.commands, OneLine c.name ∧ c.signature.IsOneLine

namespace Header

@[simp] theorem oneLine_directive {depth : Nat} {wording : String} :
    OneLine (Region.directive depth wording) ↔ OneLine wording := by
  simp [OneLine, toList_directive]

theorem oneLine_spelling (spelling : Spelling) {t : TypeText} (h : t.IsOneLine) :
    OneLine (spelling.of t) := by
  cases spelling with
  | short => exact h.1
  | full => exact h.2

theorem oneLine_parameterText (o : Options) {s : Signature} (h : s.IsOneLine) :
    OneLine (o.parameterText s.parameters) := by
  unfold Options.parameterText
  split
  · decide
  · apply oneLine_intercalate (by decide)
    intro t member
    obtain ⟨p, inside, rfl⟩ := List.mem_map.mp member
    obtain ⟨type, name⟩ := h.2 p inside
    simp +decide [Options.parameter, oneLine_spelling o.spelling type, name]

theorem procedureType_oneLine {name : String} (h : OneLine name) : OneLine (procedureType name) := by
  simp +decide [procedureType, oneLine_toUpper h]

theorem pointer_oneLine {o : Options} {name : String} (pointers : OneLine o.pointerPrefix)
    (h : OneLine name) : OneLine (o.pointer name) := by
  simp [Options.pointer, pointers, h]

theorem declarationLines_oneLine {o : Options} {c : Command} (pointers : OneLine o.pointerPrefix)
    (name : OneLine c.name) (signature : c.signature.IsOneLine) :
    ∀ line ∈ o.declarationLines c, OneLine line := by
  have type := procedureType_oneLine name
  have pointer := pointer_oneLine pointers name
  have result := oneLine_spelling o.spelling signature.1
  have parameters := oneLine_parameterText o signature
  intro line member
  simp only [Options.declarationLines, List.mem_cons, List.not_mem_nil, or_false] at member
  rcases member with rfl | rfl | rfl
  · simp +decide [Options.typedefLine, type, result, parameters]
  · simp +decide [Options.externLine, type, pointer]
  · simp +decide [Options.redirectLine, name, pointer]

theorem declarationLines_inner (o : Options) (c : Command) :
    ∀ line ∈ o.declarationLines c, IsInner line := by
  intro line member
  simp only [Options.declarationLines, List.mem_cons, List.not_mem_nil, or_false] at member
  rcases member with rfl | rfl | rfl
  · apply isInner_plain
    simp [Options.typedefLine]
  · apply isInner_plain
    simp [Options.externLine]
  · rw [Options.redirectLine, String.append_assoc, String.append_assoc]
    exact isInner_define _ _

theorem mem_intercalate_blank {line : String} {blocks : List (List String)}
    (member : line ∈ [""].intercalate blocks) : line = "" ∨ ∃ block ∈ blocks, line ∈ block := by
  induction blocks with
  | nil => cases member
  | cons block blocks ih =>
    cases blocks with
    | nil => exact .inr ⟨block, List.mem_cons_self, by simpa using member⟩
    | cons next blocks =>
      rw [List.intercalate_cons_cons, List.mem_append, List.mem_append, List.mem_singleton] at member
      rcases member with (here | blank) | later
      · exact .inr ⟨block, List.mem_cons_self, here⟩
      · exact .inl blank
      · rcases ih later with blank | ⟨other, inside, here⟩
        · exact .inl blank
        · exact .inr ⟨other, List.mem_cons_of_mem _ inside, here⟩

def Region.IsOneLine (r : Region) : Prop := OneLine r.guardName ∧ ∀ line ∈ r.body, OneLine line

theorem Region.IsOneLine.lines {r : Region} (h : r.IsOneLine) : ∀ line ∈ r.lines, OneLine line := by
  intro line member
  simp only [Region.lines, List.cons_append, List.mem_cons, List.mem_append, List.not_mem_nil,
    or_false] at member
  rcases member with rfl | inside | rfl
  · simp +decide [Region.opening, h.1]
  · exact h.2 line inside
  · simp +decide [Region.closing, h.1]

theorem forall_lines {rs : List Region} (whole : ∀ r ∈ rs, r.IsOneLine) :
    ∀ line ∈ rs.flatMap Region.lines, OneLine line := by
  intro line member
  obtain ⟨r, inside, here⟩ := List.mem_flatMap.mp member
  exact (whole r inside).lines line here

theorem loadRegion_oneLine_of_names {f : Feature} {o : Options} (name : OneLine f.name)
    (commands : ∀ c ∈ f.commands, OneLine c.name) (pointers : OneLine o.pointerPrefix)
    (lookup : OneLine o.lookupFunction) : (o.loadRegion f).IsOneLine := by
  refine ⟨name, fun line member => ?_⟩
  obtain ⟨c, inside, rfl⟩ := List.mem_map.mp member
  have named := commands c inside
  simp +decide [Options.loadLine, procedureType_oneLine named, pointer_oneLine pointers named, lookup, named]

section Features

variable {f : Feature} (whole : f.IsOneLine)
include whole

theorem constantRegion_oneLine : (constantRegion f).IsOneLine := by
  refine ⟨whole.name, fun line member => ?_⟩
  obtain ⟨c, inside, rfl⟩ := List.mem_map.mp member
  obtain ⟨name, value⟩ := whole.constants c inside
  simp +decide [constantLine, name, value]

variable {o : Options} (pointers : OneLine o.pointerPrefix)
include pointers

theorem declarationRegion_oneLine : (o.declarationRegion f).IsOneLine := by
  refine ⟨whole.name, fun line member => ?_⟩
  rcases mem_intercalate_blank member with rfl | ⟨block, inside, here⟩
  · decide
  · obtain ⟨c, command, rfl⟩ := List.mem_map.mp inside
    obtain ⟨name, signature⟩ := whole.commands c command
    exact declarationLines_oneLine pointers name signature line here

theorem definitionRegion_oneLine : (o.definitionRegion f).IsOneLine := by
  refine ⟨whole.name, fun line member => ?_⟩
  obtain ⟨c, inside, rfl⟩ := List.mem_map.mp member
  obtain ⟨name, -⟩ := whole.commands c inside
  simp +decide [Options.definitionLine, procedureType_oneLine name, pointer_oneLine pointers name]

theorem loadRegion_oneLine (lookup : OneLine o.lookupFunction) : (o.loadRegion f).IsOneLine :=
  loadRegion_oneLine_of_names whole.name (fun c inside => (whole.commands c inside).1) pointers lookup

end Features

theorem constantRegion_inner (f : Feature) : ∀ line ∈ (constantRegion f).body, IsInner line := by
  intro line member
  obtain ⟨c, -, rfl⟩ := List.mem_map.mp member
  rw [constantLine, String.append_assoc, String.append_assoc]
  exact isInner_define _ _

theorem declarationRegion_inner (o : Options) (f : Feature) :
    ∀ line ∈ (o.declarationRegion f).body, IsInner line := by
  intro line member
  rcases mem_intercalate_blank member with rfl | ⟨block, inside, here⟩
  · exact isInner_plain (by decide)
  · obtain ⟨c, -, rfl⟩ := List.mem_map.mp inside
    exact declarationLines_inner o c line here

theorem definitionRegion_inner (o : Options) (f : Feature) :
    ∀ line ∈ (o.definitionRegion f).body, IsInner line := by
  intro line member
  obtain ⟨c, -, rfl⟩ := List.mem_map.mp member
  apply isInner_plain
  simp [Options.definitionLine, procedureType]

theorem loadRegion_inner (o : Options) (f : Feature) :
    ∀ line ∈ (o.loadRegion f).body, IsInner line := by
  intro line member
  obtain ⟨c, -, rfl⟩ := List.mem_map.mp member
  apply isInner_plain
  simp [Options.loadLine]

def passLines (region : Feature → Region) (features : List Feature) : List String :=
  (features.map region).flatMap Region.lines

theorem passLines_oneLine {region : Feature → Region} {features : List Feature}
    (whole : ∀ f ∈ features, (region f).IsOneLine) :
    ∀ line ∈ passLines region features, OneLine line := by
  apply forall_lines
  intro r member
  obtain ⟨f, inside, rfl⟩ := List.mem_map.mp member
  exact whole f inside

theorem regions?_passLines {region : Feature → Region} (features : List Feature)
    (inner : ∀ f, ∀ line ∈ (region f).body, IsInner line) :
    regions? (passLines region features) = some (features.map region) := by
  apply regions?_lines
  intro r member
  obtain ⟨f, -, rfl⟩ := List.mem_map.mp member
  exact inner f

variable {s : Surface} {o : Options}

theorem declarations_eq :
    (sections s o).declarations =
      unlines (passLines constantRegion s.features ++ "" :: passLines o.declarationRegion s.features) := by
  simp [sections, constantText, Options.commandText, regionText, passLines, unlines, String.append_assoc]

section Lines

variable (whole : ∀ f ∈ s.features, f.IsOneLine) (pointers : OneLine o.pointerPrefix)
include whole pointers

theorem lines_declarations :
    lines (sections s o).declarations =
      passLines constantRegion s.features ++ "" :: passLines o.declarationRegion s.features := by
  rw [declarations_eq]
  apply lines_unlines
  rw [List.forall_mem_append, List.forall_mem_cons]
  exact ⟨passLines_oneLine fun f member => constantRegion_oneLine (whole f member), by decide,
    passLines_oneLine fun f member => declarationRegion_oneLine (whole f member) pointers⟩

theorem lines_definitions :
    lines (sections s o).definitions = passLines o.definitionRegion s.features :=
  lines_unlines (passLines_oneLine fun f member => definitionRegion_oneLine (whole f member) pointers)

theorem lines_loads (lookup : OneLine o.lookupFunction) :
    lines (sections s o).loads = passLines o.loadRegion s.features :=
  lines_unlines (passLines_oneLine fun f member => loadRegion_oneLine (whole f member) pointers lookup)

end Lines

def afterBlank (lines : List String) : List String := (lines.dropWhile (· != "")).tail

theorem afterBlank_append {before : List String} (shown : ∀ line ∈ before, line ≠ "")
    (after : List String) : afterBlank (before ++ "" :: after) = after := by
  rw [afterBlank, List.dropWhile_append_of_pos fun line member => by simpa using shown line member]
  rfl

theorem constantLines_head (features : List Feature) :
    ∀ line ∈ passLines constantRegion features, line.toList.head? = some '#' := by
  have directive (depth : Nat) (wording : String) : (Region.directive depth wording).toList.head? = some '#' := by
    rw [toList_directive]
    rfl
  intro line member
  obtain ⟨r, inside, here⟩ := List.mem_flatMap.mp member
  obtain ⟨f, -, rfl⟩ := List.mem_map.mp inside
  simp only [Region.lines, List.cons_append, List.mem_cons, List.mem_append, List.not_mem_nil,
    or_false] at here
  rcases here with rfl | body | rfl
  · exact directive _ _
  · obtain ⟨c, -, rfl⟩ := List.mem_map.mp body
    exact directive _ _
  · exact directive _ _

theorem constantLines_ne (features : List Feature) :
    ∀ line ∈ passLines constantRegion features, line ≠ "" := by
  rintro line member rfl
  cases constantLines_head features "" member

end Header

end GLHeader
