import GLHeader.Proofs.Header.Pointers
import GLHeader.Proofs.Preprocessor.Run

namespace GLHeader.Header

open GLHeader.Text GLHeader.Preprocessor

theorem directive?_of_head {line : String} {c : Char} (start : line.toList.head? = some c)
    (solid : isBlank c = false) (other : c ≠ '#') : directive? line.toList = none := by
  obtain ⟨rest, same⟩ := List.head?_eq_some_iff.mp start
  apply directive?_plain
  rw [same, List.dropWhile_cons_of_neg (by simp [solid])]
  simpa using other

theorem isSteady_of_head {line : String} {c : Char} (start : line.toList.head? = some c)
    (solid : isBlank c = false) (other : c ≠ '#') : IsSteady line := by
  rw [IsSteady, directive?_of_head start solid other]
  rfl

theorem directive?_define (depth : Nat) (rest : String) :
    directive? (Region.directive depth ("define " ++ rest)).toList =
      some (.ofKeyword "define" (' ' :: rest.toList)) := by
  have word : IsWord "define" := by decide
  have spaced : ("define " ++ rest).toList = "define".toList ++ ' ' :: rest.toList := by simp
  rw [toList_directive, spaced]
  exact directive?_word depth word rfl

theorem isSteady_define (depth : Nat) (rest : String) :
    IsSteady (Region.directive depth ("define " ++ rest)) := by
  rw [IsSteady, directive?_define, Directive.ofKeyword]
  cases identifier? (' ' :: rest.toList) <;> rfl

theorem directive?_versionLine {f : Feature} (name : IsWord f.name) :
    directive? (versionLine f).toList = some (.define f.name) := by
  have named : identifier? (' ' :: (f.name.toList ++ [])) = some f.name := identifier?_word name rfl
  rw [List.append_nil] at named
  rw [versionLine, directive?_define, Directive.ofKeyword, named]
  rfl

theorem directive?_opening {r : Region} (name : IsWord r.guardName) :
    directive? r.opening.toList = some (.opening (some [[⟨true, r.guardName⟩]])) := by
  have word : IsWord "if" := by decide
  have spaced : ("if defined (" ++ r.guardName ++ ")").toList =
      "if".toList ++ (" defined (" ++ r.guardName ++ ")").toList := by simp
  have ended : (" defined (" ++ r.guardName ++ ")").toList.head?.any isIdentifierChar = false := by
    simp [isIdentifierChar]
  rw [Region.opening, toList_directive, spaced, directive?_word r.depth word ended, Directive.ofKeyword,
    condition?_defined name]

theorem directive?_closing (r : Region) : directive? r.closing.toList = some .closing := by
  have word : IsWord "endif" := by decide
  have spaced : ("endif /* " ++ r.guardName ++ " */").toList =
      "endif".toList ++ (" /* " ++ r.guardName ++ " */").toList := by simp
  have ended : (" /* " ++ r.guardName ++ " */").toList.head?.any isIdentifierChar = false := by
    simp [isIdentifierChar]
  rw [Region.closing, toList_directive, spaced, directive?_word r.depth word ended]
  rfl

theorem constantRegion_steady (f : Feature) : ∀ line ∈ (constantRegion f).body, IsSteady line := by
  intro line member
  obtain ⟨c, -, rfl⟩ := List.mem_map.mp member
  rw [constantLine, String.append_assoc, String.append_assoc]
  exact isSteady_define _ _

theorem declarationRegion_steady (o : Options) (f : Feature) :
    ∀ line ∈ (o.declarationRegion f).body, IsSteady line := by
  intro line member
  rcases mem_intercalate_blank member with rfl | ⟨block, inside, here⟩
  · decide
  · obtain ⟨c, -, rfl⟩ := List.mem_map.mp inside
    simp only [Options.declarationLines, List.mem_cons, List.not_mem_nil, or_false] at here
    rcases here with rfl | rfl | rfl
    · exact isSteady_of_head (c := 't') (by simp [Options.typedefLine]) (by decide) (by decide)
    · exact isSteady_of_head (c := 'e') (by simp [Options.externLine]) (by decide) (by decide)
    · rw [Options.redirectLine, String.append_assoc, String.append_assoc]
      exact isSteady_define _ _

theorem definitionRegion_steady (o : Options) (f : Feature) :
    ∀ line ∈ (o.definitionRegion f).body, IsSteady line := by
  intro line member
  obtain ⟨c, -, rfl⟩ := List.mem_map.mp member
  exact isSteady_of_head (c := 'P') (by simp [Options.definitionLine, procedureType]) (by decide) (by decide)

theorem loadRegion_steady {o : Options} {f : Feature} (pointers : o.pointerPrefix.toList.all isIdentifierChar)
    (names : ∀ c ∈ f.commands, IsIdentifier c.name) :
    ∀ line ∈ (o.loadRegion f).body, IsSteady line := by
  intro line member
  obtain ⟨c, inside, rfl⟩ := List.mem_map.mp member
  obtain ⟨some, proper⟩ := pointer_isWord pointers (names c inside)
  obtain ⟨first, rest, same⟩ := List.exists_cons_of_ne_nil some
  have start : isIdentifierChar first = true := by
    rw [same, List.all_cons, Bool.and_eq_true] at proper
    exact proper.1
  have solid := isBlank_of_isIdentifierChar start
  have plain : directive? (o.loadLine c).toList = none := by
    apply directive?_plain
    have shown : ((o.loadLine c).toList.dropWhile isBlank).head? = Option.some first := by
      have tab : isBlank '\t' = true := rfl
      simp [Options.loadLine, same, tab, solid]
    rw [shown]
    rintro sign
    rw [Option.some.inj sign] at start
    exact absurd start (by decide)
  rw [IsSteady, plain]
  rfl

def counting : Frame := ⟨true, true⟩

section Runs

variable {frames : List Frame} (active : ∀ f ∈ frames, f.active = true)
include active

theorem run_opening {r : Region} (name : IsWord r.guardName) {macros : Macros}
    (defined : macros r.guardName = true) :
    run ⟨macros, frames⟩ [r.opening] = some (⟨macros, counting :: frames⟩, []) := by
  have counts : State.isActive ⟨macros, frames⟩ = true := List.all_eq_true.mpr active
  simp [run, State.keeps, State.step?, directive?_opening name, counts, isConditional, holds, defined, counting]

omit active in
theorem run_closing (r : Region) (macros : Macros) (frame : Frame) :
    run ⟨macros, frame :: frames⟩ [r.closing] = some (⟨macros, frames⟩, []) := by
  simp [run, State.keeps, State.step?, directive?_closing, isConditional]

theorem active_counting : ∀ f ∈ counting :: frames, f.active = true :=
  List.forall_mem_cons.mpr ⟨rfl, active⟩

theorem runs_region {r : Region} (name : IsWord r.guardName) (steady : ∀ line ∈ r.body, IsSteady line)
    {macros : Macros} (defined : macros r.guardName = true) :
    ∃ after, Runs frames macros r.lines after r.body := by
  obtain ⟨after, body, -⟩ := runs_steady (active_counting active) steady macros
  have ran := run_append (run_opening active name defined)
    (run_append body.run (run_closing r after counting))
  rw [List.nil_append, List.append_nil] at ran
  exact ⟨after, ran, body.grows⟩

theorem runs_pass {region : Feature → Region} {features : List Feature}
    (names : ∀ f ∈ features, IsWord (region f).guardName)
    (steady : ∀ f ∈ features, ∀ line ∈ (region f).body, IsSteady line) {macros : Macros}
    (defined : ∀ f ∈ features, macros (region f).guardName = true) :
    ∃ after, Runs frames macros (passLines region features) after
      (features.flatMap fun f => (region f).body) := by
  induction features generalizing macros with
  | nil => exact ⟨macros, rfl, .refl _⟩
  | cons f features ih =>
    obtain ⟨name, later_names⟩ := List.forall_mem_cons.mp names
    obtain ⟨body, later_bodies⟩ := List.forall_mem_cons.mp steady
    obtain ⟨here, later_defined⟩ := List.forall_mem_cons.mp defined
    obtain ⟨between, first⟩ := runs_region active name body here
    obtain ⟨after, rest⟩ := ih later_names later_bodies fun g member => first.grows _ (later_defined g member)
    exact ⟨after, first.append rest⟩

end Runs

end GLHeader.Header
