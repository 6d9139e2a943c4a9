import GLHeader.Proofs.Surface.Exposure

namespace GLHeader

open GLHeader.Xml

namespace Header

def Continues (s t : String) : Prop := ∃ rest, t = s ++ rest

theorem regionText_continues (region : Feature → Region) {fs gs : List Feature} (more : fs <+: gs) :
    Continues (regionText (fs.map region)) (regionText (gs.map region)) := by
  obtain ⟨added, rfl⟩ := more
  rw [List.map_append, regionText_append]
  exact ⟨_, rfl⟩

theorem versionText_continues {fs gs : List Feature} (more : fs <+: gs) :
    Continues (versionText fs) (versionText gs) := by
  obtain ⟨added, rfl⟩ := more
  rw [versionText, versionText, List.map_append]
  by_cases none : fs.map versionLine = []
  · exact ⟨_, by rw [none, String.intercalate_nil, String.empty_append]⟩
  · by_cases same : added.map versionLine = []
    · exact ⟨"", by rw [same, List.append_nil, String.append_empty]⟩
    · -- The line feed before an added macro belongs to what is added.
      exact ⟨_, by rw [String.intercalate_append_of_ne_nil none same, String.append_assoc]⟩

/-- The second surface has the types of the first one and begins with its features, and what is written
for it begins with what is written for the first one. The declarations are two texts, that of the
constants and that of the commands. -/
structure GrowsInto (o : Options) (s t : Surface) : Prop where
  types : t.types = s.types
  features : s.features <+: t.features
  versions : Continues (sections s o).versions (sections t o).versions
  declarations : ∀ u ∈ [s, t],
    (sections u o).declarations = constantText u.features ++ "\n" ++ o.commandText u.features
  constants : Continues (constantText s.features) (constantText t.features)
  commands : Continues (o.commandText s.features) (o.commandText t.features)
  definitions : Continues (sections s o).definitions (sections t o).definitions
  loads : Continues (sections s o).loads (sections t o).loads

theorem GrowsInto.of_features {o : Options} {s t : Surface} (types : t.types = s.types)
    (more : s.features <+: t.features) : GrowsInto o s t where
  types
  features := more
  versions := versionText_continues more
  declarations _ _ := rfl
  constants := regionText_continues constantRegion more
  commands := regionText_continues o.declarationRegion more
  definitions := regionText_continues o.definitionRegion more
  loads := regionText_continues o.loadRegion more

end Header

namespace Surface

open Header

/-- Where the first feature of a version stands among those of an API. -/
def position? (root : Element) (api version : String) : Option Nat :=
  versionIndex? version (Release.familyElements root api)

variable {root : Element} {api profile V W : String}

theorem exposed_features (root : Element) (target : Target) :
    (exposed root target).features =
      ((position? root target.api target.version).elim (Release.familyElements root target.api)
        fun i => (Release.familyElements root target.api).take (i + 1)).map (exposedFeature root) :=
  rfl

theorem exposed_features_mono
    (later : ∀ j, position? root api W = some j → ∃ i, position? root api V = some i ∧ i ≤ j) :
    (exposed root ⟨api, V, profile⟩).features <+: (exposed root ⟨api, W, profile⟩).features := by
  rw [exposed_features, exposed_features]
  refine List.IsPrefix.map _ ?_
  cases reached : position? root api W with
  | none =>
    cases position? root api V with
    | none => exact List.prefix_rfl
    | some i => exact List.take_prefix _ _ -- A version that is never declared has all features.
  | some j =>
    obtain ⟨i, found, order⟩ := later j reached
    rw [found]
    exact List.take_prefix_take_left (by omega)

/-- Whether there is a surface never depends on the version. Of two declared versions, the one whose
first feature stands later has a surface into which the surface of the other grows, and so has a version
that is not declared; between two of those there is no difference. -/
theorem raised_version_appends (document api profile : String) (o : Options) :
    (∃ failure, ∀ version, ofDocument document ⟨api, version, profile⟩ = .error failure) ∨
      ∃ (root : Element) (surface : String → Surface), Xml.read? document = some root ∧
        (∀ version, ofDocument document ⟨api, version, profile⟩ = .ok (surface version)) ∧
        (∀ V W i j, position? root api V = some i → position? root api W = some j → i ≤ j →
          GrowsInto o (surface V) (surface W)) ∧
        (∀ V U i, position? root api V = some i → position? root api U = none →
          GrowsInto o (surface V) (surface U)) ∧
        ∀ U U', position? root api U = none → position? root api U' = none →
          (surface U).types = (surface U').types ∧ (surface U).features = (surface U').features ∧
            sections (surface U) o = sections (surface U') o := by
  rcases ofDocument_by_api document api with ⟨failure, failed⟩ | ⟨root, read, built⟩
  · exact .inl ⟨failure, fun version => failed version profile⟩
  · refine .inr ⟨root, fun version => exposed root ⟨api, version, profile⟩, read,
      fun version => built version profile, ?_, ?_, ?_⟩
    · intro V W i j lower upper order
      refine .of_features rfl (exposed_features_mono fun k reached => ⟨i, lower, ?_⟩)
      obtain rfl := Option.some.inj (upper.symm.trans reached)
      exact order
    · intro V U i _ undeclared
      refine .of_features rfl (exposed_features_mono fun k reached => ?_)
      cases undeclared.symm.trans reached
    · intro U U' first second
      have features : (exposed root ⟨api, U, profile⟩).features =
          (exposed root ⟨api, U', profile⟩).features := by
        simp only [exposed_features, first, second]
      refine ⟨rfl, features, ?_⟩
      rw [sections, sections, features]
      rfl

theorem raised_version_appends_unsorted :
    let document := "<r><feature api='gl' number='1.1' name='B'/><feature api='es' number='1.0' name='E'/>" ++
      "<feature api='gl' number='1.0' name='A'/><feature api='gl' number='1.1' name='C'/></r>"
    ∃ s t u, ofDocument document ⟨"gl", "1.1", "core"⟩ = .ok s ∧
      ofDocument document ⟨"gl", "1.0", "core"⟩ = .ok t ∧ ofDocument document ⟨"gl", "9", "core"⟩ = .ok u ∧
      GrowsInto {} s t ∧ GrowsInto {} t u ∧ (sections u {}).versions = "# define B\n# define A\n# define C" := by
  intro document
  have positions : (Xml.read? document).map (fun root => ["1.1", "1.0", "9"].map (position? root "gl")) =
      some [some 0, some 1, none] := by decide +kernel
  have text : (ofDocument document ⟨"gl", "9", "core"⟩).toOption.map (fun u => (sections u {}).versions) =
      some "# define B\n# define A\n# define C" := by decide +kernel
  rcases raised_version_appends document "gl" "core" {} with
    ⟨failure, failed⟩ | ⟨root, surface, read, built, declared, undeclared, -⟩
  · rw [failed] at text
    cases text
  · rw [read] at positions
    obtain ⟨first, second, other⟩ : position? root "gl" "1.1" = some 0 ∧ position? root "gl" "1.0" = some 1 ∧
        position? root "gl" "9" = none := by simpa using positions
    rw [built] at text
    exact ⟨_, _, _, built "1.1", built "1.0", built "9", declared _ _ 0 1 first second (by decide),
      undeclared _ _ 1 second other, Option.some.inj text⟩

end Surface

end GLHeader
