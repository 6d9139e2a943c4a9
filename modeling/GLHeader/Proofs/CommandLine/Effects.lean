import GLHeader.Proofs.CommandLine.Checks
import GLHeader.Proofs.Files.View

namespace GLHeader

open GLHeader.Files

variable {σ α β : Type}

def Stage.Ends (stage : Stage (StateM (Surroundings σ)) α) (desk : Surroundings σ) (fault : Option Failure)
    (fit : σ → Prop) : Prop :=
  ∃ result after later,
    stage.on desk = (result, { desk with disk := after, log := later }) ∧ faultOf result = fault ∧ fit after

variable [Storage σ] {files : FileView σ} {desk : Surroundings σ}

namespace Stage

variable {stage : Stage (StateM (Surroundings σ)) α} {next : α → Stage (StateM (Surroundings σ)) β}
  {faults : List (Option Failure)} {fault other : Option Failure}

theorem Checks.ends {fit : α → Prop} (checks : stage.Checks desk faults fit) (files : FileView σ) :
    stage.Ends desk (faults.findSome? id) (files.ChangedOnly [] desk.disk) := by
  cases first : faults.findSome? id with
  | some failure =>
    obtain ⟨later, on⟩ := checks.fails first desk.log
    exact ⟨_, desk.disk, later, on, rfl, .refl _ _ _⟩
  | none =>
    obtain ⟨later, value, -, on⟩ := checks.succeeds first desk.log
    exact ⟨_, desk.disk, later, on, rfl, .refl _ _ _⟩

theorem Ends.bind {paths others : List String}
    (first : stage.Ends desk fault (files.ChangedOnly paths desk.disk))
    (second : ∀ value middle log,
      (next value).Ends { desk with disk := middle, log } other (files.ChangedOnly others middle)) :
    (stage >>= next).Ends desk (fault.or other) (files.ChangedOnly (paths ++ others) desk.disk) := by
  obtain ⟨result, middle, log, on, rfl, changed⟩ := first
  cases result with
  | error failure =>
    exact ⟨_, middle, log, on_bind_of_error on, rfl, changed.trans (.refl files others middle)⟩
  | ok value =>
    obtain ⟨result', after, later, on', same, changed'⟩ := second value middle log
    exact ⟨result', after, later, (on_bind_of_ok on).trans on', same, changed.trans changed'⟩

end Stage

open Stage

theorem writeFile_ends (lawful : files.Lawful) (path content : String) :
    (writeFile path content).Ends desk (writeFault? desk.disk path content)
      (files.ChangedOnly [path] desk.disk) := by
  cases fault : writeFault? desk.disk path content with
  | some failure => exact ⟨_, _, _, writeFile_on_of_fault fault, rfl, .refl _ _ _⟩
  | none =>
    obtain ⟨disk, written, on⟩ := writeFile_on_of_sound desk fault
    exact ⟨_, disk, _, on, rfl, (lawful.write _ _ _ _ written).changedOnly⟩

namespace CommandLine

theorem reportSymbols_run (check : SymbolCheck) (desk : Surroundings σ) :
    (reportSymbols check : StateM (Surroundings σ) Unit).run desk =
      ((), { desk with log := desk.log ++ (check.filter (!·.missing.isEmpty)).map .symbolsMissing ++
        [.symbolsChecked check.foundTotal check.missingTotal check.findsAll] }) := by
  unfold reportSymbols
  rw [StateT.run_bind, forIn_record_run]
  rfl

namespace Arguments

variable {a : Arguments}

section

variable {m : Type → Type} [Monad m] [Host m]

def writeDump (a : Arguments) (surface : Surface) : Stage m Unit :=
  (a.value? .dump).elim (pure ()) (writeFile · surface.dump)

def finish (a : Arguments) (settings : Settings) (surface : Surface) : Stage m Unit := do
  a.lookUpSymbols surface
  (Host.record (.headerMade settings.output settings.version.text settings.profile.text surface.tally) : m Unit)

end

theorem run_eq (a : Arguments) : (a.run : Stage (StateM (Surroundings σ)) Unit) =
    a.prepare >>= fun (settings, surface, header) =>
      writeFile settings.output header >>= fun _ => a.writeDump surface >>= fun _ => a.finish settings surface := by
  unfold run prepare writeDump finish
  simp only [bind_assoc, pure_bind]
  cases a.value? .dump <;> rfl

theorem checks_lookUpSymbols (surface : Surface) :
    (a.lookUpSymbols surface).Checks desk [a.fault? desk .library] fun _ => True := by
  unfold lookUpSymbols fault?
  cases a.value? .library with
  | none => exact .pure rfl trivial
  | some name =>
    refine (checks_openLibrary name).bind fun library _ => ?_
    have reported : Checks (liftM (reportSymbols (surface.check library.isFound) :
        StateM (Surroundings σ) Unit)) desk [] _ := .of_run () fun log => ⟨_, reportSymbols_run _ _⟩
    exact reported.mono rfl fun _ _ => trivial

theorem finish_ends (files : FileView σ) (desk : Surroundings σ) (settings : Settings) (surface : Surface)
    (disk : σ) (log : List LogEntry) : (a.finish settings surface).Ends { desk with disk, log }
      (a.fault? desk .library) (files.ChangedOnly [] disk) := by
  have checks : (a.finish settings surface).Checks { desk with disk, log } [a.fault? desk .library] _ :=
    (checks_lookUpSymbols surface).bind fun _ _ => checks_record _
  have ends := checks.ends files
  rwa [List.findSome?_singleton] at ends

theorem writeDump_ends (lawful : files.Lawful) {disk : σ} (written : a.written? desk.disk = some disk)
    {surface : Surface} (described : a.surface? desk.disk = some surface) (log : List LogEntry) :
    (a.writeDump surface).Ends { desk with disk, log } (a.fault? desk .dump)
      (files.ChangedOnly (a.value? .dump).toList disk) := by
  unfold writeDump fault?
  rw [written, described]
  cases a.value? .dump with
  | none => exact ⟨.ok (), disk, log, rfl, rfl, .refl _ _ _⟩
  | some path => exact writeFile_ends lawful path surface.dump

theorem run_on_of_prepared (sound : Check.beforeWriting.findSome? (a.fault? desk) = none) :
    ∃ settings surface header log, a.surface? desk.disk = some surface ∧ a.header? desk.disk = some header ∧
      a.run.on desk = (writeFile a.outputPath header >>= fun _ => a.writeDump surface >>= fun _ =>
        a.finish settings surface).on { desk with log } := by
  obtain ⟨log, ⟨settings, surface, header⟩, ⟨given, described, made⟩, on⟩ :=
    checks_prepare.succeeds (by rwa [List.findSome?_map]) desk.log
  have output : settings.output = a.outputPath := (fields_of_settings? given).2.1
  refine ⟨settings, surface, header, log, described, made, ?_⟩
  rw [run_eq, on_bind_of_ok on, ← output]

theorem run_ends_early {failure : Failure} (found : Check.throughHeader.findSome? (a.fault? desk) = some failure) :
    a.run.Ends desk (some failure) (· = desk.disk) := by
  cases first : Check.beforeWriting.findSome? (a.fault? desk) with
  | some earlier =>
    obtain rfl : earlier = failure := by simpa [Check.throughHeader, List.findSome?_append, first] using found
    obtain ⟨later, on⟩ := checks_prepare.fails (by rwa [List.findSome?_map]) desk.log
    rw [run_eq]
    exact ⟨_, desk.disk, later, on_bind_of_error on, rfl, rfl⟩
  | none =>
    obtain ⟨settings, surface, header, log, -, made, on⟩ := run_on_of_prepared first
    have refused : a.fault? desk .header = some failure := by
      simpa [Check.throughHeader, List.findSome?_append, first] using found
    rw [fault?, made] at refused
    exact ⟨_, desk.disk, log, on.trans (on_bind_of_error (writeFile_on_of_fault refused)), rfl, rfl⟩

theorem run_ends_late (lawful : files.Lawful) (sound : Check.throughHeader.findSome? (a.fault? desk) = none) :
    ∃ disk, a.written? desk.disk = some disk ∧
      a.run.Ends desk (Check.afterHeader.findSome? (a.fault? desk))
        (files.ChangedOnly (a.value? .dump).toList disk) := by
  obtain ⟨checked, accepted⟩ : Check.beforeWriting.findSome? (a.fault? desk) = none ∧
      a.fault? desk .header = none := by
    simpa [Check.throughHeader, List.findSome?_append] using sound
  obtain ⟨settings, surface, header, log, described, made, on⟩ := run_on_of_prepared checked
  rw [fault?, made] at accepted
  obtain ⟨disk, done, wrote⟩ := writeFile_on_of_sound { desk with log } accepted
  have written : a.written? desk.disk = some disk := by
    unfold written?
    rw [made]
    exact congrArg Except.toOption done
  -- From here on faults are found on the disk with the header, not on the one before.
  obtain ⟨result, after, later, rest, first, changed⟩ :=
    (writeDump_ends lawful written described _).bind fun _ => finish_ends files desk settings surface
  refine ⟨disk, written, result, after, later, ?_, ?_, ?_⟩
  · rw [on, on_bind_of_ok wrote]
    exact rest
  · rw [first, Check.afterHeader, List.findSome?_cons, List.findSome?_singleton]
    cases a.fault? desk .dump <;> rfl
  · rwa [List.append_nil] at changed

theorem fileName?_outputPath (a : Arguments) : fileName? a.outputPath = some headerName := by
  unfold outputPath
  cases a.value? .output with
  | none => decide
  | some directory => exact fileName?_join (by decide) ⟨by decide, by decide⟩ directory

theorem fileName?_inputPath (accepted : a.fault? desk .input = none) : fileName? a.inputPath = some registryName := by
  have sound : (a.value? .input).bind (inputFault? desk.disk) = none := accepted
  unfold inputPath
  cases given : a.value? .input with
  | none => decide
  | some path =>
    rw [given, Option.bind_some] at sound
    exact fileName?_of_accepted sound

theorem named_of_settings {settings : Settings} (accepted : (a.settings.on desk).1 = .ok settings) :
    fileName? settings.input = some registryName ∧ fileName? settings.output = some headerName := by
  obtain ⟨sound, given⟩ := checks_settings.sound_of_ok accepted
  obtain ⟨input, output, -⟩ := fields_of_settings? given
  rw [List.findSome?_map, List.findSome?_eq_none_iff] at sound
  rw [input, output]
  exact ⟨fileName?_inputPath (sound .input (by decide)), fileName?_outputPath a⟩

theorem apart_of_settings (plain : files.LinkFree desk.disk) {settings : Settings}
    (accepted : (a.settings.on desk).1 = .ok settings) :
    ¬ files.SameFile desk.disk settings.output settings.input := by
  intro same
  obtain ⟨registry, header⟩ := named_of_settings accepted
  have both := (plain _ _ same _ registry).symm.trans header
  exact absurd both (by decide)

structure Effects (files : FileView σ) (a : Arguments) (desk : Surroundings σ) (outcome : Outcome)
    (after : Surroundings σ) : Prop where
  first : outcome = (Check.all.findSome? (a.fault? desk)).elim .success .failed
  printed : ∀ failure, Check.all.findSome? (a.fault? desk) = some failure →
    outcome.exitCode = 1 ∧ outcome.message? = some ("glapi: " ++ failure.message)
  untouched : ∀ check ∈ Check.throughHeader, (a.fault? desk check).isSome → after.disk = desk.disk
  /-- A dump that goes to another file leaves the header as it was made, on every path that leads to it. -/
  written : (∀ check ∈ Check.throughHeader, a.fault? desk check = none) →
    ∃ settings templates header, (a.settings.on desk).1 = .ok settings ∧
      (a.templates.on desk).1 = .ok templates ∧
        ((makeHeader settings templates a.options).on desk).1 = .ok header ∧
          files.SameFile desk.disk settings.output settings.output ∧
            ∀ path, files.SameFile desk.disk settings.output path →
              (∀ dump, a.value? .dump = some dump → ¬ files.SameFile desk.disk dump path) →
                files.Holds after.disk path header
  changed : ∀ path, files.content after.disk path ≠ files.content desk.disk path →
    files.SameFile desk.disk a.outputPath path ∨
      ∃ dump, a.value? .dump = some dump ∧ files.SameFile desk.disk dump path
  directories : ∀ path, Storage.isDirectory after.disk path = Storage.isDirectory desk.disk path
  named : ∀ settings, (a.settings.on desk).1 = .ok settings →
    fileName? settings.input = some registryName ∧ fileName? settings.output = some headerName
  /-- With links a header can be written over the registry that it was made from. -/
  apart : files.LinkFree desk.disk → ∀ settings, (a.settings.on desk).1 = .ok settings →
    ¬ files.SameFile desk.disk settings.output settings.input

theorem made_of_sound (sound : ∀ check ∈ Check.throughHeader, a.fault? desk check = none) :
    ∃ settings templates header, (a.settings.on desk).1 = .ok settings ∧ (a.templates.on desk).1 = .ok templates ∧
      ((makeHeader settings templates a.options).on desk).1 = .ok header ∧ settings.output = a.outputPath ∧
        a.header? desk.disk = some header := by
  have none_of_subset {checks : List Check} (listed : ∀ check ∈ checks, check ∈ Check.throughHeader) :
      (checks.map (a.fault? desk)).findSome? id = none := by
    rw [List.findSome?_map, List.findSome?_eq_none_iff]
    exact fun check member => sound check (listed check member)
  obtain ⟨settings, given, accepted⟩ := checks_settings.value (none_of_subset (by decide))
  obtain ⟨templates, given', read⟩ := checks_templates.value (none_of_subset (by decide))
  obtain ⟨header, made, same⟩ := (checks_makeHeader given given').value (none_of_subset (by decide))
  exact ⟨settings, templates, header, accepted, read, same, (fields_of_settings? given).2.1, made⟩

theorem write_of_written? {disk written : σ} (done : a.written? disk = some written) :
    ∃ header, a.header? disk = some header ∧
      Storage.write disk a.outputPath header.toUTF8 = .ok written := by
  obtain ⟨header, made, same⟩ := Option.bind_eq_some_iff.mp done
  refine ⟨header, made, ?_⟩
  cases result : Storage.write disk a.outputPath header.toUTF8 with
  | error fault =>
    rw [result] at same
    cases same
  | ok other =>
    rw [result] at same
    exact congrArg Except.ok (Option.some.inj same)

theorem effects_of_early {after : Surroundings σ} {failure : Failure}
    (found : Check.throughHeader.findSome? (a.fault? desk) = some failure) (same : after.disk = desk.disk) :
    a.Effects files desk (.failed failure) after where
  first := by rw [Check.all, List.findSome?_append, found]; rfl
  printed other first := by
    rw [Check.all, List.findSome?_append, found] at first
    cases first
    exact ⟨rfl, rfl⟩
  untouched _ _ _ := same
  written sound := by
    rw [List.findSome?_eq_none_iff.mpr sound] at found
    cases found
  changed path ne := absurd (by rw [same]) ne
  directories path := by rw [same]
  named settings accepted := named_of_settings accepted
  apart plain settings accepted := apart_of_settings plain accepted

theorem effects_of_late (lawful : files.Lawful) {after : Surroundings σ} {written : σ}
    (sound : Check.throughHeader.findSome? (a.fault? desk) = none) (done : a.written? desk.disk = some written)
    (changed : files.ChangedOnly (a.value? .dump).toList written after.disk) :
    a.Effects files desk ((Check.afterHeader.findSome? (a.fault? desk)).elim .success .failed) after := by
  obtain ⟨header, made, wrote⟩ := write_of_written? done
  have replaced := lawful.write _ _ _ _ wrote
  have whole := replaced.changedOnly.trans changed
  exact {
    first := by rw [Check.all, List.findSome?_append, sound]; rfl
    printed := fun failure first => by
      rw [Check.all, List.findSome?_append, sound, Option.none_or] at first
      rw [first]
      exact ⟨rfl, rfl⟩
    untouched := fun check member faulty => by
      rw [List.findSome?_eq_none_iff.mp sound check member] at faulty
      cases faulty
    written := fun clear => by
      obtain ⟨settings, templates, other, accepted, read, same, output, made'⟩ := made_of_sound clear
      obtain rfl : header = other := Option.some.inj (made.symm.trans made')
      refine ⟨settings, templates, header, accepted, read, same, ?_⟩
      rw [output]
      refine ⟨replaced.self, fun path reached apart => lawful.holds ?_⟩
      exact replaced.content_of_changedOnly changed reached fun dump listed => apart dump (Option.mem_toList.mp listed)
    changed := fun path ne => by
      obtain ⟨written, listed, same⟩ := whole.change path ne
      rcases List.mem_append.mp listed with listed | listed
      · exact .inl (List.mem_singleton.mp listed ▸ same)
      · exact .inr ⟨written, Option.mem_toList.mp listed, same⟩
    directories := whole.directories
    named := fun settings accepted => named_of_settings accepted
    apart := fun plain settings accepted => apart_of_settings plain accepted }

theorem run_effects_on (lawful : files.Lawful) (a : Arguments) (desk : Surroundings σ) :
    a.Effects files desk ((faultOf (a.run.on desk).1).elim .success .failed) (a.run.on desk).2 := by
  cases early : Check.throughHeader.findSome? (a.fault? desk) with
  | some failure =>
    obtain ⟨result, after, later, on, fault, same⟩ := run_ends_early early
    rw [on, fault]
    exact effects_of_early early same
  | none =>
    obtain ⟨written, done, result, after, later, on, fault, changed⟩ := run_ends_late lawful early
    rw [on, fault]
    exact effects_of_late lawful early done changed

end Arguments

theorem run_run {arguments : List String} {a : Arguments} (asked : Order.ofArguments {} arguments = .run a) :
    (run arguments : StateM (Surroundings σ) Outcome).run desk =
      ((faultOf (a.run.on desk).1).elim .success .failed, (a.run.on desk).2) := by
  have ran : (a.run : Stage (StateM (Surroundings σ)) Unit).run.run desk = ((a.run.on desk).1, (a.run.on desk).2) :=
    rfl
  unfold run
  rw [asked, StateT.run_bind, ran]
  cases (a.run.on desk).1 <;> rfl

/-- Whatever the options and the file system, a run writes only when nothing is left to check, and then only the
    header and the dump. Links may lead several paths to one file, and any write may be refused. -/
theorem run_effects (lawful : files.Lawful) {arguments : List String} {a : Arguments}
    (asked : Order.ofArguments {} arguments = .run a) (desk : Surroundings σ) : ∃ outcome after,
      (run arguments : StateM (Surroundings σ) Outcome).run desk = (outcome, after) ∧
        a.Effects files desk outcome after :=
  ⟨_, _, run_run asked, a.run_effects_on lawful desk⟩

theorem run_effects_unopened :
    let template (text : String) : Entry := .file text.toUTF8
    let desk : Desk := { disk.entries := [(["gl.xml"], .file "<registry/>".toUTF8), (["t"], .directory),
      (["t", "loader.txt"], template "\x7b_API_DEC_\x7d\n"),
      (["t", "api-dec.txt"], template "version \x7b_VERSION_\x7d\n"),
      (["t", "api-def.txt"], template ""), (["t", "api-static.txt"], template "")] }
    let arguments := ["-t", "t", "-i", "gl.xml", "--dump-surface", "surface.json", "--check-symbols", "libGL.so"]
    let a : Arguments :=
      { values := [(.library, "libGL.so"), (.dump, "surface.json"), (.input, "gl.xml"), (.templates, "t")] }
    Order.ofArguments {} arguments = .run a ∧ ∃ after,
      (run arguments : StateM Desk Outcome).run desk = (.failed .unopenedLibrary, after) ∧
        after.disk.readText "./glapi.h" = .ok "version 4.6\n" ∧
          ¬ Disk.view.SameFile desk.disk "./glapi.h" "gl.xml" := by
  intro template desk arguments a
  have asked : Order.ofArguments {} arguments = .run a := by decide +kernel
  obtain ⟨outcome, after, ran, effects⟩ := run_effects Disk.view_lawful asked desk
  have late : Check.all.findSome? (a.fault? desk) = some .unopenedLibrary := by decide +kernel
  obtain ⟨settings, templates, header, accepted, read, made, self, kept⟩ := effects.written (by decide +kernel)
  have chosen : (a.settings.on desk).1 = .ok { input := "gl.xml" } := by decide +kernel
  have given : (a.templates.on desk).1 =
      .ok ⟨"\x7b_API_DEC_\x7d\n", "version \x7b_VERSION_\x7d\n", "", ""⟩ := by decide +kernel
  obtain rfl : _ = settings := Except.ok.inj (chosen.symm.trans accepted)
  obtain rfl : _ = templates := Except.ok.inj (given.symm.trans read)
  have text : ((makeHeader { input := "gl.xml" }
      ⟨"\x7b_API_DEC_\x7d\n", "version \x7b_VERSION_\x7d\n", "", ""⟩ a.options).on desk).1 =
      .ok "version 4.6\n" := by decide +kernel
  obtain rfl : _ = header := Except.ok.inj (text.symm.trans made)
  have failed : outcome = .failed .unopenedLibrary := by rw [effects.first, late]; rfl
  have apart (dump : String) (asked : a.value? .dump = some dump) :
      ¬ Disk.view.SameFile desk.disk dump "./glapi.h" := by
    obtain rfl : "surface.json" = dump := Option.some.inj asked
    intro same
    exact absurd (Disk.view_linkFree desk.disk _ _ same "glapi.h" (by decide)) (by decide)
  exact ⟨asked, after, failed ▸ ran, Disk.readText_eq_ok_iff.mpr (kept _ self apart).content,
    effects.apart (Disk.view_linkFree desk.disk) _ accepted⟩

-- Where a link leads from the header to the registry, the registry is what gets written.
example :
    let template (text : String) : Entry := .file text.toUTF8
    let disk : Disk := { entries := [(["gl.xml"], .file "<registry/>".toUTF8), (["t"], .directory),
      (["t", "loader.txt"], template "#pragma once\n"), (["t", "api-dec.txt"], template ""),
      (["t", "api-def.txt"], template ""), (["t", "api-static.txt"], template "")] }
    let desk : Surroundings LinkedDisk := { disk := { disk, links := [("./glapi.h", "gl.xml")] } }
    let after := ((run ["-t", "t", "-i", "gl.xml"] : StateM (Surroundings LinkedDisk) Outcome).run desk).2
    Storage.readText after.disk "gl.xml" = .ok "#pragma once\n" := by
  decide +kernel

end CommandLine

end GLHeader
