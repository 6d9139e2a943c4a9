import GLHeader.Files.Storage
import GLHeader.Proofs.Files.Places

namespace GLHeader.Files

variable {σ : Type}

/-- What is found behind the paths of a storage when links are followed. -/
structure FileView (σ : Type) where
  content : σ → String → Option ByteArray
  SameFile : σ → String → String → Prop

namespace FileView

variable [Storage σ] {files : FileView σ} {disk middle after : σ}

/-- One file is replaced as a whole, on every path that leads to it. -/
structure Replaced (files : FileView σ) (path : String) (bytes : ByteArray) (disk after : σ) : Prop where
  self : files.SameFile disk path path
  content : ∀ other, files.SameFile disk path other → files.content after other = some bytes
  frame : ∀ other, ¬ files.SameFile disk path other → files.content after other = files.content disk other
  ways : ∀ first second, files.SameFile after first second ↔ files.SameFile disk first second
  directories : ∀ other, Storage.isDirectory after other = Storage.isDirectory disk other

/-- Reading gives what a file holds, and a write that is not refused replaces one file. Which paths lead to one file,
    and which writes are refused, is left to the storage. -/
structure Lawful (files : FileView σ) : Prop where
  read : ∀ disk path text, Storage.readText disk path = .ok text → files.content disk path = some text.toUTF8
  write : ∀ disk path bytes after, Storage.write disk path bytes = .ok after → files.Replaced path bytes disk after

structure Holds (files : FileView σ) (disk : σ) (path text : String) : Prop where
  content : files.content disk path = some text.toUTF8
  read : ∀ other, Storage.readText disk path = .ok other → other = text

theorem Lawful.holds (lawful : files.Lawful) {path text : String}
    (content : files.content disk path = some text.toUTF8) : files.Holds disk path text where
  content := content
  read other read := by
    have same := (lawful.read disk path other read).symm.trans content
    exact String.toByteArray_inj.mp (Option.some.inj same)

/-- Paths to one file agree in its name, as they do where nothing is linked. -/
def LinkFree (files : FileView σ) (disk : σ) : Prop :=
  ∀ first second, files.SameFile disk first second →
    ∀ name, fileName? second = some name → fileName? first = some name

structure ChangedOnly (files : FileView σ) (paths : List String) (disk after : σ) : Prop where
  change : ∀ other, files.content after other ≠ files.content disk other →
    ∃ path ∈ paths, files.SameFile disk path other
  ways : ∀ first second, files.SameFile after first second ↔ files.SameFile disk first second
  directories : ∀ other, Storage.isDirectory after other = Storage.isDirectory disk other

theorem ChangedOnly.refl (files : FileView σ) (paths : List String) (disk : σ) : files.ChangedOnly paths disk disk where
  change _ ne := absurd rfl ne
  ways _ _ := Iff.rfl
  directories _ := rfl

theorem ChangedOnly.trans {paths others : List String} (first : files.ChangedOnly paths disk middle)
    (second : files.ChangedOnly others middle after) : files.ChangedOnly (paths ++ others) disk after where
  change other ne := by
    by_cases later : files.content after other = files.content middle other
    · obtain ⟨path, listed, same⟩ := first.change other (later ▸ ne)
      exact ⟨path, List.mem_append_left _ listed, same⟩
    · obtain ⟨path, listed, same⟩ := second.change other later
      exact ⟨path, List.mem_append_right _ listed, (first.ways path other).mp same⟩
  ways path other := (second.ways path other).trans (first.ways path other)
  directories other := (second.directories other).trans (first.directories other)

theorem Replaced.changedOnly {path : String} {bytes : ByteArray} (replaced : files.Replaced path bytes disk after) :
    files.ChangedOnly [path] disk after where
  change other ne := by
    refine ⟨path, List.mem_singleton_self path, ?_⟩
    by_contra apart
    exact ne (replaced.frame other apart)
  ways := replaced.ways
  directories := replaced.directories

theorem Replaced.content_of_changedOnly {path other : String} {bytes : ByteArray} {paths : List String}
    (replaced : files.Replaced path bytes disk middle) (changed : files.ChangedOnly paths middle after)
    (reached : files.SameFile disk path other) (apart : ∀ later ∈ paths, ¬ files.SameFile disk later other) :
    files.content after other = some bytes := by
  have kept : files.content after other = files.content middle other := by
    by_contra ne
    obtain ⟨later, listed, same⟩ := changed.change other ne
    exact apart later listed ((replaced.ways later other).mp same)
  rw [kept, replaced.content other reached]

end FileView

namespace Disk

variable {disk : Disk} {path : String}

def content? (disk : Disk) (path : String) : Option ByteArray :=
  match disk.entry? path with
  | some (.file bytes) => some bytes
  | _ => none

theorem entry?_eq_some_iff {entry : Entry} :
    disk.entry? path = some entry ↔ ∃ place, disk.locate path = .ok place ∧ disk.get? place = some entry := by
  unfold entry?
  cases disk.locate path <;> simp [Except.toOption]

theorem content?_eq_some_iff {bytes : ByteArray} : disk.content? path = some bytes ↔
    ∃ place, disk.locate path = .ok place ∧ disk.get? place = some (.file bytes) := by
  rw [← entry?_eq_some_iff, content?]
  split <;> simp_all

theorem isDirectory_iff : disk.isDirectory path ↔
    ∃ place, disk.locate path = .ok place ∧ disk.IsDirectoryAt place := by
  rw [isDirectory, beq_iff_eq, entry?_eq_some_iff]
  rfl

theorem readText_eq_ok_iff {text : String} :
    disk.readText path = .ok text ↔ disk.content? path = some text.toUTF8 := by
  have decoded (bytes : ByteArray) : String.fromUTF8? bytes = some text ↔ bytes = text.toUTF8 := by
    constructor
    · intro read
      unfold String.fromUTF8? at read
      split at read
      · cases read
        rfl
      · cases read
    · rintro rfl
      exact dif_pos text.isValidUTF8
  unfold content? entry? readText
  cases disk.locate path with
  | error fault => simp [bind, Except.bind, Except.toOption]
  | ok place =>
    simp only [bind, Except.bind, Except.toOption, Option.bind_some]
    cases disk.get? place with
    | none => simp
    | some entry =>
      cases entry with
      | directory => simp
      | file bytes =>
        simp only [Option.some.injEq, ← decoded bytes]
        cases String.fromUTF8? bytes <;> simp

/-- A disk has no links: a path leads to a file if it is found there, or would be made there. -/
def view : FileView Disk where
  content := content?
  SameFile disk path other :=
    ∃ place, disk.filePlace path = .ok place ∧ (disk.locate other = .ok place ∨ disk.filePlace other = .ok place)

theorem view_linkFree (disk : Disk) : view.LinkFree disk := by
  rintro first second ⟨place, found, located | found'⟩ name named
  · rw [← getLast?_filePlace found, getLast?_locate located named]
  · rw [← getLast?_filePlace found, getLast?_filePlace found', named]

theorem sameFile_iff {place : Place} (found : disk.filePlace path = .ok place) {other : String} :
    view.SameFile disk path other ↔ disk.locate other = .ok place ∨ disk.filePlace other = .ok place := by
  simp [view, found]

theorem Wrote.replaced {place : Place} {bytes : ByteArray} {after : Disk} (wrote : disk.Wrote place bytes after)
    (found : disk.filePlace path = .ok place) : view.Replaced path bytes disk after where
  self := (sameFile_iff found).mpr (.inr found)
  content other same := by
    have reached : disk.locate other = .ok place ∨ place = place ∧ disk.filePlace other = .ok place :=
      ((sameFile_iff found).mp same).imp_right fun made => ⟨rfl, made⟩
    exact content?_eq_some_iff.mpr ⟨place, wrote.locate_ok_iff.mpr reached, wrote.content⟩
  frame other apart := by
    obtain ⟨unlocated, unmade⟩ := not_or.mp (mt (sameFile_iff found).mpr apart)
    refine Option.ext fun bytes' => ?_
    change after.content? other = _ ↔ disk.content? other = _
    rw [content?_eq_some_iff, content?_eq_some_iff]
    refine exists_congr fun next => ?_
    by_cases same : next = place
    · subst same
      simp [wrote.locate_ok_iff, unlocated, unmade]
    · simp [wrote.locate_ok_iff, same, wrote.frame next same]
  ways first second := by
    refine exists_congr fun next => ?_
    rw [wrote.filePlace_ok_iff, wrote.filePlace_ok_iff, wrote.locate_ok_iff]
    grind
  directories other := by
    change after.isDirectory other = disk.isDirectory other
    rw [Bool.eq_iff_iff, isDirectory_iff, isDirectory_iff]
    refine exists_congr fun next => ?_
    by_cases same : next = place
    · simp [wrote.isDirectoryAt_iff, same, wrote.free]
    · simp [wrote.locate_ok_iff, wrote.isDirectoryAt_iff, same]

theorem view_lawful : view.Lawful where
  read _ _ _ := readText_eq_ok_iff.mp
  write disk path bytes after written := by
    obtain ⟨place, found, wrote⟩ := wrote_of_write written
    exact wrote.replaced found

end Disk

/-- A disk with links, and with files that may be read but not written. -/
structure LinkedDisk where
  disk : Disk
  links : List (String × String) := []
  readOnly : List String := []

namespace LinkedDisk

def target (disk : LinkedDisk) (path : String) : String := (disk.links.lookup path).getD path

def write (disk : LinkedDisk) (path : String) (bytes : ByteArray) : Except Fault LinkedDisk :=
  if disk.readOnly.contains (disk.target path) then .error (.other "Permission denied (os error 13)")
  else (disk.disk.write (disk.target path) bytes).map ({ disk with disk := · })

instance : Storage LinkedDisk where
  isPresent disk path := disk.disk.isPresent (disk.target path)
  isDirectory disk path := disk.disk.isDirectory (disk.target path)
  readText disk path := disk.disk.readText (disk.target path)
  write := write

def view : FileView LinkedDisk where
  content disk path := Disk.view.content disk.disk (disk.target path)
  SameFile disk path other := Disk.view.SameFile disk.disk (disk.target path) (disk.target other)

theorem write_ok {disk after : LinkedDisk} {path : String} {bytes : ByteArray}
    (written : disk.write path bytes = .ok after) :
    ∃ written, disk.disk.write (disk.target path) bytes = .ok written ∧ after = { disk with disk := written } := by
  unfold write at written
  split at written
  · cases written
  · cases result : disk.disk.write (disk.target path) bytes with
    | error fault =>
      rw [result] at written
      cases written
    | ok other =>
      rw [result] at written
      exact ⟨other, rfl, (Except.ok.inj written).symm⟩

theorem view_lawful : view.Lawful where
  read disk path := Disk.view_lawful.read disk.disk (disk.target path)
  write disk path bytes after written := by
    obtain ⟨inner, wrote, rfl⟩ := write_ok written
    have replaced := Disk.view_lawful.write disk.disk (disk.target path) bytes inner wrote
    exact ⟨replaced.self, fun other => replaced.content (disk.target other),
      fun other => replaced.frame (disk.target other),
      fun first second => replaced.ways (disk.target first) (disk.target second),
      fun other => replaced.directories (disk.target other)⟩

end LinkedDisk

end GLHeader.Files
