import GLHeader.Files.Disk
import GLHeader.Proofs.Traversal
import Mathlib.Data.List.Basic
import Mathlib.Data.List.Induction

namespace GLHeader.Files

theorem parts_slash (before after : String) :
    parts (before ++ "/" ++ after) = parts before ++ parts after := by
  have slash : (before ++ "/" ++ after).toList = before.toList ++ '/' :: after.toList := by simp
  rw [parts, slash, List.splitOn, List.splitOnP_append_cons _ _ (by simp), List.map_append]
  rfl

theorem parts_single {name : String} (single : '/' ∉ name.toList) : parts name = [name] := by
  rw [parts, List.splitOn_eq_singleton single, List.map_singleton, String.ofList_toList]

theorem parts_join {name : String} (single : '/' ∉ name.toList) (directory : String) :
    ∃ before, parts (join directory name) = before ++ [name] := by
  unfold join
  split
  · rename_i ended
    rw [Bool.or_eq_true, beq_iff_eq, beq_iff_eq] at ended
    rcases ended with rfl | last
    · exact ⟨[], by simp [parts_single single]⟩
    · obtain ⟨before, same⟩ := List.getLast?_eq_some_iff.mp last
      have whole : directory = .ofList before ++ "/" := by simp [← String.toList_inj, same]
      rw [whole, parts_slash, parts_single single]
      exact ⟨_, rfl⟩
  · rw [parts_slash, parts_single single]
    exact ⟨_, rfl⟩

def IsName (part : String) : Prop := isStep part ∧ part ≠ ".."

theorem fileName?_of_parts {path name : String} {before : List String}
    (whole : parts path = before ++ [name]) (own : IsName name) : fileName? path = some name := by
  rw [fileName?, whole, List.filter_append, List.filter_singleton, own.1, List.getLast?_append]
  simp [own.2]

theorem fileName?_join {name : String} (single : '/' ∉ name.toList) (own : IsName name)
    (directory : String) : fileName? (join directory name) = some name := by
  obtain ⟨before, whole⟩ := parts_join single directory
  exact fileName?_of_parts whole own

namespace Disk

variable {disk other : Disk}

theorem usableParts_ok {path : String} {ps : List String} (usable : usableParts path = .ok ps) :
    ps = parts path := by
  unfold usableParts at usable
  split at usable
  · cases usable
  · split at usable
    · cases usable
    · split at usable
      · cases usable
      · exact (Except.ok.inj usable).symm

def IsDirectoryAt (disk : Disk) (place : Place) : Prop := disk.get? place = some .directory

theorem follow_ok_iff {place next : Place} {part : String} :
    disk.follow place part = .ok next ↔ disk.IsDirectoryAt place ∧
      (isStep part = false ∧ next = place ∨ part = ".." ∧ next = place.dropLast ∨
        IsName part ∧ part.utf8ByteSize ≤ nameLimit ∧ (disk.get? (place ++ [part])).isSome ∧
          next = place ++ [part]) := by
  unfold follow IsDirectoryAt IsName isStep
  by_cases here : disk.get? place = some .directory
  · by_cases stay : part = "" ∨ part = "."
    · rcases stay with rfl | rfl <;> simp [here, @eq_comm _ next]
    · obtain ⟨shown, other⟩ := not_or.mp stay
      by_cases up : part = ".."
      · subst up
        simp [here, @eq_comm _ next]
      · by_cases long : nameLimit < part.utf8ByteSize
        · have far : ¬ part.utf8ByteSize ≤ nameLimit := by omega
          simp [here, shown, other, up, long, far]
        · have short : part.utf8ByteSize ≤ nameLimit := by omega
          by_cases known : (disk.get? (place ++ [part])).isSome
          · simp [here, shown, other, up, long, short, known, @eq_comm _ next]
          · simp [here, shown, other, up, long, known]
  · simp [here]

theorem isDirectoryAt_of_foldlM {place next : Place} {ps : List String}
    (followed : ps.foldlM disk.follow place = .ok next) (reached : disk.IsDirectoryAt next) :
    disk.IsDirectoryAt place := by
  cases ps with
  | nil =>
    cases followed
    exact reached
  | cons part ps =>
    rw [List.foldlM_cons] at followed
    obtain ⟨middle, first, -⟩ := bind_ok followed
    exact (follow_ok_iff.mp first).1

theorem foldlM_follow_of_directories (same : ∀ place, disk.IsDirectoryAt place → other.IsDirectoryAt place)
    {place next : Place} {ps : List String} (followed : ps.foldlM disk.follow place = .ok next)
    (reached : disk.IsDirectoryAt next) : ps.foldlM other.follow place = .ok next := by
  induction ps generalizing place with
  | nil => exact followed
  | cons part ps ih =>
    rw [List.foldlM_cons] at followed
    obtain ⟨middle, first, rest⟩ := bind_ok followed
    -- Something follows this place, or it is the last one: either way it is a directory.
    have between : disk.IsDirectoryAt middle := isDirectoryAt_of_foldlM rest reached
    have step : other.follow place part = .ok middle := by
      obtain ⟨here, step⟩ := follow_ok_iff.mp first
      refine follow_ok_iff.mpr ⟨same place here, ?_⟩
      rcases step with stay | up | ⟨own, short, -, rfl⟩
      · exact .inl stay
      · exact .inr (.inl up)
      · exact .inr (.inr ⟨own, short, by rw [same _ between]; rfl, rfl⟩)
    rw [List.foldlM_cons, step]
    exact ih rest

theorem foldlM_concat_ok_iff {place next : Place} {part : String} {ps : List String} :
    (ps ++ [part]).foldlM disk.follow place = .ok next ↔
      ∃ middle, ps.foldlM disk.follow place = .ok middle ∧ disk.follow middle part = .ok next := by
  rw [List.foldlM_append]
  cases ps.foldlM disk.follow place with
  | error fault => simp [bind, Except.bind]
  | ok middle =>
    simp only [bind, Except.bind, List.foldlM_cons, List.foldlM_nil, Except.ok.injEq, exists_eq_left']
    cases disk.follow middle part <;> simp [pure, Except.pure]

theorem filePlace_slash {path : String} {before : List String} {place : Place}
    (usable : usableParts path = .ok (before ++ [""])) : disk.filePlace path ≠ .ok place := by
  intro found
  have shorter : ((before ++ [""]).reverse.dropWhile (· == "")).reverse.length < (before ++ [""]).length := by
    have trimmed := (List.dropWhile_suffix (l := before.reverse) (· == "")).length_le
    simp at trimmed ⊢
    omega
  simp only [filePlace, usable, bind, Except.bind, shorter, decide_true, Bool.true_or, if_true] at found
  split at found <;> cases found

theorem filePlace_of_usable {path name : String} {before : List String} {place : Place}
    (usable : usableParts path = .ok (before ++ [name])) (shown : name ≠ "") :
    disk.filePlace path = .ok place ↔ ∃ directory,
      (before ++ [""]).foldlM disk.follow (disk.start (before ++ [name])) = .ok directory ∧
        (name ≠ "." ∧ name ≠ "..") ∧ name.utf8ByteSize ≤ nameLimit ∧
          ¬ disk.IsDirectoryAt (directory ++ [name]) ∧ place = directory ++ [name] := by
  have named : ((before ++ [name]).reverse.dropWhile (· == "")).reverse = before ++ [name] := by
    simp [shown]
  simp only [filePlace, usable, bind, Except.bind, named, List.dropLast_concat, List.getLast?_concat,
    Option.getD_some, Nat.lt_irrefl, decide_false, Bool.false_or, Bool.or_eq_true, beq_iff_eq, IsDirectoryAt]
  cases (before ++ [""]).foldlM disk.follow (disk.start (before ++ [name])) with
  | error fault => simp
  | ok directory =>
    simp only [Except.ok.injEq, exists_eq_left']
    by_cases dots : name = "." ∨ name = ".."
    · have other : ¬ (name ≠ "." ∧ name ≠ "..") := fun h => dots.elim h.1 h.2
      simp [dots, other]
    · by_cases long : nameLimit < name.utf8ByteSize
      · have far : ¬ name.utf8ByteSize ≤ nameLimit := by omega
        simp [dots, long, far]
      · have short : name.utf8ByteSize ≤ nameLimit := by omega
        by_cases taken : disk.get? (directory ++ [name]) = some .directory
        · simp [dots, long, taken]
        · simp [not_or.mp dots, long, short, taken, @eq_comm _ place]

/-- The path of a file leads through directories and ends in a name, under which there is no directory. -/
structure IsFilePath (disk : Disk) (path : String) (before : List String) (name : String)
    (directory : Place) : Prop where
  usable : usableParts path = .ok (before ++ [name])
  own : IsName name
  short : name.utf8ByteSize ≤ nameLimit
  followed : before.foldlM disk.follow (disk.start (before ++ [name])) = .ok directory
  reached : disk.IsDirectoryAt directory
  free : ¬ disk.IsDirectoryAt (directory ++ [name])

theorem isName_iff {name : String} (shown : name ≠ "") : IsName name ↔ name ≠ "." ∧ name ≠ ".." := by
  simp [IsName, isStep, shown]

theorem follow_here_iff {place next : Place} :
    disk.follow place "" = .ok next ↔ disk.IsDirectoryAt place ∧ next = place := by
  simp [follow_ok_iff, isStep, IsName]

theorem parts_ne_nil (path : String) : parts path ≠ [] := by
  simp [parts, List.splitOn, List.splitOnP_ne_nil]

theorem filePlace_ok_iff {path : String} {place : Place} : disk.filePlace path = .ok place ↔
    ∃ before name directory, disk.IsFilePath path before name directory ∧ place = directory ++ [name] := by
  constructor
  · intro found
    cases usable : usableParts path with
    | error fault =>
      rw [filePlace, usable] at found
      cases found
    | ok ps =>
      obtain ⟨before, name, rfl⟩ : ∃ before name, ps = before ++ [name] :=
        (List.eq_nil_or_concat' ps).resolve_left (usableParts_ok usable ▸ parts_ne_nil path)
      -- A last part without characters means that the path ends in a slash.
      by_cases shown : name = ""
      · subst shown
        exact absurd found (filePlace_slash usable)
      · obtain ⟨directory, way, dots, short, free, rfl⟩ := (filePlace_of_usable usable shown).mp found
        obtain ⟨middle, followed, last⟩ := foldlM_concat_ok_iff.mp way
        obtain ⟨reached, rfl⟩ := follow_here_iff.mp last
        exact ⟨before, name, directory, ⟨usable, (isName_iff shown).mpr dots, short, followed, reached, free⟩, rfl⟩
  · rintro ⟨before, name, directory, file, rfl⟩
    have shown : name ≠ "" := by
      rintro rfl
      exact absurd file.own.1 (by decide)
    have last : disk.follow directory "" = .ok directory := follow_here_iff.mpr ⟨file.reached, rfl⟩
    exact (filePlace_of_usable file.usable shown).mpr ⟨directory,
      foldlM_concat_ok_iff.mpr ⟨directory, file.followed, last⟩, (isName_iff shown).mp file.own, file.short,
      file.free, rfl⟩

theorem getLast?_filePlace {path : String} {place : Place} (found : disk.filePlace path = .ok place) :
    place.getLast? = fileName? path := by
  obtain ⟨before, name, directory, file, rfl⟩ := filePlace_ok_iff.mp found
  have whole : parts path = before ++ [name] := (usableParts_ok file.usable).symm
  rw [fileName?_of_parts whole file.own, List.getLast?_concat]

theorem getLast?_of_foldlM {ps : List String} {name : String} {start place : Place}
    (followed : ps.foldlM disk.follow start = .ok place) (named : (ps.filter isStep).getLast? = some name)
    (down : name ≠ "..") : place.getLast? = some name := by
  induction ps using List.reverseRecOn generalizing place with
  | nil => cases named
  | append_singleton ps part ih =>
    obtain ⟨middle, earlier, last⟩ := foldlM_concat_ok_iff.mp followed
    obtain ⟨-, stay | up | ⟨own, -, -, onward⟩⟩ := follow_ok_iff.mp last
    · obtain ⟨idle, rfl⟩ := stay
      rw [List.filter_append, List.filter_singleton, idle, cond_false, List.append_nil] at named
      exact ih earlier named
    · obtain ⟨rfl, -⟩ := up
      rw [List.filter_append, List.getLast?_append] at named
      exact absurd (Option.some.inj named).symm down
    · rw [List.filter_append, List.filter_singleton, own.1, List.getLast?_append] at named
      rw [onward, List.getLast?_concat, ← named]
      rfl

theorem locate_ok_iff {path : String} {place : Place} : disk.locate path = .ok place ↔
    ∃ before name directory, usableParts path = .ok (before ++ [name]) ∧
      (before.foldlM disk.follow (disk.start (before ++ [name])) = .ok directory ∧ disk.IsDirectoryAt directory) ∧
        disk.follow directory name = .ok place := by
  constructor
  · intro located
    cases usable : usableParts path with
    | error fault =>
      rw [locate, usable] at located
      cases located
    | ok ps =>
      obtain ⟨before, name, rfl⟩ : ∃ before name, ps = before ++ [name] :=
        (List.eq_nil_or_concat' ps).resolve_left (usableParts_ok usable ▸ parts_ne_nil path)
      simp only [locate, usable, bind, Except.bind] at located
      obtain ⟨directory, followed, last⟩ := foldlM_concat_ok_iff.mp located
      exact ⟨before, name, directory, rfl, ⟨followed, (follow_ok_iff.mp last).1⟩, last⟩
  · rintro ⟨before, name, directory, usable, ⟨followed, -⟩, last⟩
    simp only [locate, usable, bind, Except.bind]
    exact foldlM_concat_ok_iff.mpr ⟨directory, followed, last⟩

theorem getLast?_locate {path name : String} {place : Place} (found : disk.locate path = .ok place)
    (named : fileName? path = some name) : place.getLast? = some name := by
  obtain ⟨before, name, directory, usable, ⟨followed, -⟩, step⟩ := locate_ok_iff.mp found
  rw [fileName?, ← usableParts_ok usable] at named
  obtain ⟨last, down⟩ := Option.filter_eq_some_iff.mp named
  exact getLast?_of_foldlM (foldlM_concat_ok_iff.mpr ⟨directory, followed, step⟩) last (by simpa using down)

theorem get?_put {place other : Place} (entry : Entry) (below : place ≠ []) :
    (disk.put place entry).get? other = if other = place then some entry else disk.get? other := by
  have kept (entries : List (Place × Entry)) (ne : other ≠ place) :
      (entries.filter (·.1 != place)).lookup other = entries.lookup other := by
    induction entries with
    | nil => rfl
    | cons head entries ih =>
      by_cases replaced : head.1 = place
      · have apart : (other == head.1) = false := beq_false_of_ne (replaced ▸ ne)
        rw [List.filter_cons_of_neg (by simp [replaced]), List.lookup_cons, apart, ih]
      · rw [List.filter_cons_of_pos (by simp [replaced]), List.lookup_cons, List.lookup_cons, ih]
  by_cases same : other = place
  · subst same
    simp [get?, put, below]
  · cases other with
    | nil => simp [get?, same]
    | cons part rest => simp [get?, put, List.lookup_cons, beq_false_of_ne same, kept _ same, same]

structure Wrote (disk : Disk) (place : Place) (bytes : ByteArray) (after : Disk) : Prop where
  home : after.home = disk.home
  content : after.get? place = some (.file bytes)
  frame : ∀ other, other ≠ place → after.get? other = disk.get? other
  free : ¬ disk.IsDirectoryAt place

theorem write_ok_iff {path : String} {bytes : ByteArray} {after : Disk} :
    disk.write path bytes = .ok after ↔
      ∃ place, disk.filePlace path = .ok place ∧ after = disk.put place (.file bytes) := by
  unfold write
  cases disk.filePlace path with
  | error fault => simp [bind, Except.bind]
  | ok place => simp [bind, Except.bind, pure, Except.pure, eq_comm]

theorem wrote_of_write {path : String} {bytes : ByteArray} {after : Disk}
    (written : disk.write path bytes = .ok after) :
    ∃ place, disk.filePlace path = .ok place ∧ disk.Wrote place bytes after := by
  obtain ⟨place, found, rfl⟩ := write_ok_iff.mp written
  obtain ⟨before, name, directory, file, rfl⟩ := filePlace_ok_iff.mp found
  have below : directory ++ [name] ≠ [] := by simp
  exact ⟨_, found, rfl, by simp [get?_put _ below], fun other ne => by simp [get?_put _ below, ne], file.free⟩

namespace Wrote

variable {after : Disk} {place : Place} {bytes : ByteArray} (wrote : disk.Wrote place bytes after)
include wrote

theorem isDirectoryAt_iff {other : Place} : after.IsDirectoryAt other ↔ disk.IsDirectoryAt other := by
  by_cases same : other = place
  · subst same
    have file : ¬ after.IsDirectoryAt other := by
      rw [IsDirectoryAt, wrote.content]
      simp
    exact iff_of_false file wrote.free
  · rw [IsDirectoryAt, IsDirectoryAt, wrote.frame other same]

theorem way_iff {ps before : List String} {directory : Place} :
    before.foldlM after.follow (after.start ps) = .ok directory ∧ after.IsDirectoryAt directory ↔
      before.foldlM disk.follow (disk.start ps) = .ok directory ∧ disk.IsDirectoryAt directory := by
  have start : after.start ps = disk.start ps := by rw [Disk.start, Disk.start, wrote.home]
  rw [start]
  constructor
  · rintro ⟨followed, reached⟩
    exact ⟨foldlM_follow_of_directories (fun _ => wrote.isDirectoryAt_iff.mp) followed reached,
      wrote.isDirectoryAt_iff.mp reached⟩
  · rintro ⟨followed, reached⟩
    exact ⟨foldlM_follow_of_directories (fun _ => wrote.isDirectoryAt_iff.mpr) followed reached,
      wrote.isDirectoryAt_iff.mpr reached⟩

theorem isFilePath_iff {path name : String} {before : List String} {directory : Place} :
    after.IsFilePath path before name directory ↔ disk.IsFilePath path before name directory := by
  constructor
  · rintro ⟨usable, own, short, followed, reached, free⟩
    obtain ⟨followed, reached⟩ := wrote.way_iff.mp ⟨followed, reached⟩
    exact ⟨usable, own, short, followed, reached, fun taken => free (wrote.isDirectoryAt_iff.mpr taken)⟩
  · rintro ⟨usable, own, short, followed, reached, free⟩
    obtain ⟨followed, reached⟩ := wrote.way_iff.mpr ⟨followed, reached⟩
    exact ⟨usable, own, short, followed, reached, fun taken => free (wrote.isDirectoryAt_iff.mp taken)⟩

theorem filePlace_ok_iff {path : String} {other : Place} :
    after.filePlace path = .ok other ↔ disk.filePlace path = .ok other := by
  simp only [Disk.filePlace_ok_iff, wrote.isFilePath_iff]

theorem isSome_get?_iff {other : Place} :
    (after.get? other).isSome ↔ other = place ∨ (disk.get? other).isSome := by
  by_cases same : other = place
  · simp [same, wrote.content]
  · simp [same, wrote.frame other same]

theorem locate_ok_iff {path : String} {next : Place} : after.locate path = .ok next ↔
    disk.locate path = .ok next ∨ next = place ∧ disk.filePlace path = .ok next := by
  -- The ways are settled before their last directories are, which would hide them.
  simp only [Disk.locate_ok_iff, wrote.way_iff]
  simp only [follow_ok_iff, wrote.isDirectoryAt_iff, wrote.isSome_get?_iff]
  constructor
  · rintro ⟨before, name, directory, usable, way, reached, step⟩
    rcases step with stay | up | ⟨own, short, rfl | present, rfl⟩
    · exact .inl ⟨before, name, directory, usable, way, reached, .inl stay⟩
    · exact .inl ⟨before, name, directory, usable, way, reached, .inr (.inl up)⟩
    · exact .inr ⟨rfl, Disk.filePlace_ok_iff.mpr
        ⟨before, name, directory, ⟨usable, own, short, way.1, reached, wrote.free⟩, rfl⟩⟩
    · exact .inl ⟨before, name, directory, usable, way, reached, .inr (.inr ⟨own, short, present, rfl⟩)⟩
  · rintro (⟨before, name, directory, usable, way, reached, step⟩ | ⟨rfl, found⟩)
    · refine ⟨before, name, directory, usable, way, reached, ?_⟩
      rcases step with stay | up | ⟨own, short, present, rfl⟩
      · exact .inl stay
      · exact .inr (.inl up)
      · exact .inr (.inr ⟨own, short, .inr present, rfl⟩)
    · obtain ⟨before, name, directory, file, rfl⟩ := Disk.filePlace_ok_iff.mp found
      exact ⟨before, name, directory, file.usable, ⟨file.followed, file.reached⟩, file.reached,
        .inr (.inr ⟨file.own, file.short, .inl rfl, rfl⟩)⟩

end Wrote

end Disk

end GLHeader.Files
