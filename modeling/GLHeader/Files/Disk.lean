import GLHeader.Files.Path

namespace GLHeader.Files

inductive Fault where
  | notFound
  | notDirectory
  | isDirectory
  | notText
  | nulInPath
  | nameTooLong
  | other (wording : String)
deriving DecidableEq, Repr

def Fault.message : Fault → String
  | .notFound => "No such file or directory (os error 2)"
  | .notDirectory => "Not a directory (os error 20)"
  | .isDirectory => "Is a directory (os error 21)"
  | .notText => "stream did not contain valid UTF-8"
  | .nulInPath => "file name contained an unexpected NUL byte"
  | .nameTooLong => "File name too long (os error 36)"
  | .other wording => wording

def nameLimit : Nat := 255

def pathLimit : Nat := 4095

abbrev Place := List String

inductive Entry where
  | directory
  | file (bytes : ByteArray)

instance : DecidableEq Entry
  | .directory, .directory => isTrue rfl
  | .file bytes, .file bytes' =>
    decidable_of_iff (bytes.data = bytes'.data) (by rw [Entry.file.injEq, ByteArray.ext_iff])
  | .directory, .file _ | .file _, .directory => isFalse nofun

structure Disk where
  entries : List (Place × Entry) := []
  home : Place := []

namespace Disk

def get? (disk : Disk) (place : Place) : Option Entry :=
  if place.isEmpty then some .directory else disk.entries.lookup place

def put (disk : Disk) (place : Place) (entry : Entry) : Disk :=
  { disk with entries := (place, entry) :: disk.entries.filter (·.1 != place) }

def follow (disk : Disk) (place : Place) (part : String) : Except Fault Place :=
  if disk.get? place != some .directory then .error .notDirectory
  else if part == "" || part == "." then .ok place
  else if part == ".." then .ok place.dropLast
  else if nameLimit < part.utf8ByteSize then .error .nameTooLong
  else if (disk.get? (place ++ [part])).isSome then .ok (place ++ [part])
  else .error .notFound

def usableParts (path : String) : Except Fault (List String) :=
  if path.toList.contains '\x00' then .error .nulInPath
  else if path == "" then .error .notFound
  else if pathLimit < path.utf8ByteSize then .error .nameTooLong
  else .ok (parts path)

def start (disk : Disk) (parts : List String) : Place :=
  if parts.head? == some "" then [] else disk.home

def locate (disk : Disk) (path : String) : Except Fault Place := do
  let parts ← usableParts path
  parts.foldlM disk.follow (disk.start parts)

def entry? (disk : Disk) (path : String) : Option Entry :=
  (disk.locate path).toOption.bind disk.get?

def isPresent (disk : Disk) (path : String) : Bool := (disk.entry? path).isSome

def isDirectory (disk : Disk) (path : String) : Bool := disk.entry? path == some .directory

def readText (disk : Disk) (path : String) : Except Fault String := do
  match disk.get? (← disk.locate path) with
  | none => .error .notFound
  | some .directory => .error .isDirectory
  | some (.file bytes) =>
    match String.fromUTF8? bytes with
    | some text => .ok text
    | none => .error .notText

/-- Where a file of that path is or can be made. Its directory must be there, and a path that ends
    in a slash or in dots names no file. -/
def filePlace (disk : Disk) (path : String) : Except Fault Place := do
  let parts ← usableParts path
  let named := (parts.reverse.dropWhile (· == "")).reverse
  let directory ← (named.dropLast ++ [""]).foldlM disk.follow (disk.start parts)
  let name := named.getLast?.getD ""
  let place := directory ++ [name]
  if named.length < parts.length || name == "." || name == ".." then .error .isDirectory
  else if nameLimit < name.utf8ByteSize then .error .nameTooLong
  else if disk.get? place == some .directory then .error .isDirectory
  else .ok place

def write (disk : Disk) (path : String) (bytes : ByteArray) : Except Fault Disk := do
  return disk.put (← disk.filePlace path) (.file bytes)

def pave (disk : Disk) (place : Place) : List String → Disk
  | [] => disk
  | part :: rest =>
    match disk.follow place part with
    | .ok place => disk.pave place rest
    | .error .notFound => (disk.put (place ++ [part]) .directory).pave (place ++ [part]) rest
    | .error _ => disk

/-- Makes the directories of a path. One that ends in a dot says where to stand in its last
    directory, which must be there: only those before it are made. -/
def makeDirectories (disk : Disk) (path : String) : Disk :=
  match usableParts path with
  | .ok whole =>
    let endsInDot := whole.reverse.find? (· != "") == some "."
    let parts := if endsInDot then parts (parent path) else whole
    disk.pave (disk.start parts) parts
  | .error _ => disk

def store (disk : Disk) (path : String) (bytes : ByteArray) : Disk :=
  let reached := disk.makeDirectories (parent path)
  (reached.write path bytes).toOption.getD reached

def changes (before after : Disk) : List (String × String) :=
  after.entries.filterMap fun (place, entry) =>
    match entry with
    | .directory => none
    | .file bytes =>
      if before.get? place == some entry then none
      else some ("/".intercalate (place.drop after.home.length), (String.fromUTF8? bytes).getD "")

end Disk

end GLHeader.Files
