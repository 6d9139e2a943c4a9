import GLHeader.Files.Disk

namespace GLHeader.Files

/-- What a run can ask of a file system and do to it. A write that fails changes nothing. -/
class Storage (σ : Type) where
  isPresent : σ → String → Bool
  isDirectory : σ → String → Bool
  readText : σ → String → Except Fault String
  write : σ → String → ByteArray → Except Fault σ

instance : Storage Disk where
  isPresent := Disk.isPresent
  isDirectory := Disk.isDirectory
  readText := Disk.readText
  write := Disk.write

end GLHeader.Files
