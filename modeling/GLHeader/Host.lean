import GLHeader.Files.Storage
import GLHeader.Log

namespace GLHeader

class Host (m : Type → Type) where
  isPresent : String → m Bool
  isDirectory : String → m Bool
  readText : String → m (Except Files.Fault String)
  writeText : String → String → m (Except Files.Fault Unit)
  openLibrary : String → m (Option Library)
  record : LogEntry → m Unit

/-- Surroundings as data, on a file system of any kind. -/
structure Surroundings (σ : Type) where
  disk : σ
  libraries : List (String × Library) := []
  log : List LogEntry := []

abbrev Desk := Surroundings Files.Disk

variable {σ : Type} [Files.Storage σ]

def Surroundings.writeText (desk : Surroundings σ) (path content : String) :
    Except Files.Fault Unit × Surroundings σ :=
  match Files.Storage.write desk.disk path content.toUTF8 with
  | .ok disk => (.ok (), { desk with disk })
  | .error fault => (.error fault, desk)

instance : Host (StateM (Surroundings σ)) where
  isPresent path := do return Files.Storage.isPresent (← get).disk path
  isDirectory path := do return Files.Storage.isDirectory (← get).disk path
  readText path := do return Files.Storage.readText (← get).disk path
  writeText path content := modifyGet (·.writeText path content)
  openLibrary name := do return (← get).libraries.lookup name
  record entry := modify fun desk => { desk with log := desk.log ++ [entry] }

end GLHeader
