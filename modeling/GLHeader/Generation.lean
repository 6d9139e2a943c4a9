import GLHeader.Failure
import GLHeader.Header.Templates
import GLHeader.Host
import GLHeader.Settings
import GLHeader.Surface.Dump

namespace GLHeader

open GLHeader.Files

abbrev Stage (m : Type → Type) (α : Type) := ExceptT Failure m α

variable {m : Type → Type} {α ε : Type} [Monad m]

def Stage.ofResult (failure : ε → Failure) (result : Except ε α) : Stage m α :=
  ExceptT.mk (pure (result.mapError failure))

def Stage.ofAction (failure : ε → Failure) (action : m (Except ε α)) : Stage m α :=
  ExceptT.mk do return (← action).mapError failure

def Version.parse (text : String) : Except Failure Version :=
  (ofText? text).elim (.error (.unknownVersion text)) .ok

def Profile.parse (text : String) : Except Failure Profile :=
  (ofText? text).elim (.error (.unknownProfile text)) .ok

def Surface.ofDocument (document : String) (target : Target) : Except Failure Surface :=
  match Xml.read? document with
  | none => .error .malformedXml
  | some root => (ofRoot root target).mapError .incompleteRegistry

variable [Host m]

def checkInput (path : String) : Stage m String := do
  if !(← (Host.isPresent path : m Bool)) then throw (.unfitPath .absent path)
  if fileName? path != some registryName then throw (.unfitPath .wrongName path)
  return path

def headerIn (directory : String) : Stage m String := do
  if !(← (Host.isDirectory directory : m Bool)) then throw (.unfitPath .notDirectory directory)
  return join directory headerName

def readFile (path : String) : Stage m String :=
  Stage.ofAction (.file path) (Host.readText path)

def writeFile (path content : String) : Stage m Unit := do
  Stage.ofAction (.file path) (Host.writeText path content)
  (Host.record (.fileWritten path content.utf8ByteSize) : m Unit)

def readTemplates (directory : String) : Stage m Header.Templates := do
  return {
    skeleton := ← readFile (join directory "loader.txt")
    interface := ← readFile (join directory "api-dec.txt")
    implementation := ← readFile (join directory "api-def.txt")
    support := ← readFile (join directory "api-static.txt") }

def readSurface (settings : Settings) : Stage m Surface := do
  let document ← readFile settings.input
  let surface ← Stage.ofResult id (Surface.ofDocument document settings.target)
  (Host.record (.surfaceBuilt surface.target surface.tally) : m Unit)
  return surface

def Surface.header (s : Surface) (templates : Header.Templates) (options : Header.Options) :
    Except Failure String :=
  (Header.ofSurface s templates options).mapError .template

def makeHeader (settings : Settings) (templates : Header.Templates) (options : Header.Options) :
    Stage m String := do
  Stage.ofResult id ((← readSurface settings).header templates options)

def openLibrary (name : String) : Stage m Library := do
  let some library ← (Host.openLibrary name : m (Option Library)) | throw .unopenedLibrary
  return library

end GLHeader
