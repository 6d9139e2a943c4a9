import GLHeader.Generation

namespace GLHeader

structure Session where
  desk : Desk := { disk := {} }
  settings : Settings := {}
  templates : Header.Templates := {}
  options : Header.Options := {}
  surface : Option Surface := none
  header : String := ""

namespace Session

inductive SymbolSource where
  | library (name : String)
  | names (available : List String)

inductive Step where
  | store (path : String) (bytes : ByteArray)
  | makeDirectory (path : String)
  | read (path : String)
  | checkInput (path : String)
  | headerIn (directory : String)
  | setInput (path : String)
  | setOutput (path : String)
  | setVersion (text : String)
  | setProfile (text : String)
  | setApi (text : String)
  | setOptions (options : Header.Options)
  | setTemplates (templates : Header.Templates)
  | readTemplates (directory : String)
  | readSurface
  | fillTemplates
  | makeHeader
  | lookUpSymbols (source : SymbolSource)
  | write (path : Option String)

inductive Answer where
  | done
  | nothing
  | text (content : String)
  | settings (settings : Settings)
  | templates (templates : Header.Templates)
  | surface (surface : Surface)
  | symbols (check : SymbolCheck)

inductive Complaint where
  | failed (failure : Failure)
  | noSurface

/-- A step that succeeds gives an answer and the session after it. -/
abbrev Result := Except Complaint (Answer × Session)

def perform {α : Type} (s : Session) (stage : Stage (StateM Desk) α) :
    Except Complaint (α × Session) :=
  match stage.run.run s.desk with
  | (.ok value, desk) => .ok (value, { s with desk })
  | (.error failure, _) => .error (.failed failure)

def changeSettings (s : Session) (settings : Except Failure Settings) : Result :=
  match settings with
  | .ok settings => .ok (.settings settings, { s with settings })
  | .error failure => .error (.failed failure)

def loaded (s : Session) : Except Complaint Surface := s.surface.elim (.error .noSurface) .ok

def lookUpSymbols (s : Session) : SymbolSource → Except Complaint (SymbolCheck × Session)
  | .names available => do return ((← s.loaded).check available.contains, s)
  | .library name => do
    let surface ← s.loaded
    let (library, s) ← s.perform (openLibrary name)
    return (surface.check library.isFound, s)

def step (s : Session) : Step → Result
  | .store path bytes =>
    .ok (.done, { s with desk := { s.desk with disk := s.desk.disk.store path bytes } })
  | .makeDirectory path =>
    .ok (.done, { s with desk := { s.desk with disk := s.desk.disk.makeDirectories path } })
  | .read path =>
    .ok ((s.desk.disk.readText path).toOption.elim .nothing .text, s)
  | .checkInput path => do
    let (input, s) ← s.perform (GLHeader.checkInput path)
    return (.text input, { s with settings := { s.settings with input } })
  | .headerIn directory => do
    let (output, s) ← s.perform (GLHeader.headerIn directory)
    return (.text output, { s with settings := { s.settings with output } })
  | .setInput input => s.changeSettings (.ok { s.settings with input })
  | .setOutput output => s.changeSettings (.ok { s.settings with output })
  | .setVersion text => s.changeSettings do
    return { s.settings with version := ← Version.parse text }
  | .setProfile text => s.changeSettings do
    return { s.settings with profile := ← Profile.parse text }
  | .setApi api => s.changeSettings (.ok { s.settings with api })
  | .setOptions options => .ok (.done, { s with options })
  | .setTemplates templates => .ok (.done, { s with templates })
  | .readTemplates directory => do
    let (templates, s) ← s.perform (GLHeader.readTemplates directory)
    return (.templates templates, { s with templates })
  | .readSurface => do
    let (surface, s) ← s.perform (GLHeader.readSurface s.settings)
    return (.surface surface, { s with surface })
  | .fillTemplates => do
    match (← s.loaded).header s.templates s.options with
    | .ok header => return (.text header, { s with header })
    | .error failure => .error (.failed failure)
  | .makeHeader => do
    let (header, s) ← s.perform (GLHeader.makeHeader s.settings s.templates s.options)
    return (.text header, { s with header })
  | .lookUpSymbols source => do
    let (check, s) ← s.lookUpSymbols source
    return (.symbols check, s)
  | .write path => do
    let ((), s) ← s.perform (writeFile (path.getD s.settings.output) s.header)
    return (.done, s)

end Session

end GLHeader
