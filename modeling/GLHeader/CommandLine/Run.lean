import GLHeader.CommandLine.Arguments
import GLHeader.Generation

namespace GLHeader.CommandLine

variable {m : Type → Type} [Monad m] [Host m]

def Arguments.settings (a : Arguments) : Stage m Settings := do
  let defaults : Settings := {}
  let version ← Stage.ofResult id (Version.parse ((a.value? .version).getD defaults.version.text))
  let profile ← Stage.ofResult id (Profile.parse ((a.value? .profile).getD defaults.profile.text))
  let input ← match a.value? .input with
    | some path => checkInput path
    | none => pure defaults.input
  let output ← match a.value? .output with
    | some directory => headerIn directory
    | none => pure defaults.output
  return { version, profile, input, output, api := defaults.api }

def Arguments.options (a : Arguments) : Header.Options :=
  { spelling := if a.fullTypes then .full else .short }

def Arguments.templates (a : Arguments) : Stage m Header.Templates :=
  match a.value? .templates with
  | some directory => readTemplates directory
  | none => pure {}

def reportSymbols (check : SymbolCheck) : m Unit := do
  for feature in check.filter (!·.missing.isEmpty) do
    Host.record (.symbolsMissing feature)
  Host.record (.symbolsChecked check.foundTotal check.missingTotal check.findsAll)

def Arguments.lookUpSymbols (a : Arguments) (surface : Surface) : Stage m Unit := do
  if let some name := a.value? .library then
    let library ← openLibrary name
    (reportSymbols (surface.check library.isFound) : m Unit)

def Arguments.run (a : Arguments) : Stage m Unit := do
  let settings ← a.settings
  let templates ← a.templates
  let surface ← readSurface settings
  let header ← Stage.ofResult id (surface.header templates a.options)
  writeFile settings.output header
  if let some path := a.value? .dump then
    writeFile path surface.dump
  a.lookUpSymbols surface
  (Host.record (.headerMade settings.output settings.version.text settings.profile.text
    surface.tally) : m Unit)

inductive Outcome where
  | success
  | help
  | failed (failure : Failure)
  | misuse
deriving DecidableEq, Repr

def Outcome.exitCode : Outcome → UInt32
  | .success | .help => 0
  | .failed _ => 1
  | .misuse => 2

def Outcome.message? : Outcome → Option String
  | .failed failure => some ("glapi: " ++ failure.message)
  | _ => none

def run (arguments : List String) : m Outcome := do
  match Order.ofArguments {} arguments with
  | .help => return .help
  | .misuse => return .misuse
  | .run a =>
    match ← ExceptT.run (a.run : Stage m Unit) with
    | .ok () => return .success
    | .error failure => return .failed failure

end GLHeader.CommandLine
