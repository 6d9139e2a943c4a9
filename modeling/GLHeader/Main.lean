import GLHeader.CommandLine.Run

namespace GLHeader

def Files.Fault.ofError : IO.Error → Files.Fault
  | .noFileOrDirectory .. => .notFound
  | .inappropriateType _ code _ => if code = 21 then .isDirectory else .notDirectory
  | error@(.invalidArgument _ code _) =>
    if code = 36 then .nameTooLong else .other (toString error)
  | error => .other (toString error)

def findsPath (path : String) : IO Bool := do
  try
    discard (IO.FS.realPath path)
    return true
  catch _ => return false

def attempt {α : Type} (action : IO (Except Files.Fault α)) : IO (Except Files.Fault α) := do
  try action
  catch error => return .error (.ofError error)

/-- Foreign libraries are out of reach, so none of them opens. -/
instance : Host IO where
  isPresent := findsPath
  isDirectory path := if path == "" then return false else findsPath (path ++ "/.")
  readText path := attempt do
    match String.fromUTF8? (← IO.FS.readBinFile path) with
    | some text => return .ok text
    | none => return .error .notText
  writeText path content := attempt do
    IO.FS.writeFile path content
    return .ok ()
  openLibrary _ := return none
  record entry := IO.println entry.text

def usage : String :=
  "Usage: glapi [-v VERSION] [-p PROFILE] [-i FILE] [-o DIR] [-t DIR] [--declared-types] " ++
    "[--dump-surface FILE] [--check-symbols LIB]"

end GLHeader

open GLHeader in
def main (arguments : List String) : IO UInt32 := do
  let outcome ← (CommandLine.run arguments : IO CommandLine.Outcome)
  match outcome with
  | .help => IO.println usage
  | .misuse => IO.eprintln usage
  | _ => pure ()
  if let some message := outcome.message? then
    IO.eprintln message
  return outcome.exitCode
