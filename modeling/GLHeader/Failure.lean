import GLHeader.Files.Disk
import GLHeader.Registry
import GLHeader.Template

namespace GLHeader

inductive PathFault where
  | absent
  | wrongName
  | notDirectory
deriving DecidableEq, Repr

def PathFault.message : PathFault → String
  | .absent => "argument isn't a valid path"
  | .wrongName => "invalid file"
  | .notDirectory => "not a directory"

inductive Failure where
  | malformedXml
  | incompleteRegistry (defect : Defect)
  | template (fault : Template.Fault)
  | unknownVersion (text : String)
  | unknownProfile (text : String)
  | unfitPath (fault : PathFault) (path : String)
  | file (path : String) (fault : Files.Fault)
  | unopenedLibrary
deriving DecidableEq, Repr

def Failure.message : Failure → String
  | .malformedXml => "Malformed XML"
  | .incompleteRegistry defect =>
    "Malformed registry: <" ++ defect.element ++ "> is missing " ++ defect.missing
  | .template (.unknown name) =>
    "Unknown template placeholder: " ++ Template.openingMark ++ name ++ Template.closingMark
  | .template (.unterminated offset) =>
    "Unterminated template placeholder at byte " ++ toString offset
  | .unknownVersion text => "invalid version: " ++ text
  | .unknownProfile text => "invalid profile: " ++ text
  | .unfitPath fault path => fault.message ++ ": " ++ path
  | .file path fault => "I/O error on \"" ++ path ++ "\": " ++ fault.message
  | .unopenedLibrary => "Loading library"

end GLHeader
