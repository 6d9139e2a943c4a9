import GLHeader.Surface

namespace GLHeader

inductive Version where
  | v1_0 | v1_1 | v1_2 | v1_3 | v1_4 | v1_5
  | v2_0 | v2_1
  | v3_0 | v3_1 | v3_2 | v3_3
  | v4_0 | v4_1 | v4_2 | v4_3 | v4_4 | v4_5 | v4_6
deriving DecidableEq, Repr, Ord

namespace Version

def all : List Version :=
  [.v1_0, .v1_1, .v1_2, .v1_3, .v1_4, .v1_5, .v2_0, .v2_1, .v3_0, .v3_1, .v3_2, .v3_3,
    .v4_0, .v4_1, .v4_2, .v4_3, .v4_4, .v4_5, .v4_6]

def text : Version → String
  | .v1_0 => "1.0"
  | .v1_1 => "1.1"
  | .v1_2 => "1.2"
  | .v1_3 => "1.3"
  | .v1_4 => "1.4"
  | .v1_5 => "1.5"
  | .v2_0 => "2.0"
  | .v2_1 => "2.1"
  | .v3_0 => "3.0"
  | .v3_1 => "3.1"
  | .v3_2 => "3.2"
  | .v3_3 => "3.3"
  | .v4_0 => "4.0"
  | .v4_1 => "4.1"
  | .v4_2 => "4.2"
  | .v4_3 => "4.3"
  | .v4_4 => "4.4"
  | .v4_5 => "4.5"
  | .v4_6 => "4.6"

def ofText? (text : String) : Option Version := all.find? (·.text == text)

end Version

inductive Profile where
  | core
  | compatibility
deriving DecidableEq, Repr

namespace Profile

def text : Profile → String
  | .core => "core"
  | .compatibility => "compatibility"

def ofText? (text : String) : Option Profile := [core, compatibility].find? (·.text == text)

end Profile

structure Settings where
  version : Version := .v4_6
  profile : Profile := .core
  api : String := "gl"
  input : String := "./OpenGL-Registry/xml/gl.xml"
  output : String := "./glapi.h"
deriving DecidableEq, Repr

def Settings.target (s : Settings) : Target := ⟨s.api, s.version.text, s.profile.text⟩

def registryName : String := "gl.xml"

def headerName : String := "glapi.h"

end GLHeader
