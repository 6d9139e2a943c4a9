import GLHeader.Header.Builtin
import GLHeader.Header.Sections
import GLHeader.Template
import GLHeader.Text.Blank

namespace GLHeader.Header

open GLHeader.Text

structure Templates where
  skeleton : String := Builtin.skeleton
  interface : String := Builtin.interface
  implementation : String := Builtin.implementation
  support : String := Builtin.support
deriving DecidableEq, Repr

def Sections.values (s : Sections) (version profile : String) : List (String × String) :=
  [("PROFILE", profile), ("VERSION", version), ("GL_VERSION_DEF", s.versions),
    ("GL_TYPES", s.types), ("GL_API_DEC", s.declarations), ("GL_API_DEF", s.definitions),
    ("GL_API_IMPL", s.loads)]

def fillFragment (template : String) (values : List (String × String)) :
    Except Template.Fault String :=
  fillTemplate (trimEnd template) values

/-- Fills the three inner templates, then the frame with them. -/
def Templates.fill (t : Templates) (s : Sections) (version profile : String) :
    Except Template.Fault String := do
  let values := s.values version profile
  let interface ← fillFragment t.interface values
  let implementation ← fillFragment t.implementation values
  let support ← fillFragment t.support values
  let fragments :=
    [("API_DEC", interface), ("API_DEF", implementation), ("API_STATIC", support)]
  fillTemplate t.skeleton (values ++ fragments)

def ofSurface (s : Surface) (t : Templates) (o : Options) : Except Template.Fault String :=
  t.fill (sections s o) s.target.version s.target.profile

end GLHeader.Header
