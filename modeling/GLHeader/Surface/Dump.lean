import GLHeader.Json
import GLHeader.Surface

namespace GLHeader

def Parameter.toJson (p : Parameter) : Json :=
  .record [("ty", .string p.type.short), ("declared_ty", .string p.type.full),
    ("name", .string p.name)]

def Signature.toJson (s : Signature) : Json :=
  .record [("return_type", .string s.result.short),
    ("declared_return_type", .string s.result.full),
    ("params", .list (s.parameters.map Parameter.toJson))]

def Constant.toJson (c : Constant) : Json :=
  .record [("name", .string c.name), ("value", .string c.value)]

def Command.toJson (c : Command) : Json :=
  .record [("name", .string c.name), ("signature", c.signature.toJson)]

def Feature.toJson (f : Feature) : Json :=
  .record [("version", .string f.version), ("name", .string f.name),
    ("constants", .list (f.constants.map Constant.toJson)),
    ("commands", .list (f.commands.map Command.toJson))]

def Surface.toJson (s : Surface) : Json :=
  .record [("api", .string s.target.api), ("version", .string s.target.version),
    ("profile", .string s.target.profile), ("types", .list (s.types.map .string)),
    ("features", .list (s.features.map Feature.toJson)),
    ("version_matched", .boolean s.hasVersion)]

def Surface.dump (s : Surface) : String := s.toJson.pretty 0

end GLHeader
