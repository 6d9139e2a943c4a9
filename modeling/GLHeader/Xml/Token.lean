namespace GLHeader.Xml

structure QualifiedName where
  qualifier : String
  base : String
deriving DecidableEq, Repr

structure RawAttribute where
  name : QualifiedName
  written : List Char
deriving DecidableEq, Repr

inductive Token where
  | text (written : List Char)
  | literal (written : List Char)
  | comment
  | instruction
  | opening (name : QualifiedName) (attributes : List RawAttribute)
  | closing (name : QualifiedName)
  | whole (name : QualifiedName) (attributes : List RawAttribute)
deriving DecidableEq, Repr

end GLHeader.Xml
