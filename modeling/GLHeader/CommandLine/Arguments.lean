namespace GLHeader.CommandLine

inductive Key where
  | version
  | profile
  | input
  | output
  | templates
  | dump
  | library
deriving DecidableEq, Repr

def Key.ofLong? : String → Option Key
  | "version" => some .version
  | "profile" => some .profile
  | "input" => some .input
  | "output" => some .output
  | "templates" => some .templates
  | "dump-surface" => some .dump
  | "check-symbols" => some .library
  | _ => none

def Key.ofShort? : Char → Option Key
  | 'v' => some .version
  | 'p' => some .profile
  | 'i' => some .input
  | 'o' => some .output
  | 't' => some .templates
  | _ => none

/-- Versions and profiles may be empty here and are checked later; paths may not. -/
def Key.accepts (key : Key) (value : String) : Bool :=
  key == .version || key == .profile || value != ""

structure Arguments where
  values : List (Key × String) := []
  fullTypes : Bool := false
deriving DecidableEq, Repr

def Arguments.value? (a : Arguments) (key : Key) : Option String := a.values.lookup key

def Arguments.give? (a : Arguments) (key : Key) (value : String) : Option Arguments :=
  if key.accepts value && (a.value? key).isNone then
    some { a with values := (key, value) :: a.values }
  else none

def Arguments.giveFullTypes? (a : Arguments) : Option Arguments :=
  if a.fullTypes then none else some { a with fullTypes := true }

inductive Meaning where
  | help
  | fullTypes
  | given (key : Key) (value : String)
  | awaiting (key : Key)
  | terminator
  | misuse
deriving DecidableEq, Repr

def longMeaning (body : List Char) : Meaning :=
  let (name, value) := body.span (· != '=')
  match String.ofList name, value with
  | "", [] => .terminator
  | "help", [] => .help
  | "declared-types", [] => .fullTypes
  | name, value =>
    match Key.ofLong? name, value with
    | none, _ => .misuse
    | some key, [] => .awaiting key
    | some key, _ :: value => .given key (.ofList value)

def shortMeaning (letter : Char) (rest : List Char) : Meaning :=
  if letter == 'h' then .help
  else match Key.ofShort? letter, rest with
    | none, _ => .misuse
    | some key, [] => .awaiting key
    | some key, '=' :: value => .given key (.ofList value)
    | some key, value => .given key (.ofList value)

def meaning (argument : String) : Meaning :=
  match argument.toList with
  | '-' :: '-' :: body => longMeaning body
  | '-' :: letter :: rest => shortMeaning letter rest
  | _ => .misuse

/-- Whether an argument can be the value of the option before it. -/
def isValue (argument : String) : Bool :=
  match argument.toList with
  | '-' :: _ :: _ => false
  | _ => true

inductive Order where
  | help
  | misuse
  | run (arguments : Arguments)
deriving DecidableEq, Repr

def Order.ofArguments (a : Arguments) : List String → Order
  | [] => .run a
  | argument :: rest =>
    match meaning argument with
    | .help => .help
    | .misuse => .misuse
    | .terminator => if rest.isEmpty then .run a else .misuse
    | .fullTypes =>
      match a.giveFullTypes? with
      | some a => ofArguments a rest
      | none => .misuse
    | .given key value =>
      match a.give? key value with
      | some a => ofArguments a rest
      | none => .misuse
    | .awaiting key =>
      match rest with
      | [] => .misuse
      | value :: rest =>
        match (if isValue value then a.give? key value else none) with
        | some a => ofArguments a rest
        | none => .misuse

end GLHeader.CommandLine
