import Stylus.Config.Address

/-!
# The command line

The server is started with options, each given at most once: a letter after one hyphen or a name
after two, and then perhaps a value, which follows as an argument of its own or is attached.

* `Flag` — the options;
* `Options.ofArguments` — what arguments ask for, or why they make no sense (`Misuse`).

Arguments are taken one by one, so that what comes first counts: whoever asks for the version is
told, whatever follows.
-/

set_option autoImplicit false

namespace Stylus

/-- An option of the command line. -/
inductive Flag where
  | config
  | printConfig
  | backend
  | port
  | listen
  | listenPort
  | help
  | version
deriving DecidableEq, Repr

namespace Flag

/-- The names of options. -/
def names : List (String × Flag) :=
  [("config", config), ("print-config", printConfig), ("backend", backend), ("port", port),
    ("listen", listen), ("listen-port", listenPort), ("help", help), ("version", version)]

/-- The letters of options. -/
def letters : List (Char × Flag) :=
  [('C', config), ('b', backend), ('l', listen), ('p', listenPort), ('h', help), ('V', version)]

/-- The option of a name. -/
def ofName? (name : String) : Option Flag :=
  (names.find? (·.1 = name)).map (·.2)

/-- The option of a letter. -/
def ofLetter? (letter : Char) : Option Flag :=
  (letters.find? (·.1 = letter)).map (·.2)

/-- The option has a value. -/
def hasValue : Flag → Bool
  | config | backend | port | listen | listenPort => true
  | printConfig | help | version => false

/-- The name of an option. -/
def name (flag : Flag) : String :=
  ((names.find? (·.2 = flag)).map (·.1)).getD ""

end Flag

/-- Why arguments make no sense. -/
inductive Misuse where
  | unknownArgument (argument : String)
  | missingValue (flag : Flag)
  | unexpectedValue (flag : Flag)
  | invalidValue (flag : Flag) (value : String)
  | repeated (flag : Flag)
deriving DecidableEq, Repr

/-- The wording of a misuse. -/
def Misuse.message : Misuse → String
  | unknownArgument argument => s!"unexpected argument '{argument}' found"
  | missingValue flag => s!"a value is required for '--{flag.name}' but none was supplied"
  | unexpectedValue flag => s!"unexpected value for '--{flag.name}' found; no more were expected"
  | invalidValue flag value => s!"invalid value '{value}' for '--{flag.name}'"
  | repeated flag => s!"the argument '--{flag.name}' cannot be used multiple times"

/-- What the options say. -/
structure Options where
  config : Option String := none
  printConfig : Bool := false
  backend : Option String := none
  port : Option String := none
  listen : Option Address := none
  listenPort : Option UInt16 := none
deriving DecidableEq, Repr

/-- What a command line asks for. -/
inductive Asked where
  | start (o : Options)
  | help
  | version
deriving DecidableEq, Repr

namespace Options

/-! ## Values -/

/-- A number with digits only. -/
def digitsValue? (cs : List Char) : Option Nat :=
  if cs.isEmpty || !cs.all Char.isDigit then none
  else some (cs.foldl (fun n c => n * 10 + (c.toNat - 48)) 0)

/-- A number, with or without a sign. -/
def number? (s : String) : Option Int :=
  match s.toList with
  | '-' :: rest => (digitsValue? rest).map fun n => -(n : Int)
  | '+' :: rest => (digitsValue? rest).map fun n => (n : Int)
  | cs => (digitsValue? cs).map fun n => (n : Int)

/-- The number of a port. -/
def portNumber? (s : String) : Option UInt16 := do
  let n ← number? s
  guard (0 ≤ n && n < 65536)
  return n.toNat.toUInt16

/-- The value of an option is noted. -/
def note (o : Options) (flag : Flag) (value : String) : Except Misuse Options :=
  match flag with
  | .config =>
    if value.isEmpty then .error (.missingValue flag) else .ok { o with config := some value }
  | .backend => .ok { o with backend := some value }
  | .port => .ok { o with port := some value }
  | .listen =>
    match Address.ofText? value with
    | some address => .ok { o with listen := some address }
    | none => .error (.invalidValue flag value)
  | .listenPort =>
    match portNumber? value with
    | some port => .ok { o with listenPort := some port }
    | none => .error (.invalidValue flag value)
  | .printConfig | .help | .version => .error (.unexpectedValue flag)

/-! ## Arguments -/

/-- An option as it is given: an attached value comes with it. -/
structure Given where
  flag : Flag
  attached : Option String

/-- The option that an argument gives. -/
def given? (argument : String) : Option Given :=
  match argument.toList with
  | '-' :: '-' :: cs =>
    let name := cs.takeWhile (· ≠ '=')
    let attached :=
      match cs.dropWhile (· ≠ '=') with
      | _ :: value => some (String.ofList value)
      | [] => none
    (Flag.ofName? (String.ofList name)).map (⟨·, attached⟩)
  | '-' :: letter :: cs =>
    let attached :=
      match cs with
      | [] => none
      | '=' :: value => some (String.ofList value)
      | value => some (String.ofList value)
    (Flag.ofLetter? letter).map (⟨·, attached⟩)
  | _ => none

/-- An argument that can be the value of the option in front of it. -/
def canBeValue (argument : String) : Bool :=
  argument = "-" || !argument.startsWith "-"

/-- An option without a value. -/
def takeSwitch (o : Options) (argument : String) (g : Given) : Except Misuse Asked :=
  match g.flag with
  | .help => if g.attached.isSome && argument.startsWith "--" then misused else .ok .help
  | .version => if g.attached.isSome && argument.startsWith "--" then misused else .ok .version
  | _ => if g.attached.isSome then misused else .ok (.start { o with printConfig := true })
where
  /-- The option has a value all the same. -/
  misused : Except Misuse Asked := .error (.unexpectedValue g.flag)

/-- What arguments ask for, after those that gave `o` and the options in `seen`. -/
def readFrom (o : Options) (seen : List Flag) : List String → Except Misuse Asked
  | [] => .ok (.start o)
  | "--" :: [] => .ok (.start o)
  | "--" :: argument :: _ => .error (.unknownArgument argument)
  | argument :: rest =>
    match given? argument with
    | none => .error (.unknownArgument argument)
    | some g =>
      if seen.contains g.flag then .error (.repeated g.flag)
      else if g.flag.hasValue then
        match g.attached, rest with
        | some value, rest => do readFrom (← o.note g.flag value) (g.flag :: seen) rest
        | none, value :: rest =>
          if canBeValue value then do readFrom (← o.note g.flag value) (g.flag :: seen) rest
          else .error (.missingValue g.flag)
        | none, [] => .error (.missingValue g.flag)
      else
        match takeSwitch o argument g with
        | .ok (.start o) => readFrom o (g.flag :: seen) rest
        | asked => asked

/-- What arguments ask for. -/
def ofArguments (arguments : List String) : Except Misuse Asked :=
  readFrom {} [] arguments

end Options

end Stylus
