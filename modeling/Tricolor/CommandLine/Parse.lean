import Tricolor.CommandLine.Invocation

/-!
# Reading a command line

Arguments are read from left to right.  A value may be attached to its option
or follow it as the next argument; in the second case the option stays pending
until something else happens, and only then is its value looked at.
-/

namespace Tricolor

/-- Why reading a command line did not produce an invocation. -/
inductive Interruption where
  | usage (error : UsageError)
  | help
  | version
  deriving DecidableEq, Repr

/-- A setting that waits for its value, or whose value waits to be looked at. -/
structure PendingSetting where
  setting : Setting
  value : Option String := none
  deriving DecidableEq, Repr

/-- How far a command line has been read. -/
structure Parse where
  invocation : Invocation := {}
  pending : Option PendingSetting := none
  /-- Two dashes have been read: there are no options any more. -/
  optionsEnded : Bool := false
  deriving DecidableEq, Repr

namespace Parse

def refuse (error : UsageError) : Except Interruption α :=
  .error (.usage error)

def give (parse : Parse) (setting : Setting) (value : Option String) :
    Except Interruption Parse :=
  match parse.invocation.give setting value with
  | .error error => refuse error
  | .ok invocation => .ok { parse with invocation }

/-- Looks at the value of the pending setting. -/
def resolve (parse : Parse) : Except Interruption Parse :=
  match parse.pending with
  | none => .ok parse
  | some pending => { parse with pending := none }.give pending.setting pending.value

/-- The greatest verbosity. -/
def maxVerbosity : Nat := 255

def flip (parse : Parse) : Switch → Except Interruption Parse
  | .json =>
      if parse.invocation.json then refuse .repeated
      else .ok { parse with invocation := { parse.invocation with json := true } }
  | .verbose =>
      let verbosity := min maxVerbosity (parse.invocation.verbosity + 1)
      .ok { parse with invocation := { parse.invocation with verbosity } }
  | .help => .error .help
  | .version => .error .version

/-- Takes up a setting.  An attached value is looked at right away. -/
def takeSetting (parse : Parse) (setting : Setting) (attached : Option String) :
    Except Interruption Parse := do
  let parse ← parse.resolve
  match attached with
  | some value => parse.give setting (some value)
  | none => return { parse with pending := some { setting } }

def takeSwitch (parse : Parse) (switch : Switch) : Except Interruption Parse := do
  let parse ← parse.resolve
  parse.flip switch

/-- Splits a long option at its first equals sign. -/
def splitAttached (text : List Char) : String × Option String :=
  let name := String.ofList (text.takeWhile (· != '='))
  match text.dropWhile (· != '=') with
  | [] => (name, none)
  | _ :: value => (name, some (String.ofList value))

/-- Reads a long option; the two dashes have been read. -/
def takeLong (parse : Parse) (argument : String) (text : List Char) :
    Except Interruption Parse :=
  let (name, attached) := splitAttached text
  match Flag.ofName? name, attached with
  | none, _ => refuse (.unknownArgument argument)
  | some (.setting setting), attached => parse.takeSetting setting attached
  | some (.switch _), some value => refuse (.unexpectedValue value)
  | some (.switch switch), none => parse.takeSwitch switch

/-- The value attached to a letter, with or without an equals sign. -/
def attachedToLetter : List Char → Option String
  | [] => none
  | '=' :: value => some (String.ofList value)
  | value => some (String.ofList value)

/-- Reads a cluster of letters; the dash has been read. -/
def takeLetters (parse : Parse) (argument : String) : List Char → Except Interruption Parse
  | [] => .ok parse
  | letter :: letters =>
      match Flag.ofLetter? letter with
      | none => refuse (.unknownArgument argument)
      | some (.setting setting) => parse.takeSetting setting (attachedToLetter letters)
      | some (.switch switch) =>
          match parse.takeSwitch switch with
          | .error interruption => .error interruption
          | .ok parse => takeLetters parse argument letters

/-- Reads an argument that is no option: the value of a setting that waits for
one, and nothing else. -/
def takePlain (parse : Parse) (argument : String) : Except Interruption Parse :=
  match parse.pending with
  | some { setting, value := none } =>
      .ok { parse with pending := some { setting, value := some argument } }
  | _ => refuse (.unknownArgument argument)

def takeArgument (parse : Parse) (argument : String) : Except Interruption Parse :=
  if parse.optionsEnded then refuse (.unknownArgument argument)
  else
    match argument.toList with
    | ['-', '-'] => .ok { parse with optionsEnded := true }
    | '-' :: '-' :: text => parse.takeLong argument text
    | '-' :: letter :: letters => parse.takeLetters argument (letter :: letters)
    | _ => parse.takePlain argument

end Parse

/-- Reads a command line without the name of the program. -/
def Invocation.ofArguments (arguments : List String) : Except Interruption Invocation := do
  let parse ← arguments.foldlM Parse.takeArgument {}
  let parse ← parse.resolve
  return parse.invocation

end Tricolor
