import PoolIndexer.Text.Decimal

/-!
# Command.Options — reading the arguments of a program

Options have a long name behind two hyphens and may have a short one behind a single hyphen.  A value
stands behind `=` or in the next argument, which must not look like an option.  No option may be
given twice, and there are no other arguments.  The first thing that is wrong decides, unless help
has been asked for before.
-/

namespace PoolIndexer

namespace Command

inductive OptionKind where
  | flag
  /-- Has a value, which may be restricted. -/
  | value (accepts : String → Bool)

structure OptionSpec where
  long : String
  short : Option Char
  kind : OptionKind

def anyText (_ : String) : Bool := true

def isHeight (s : String) : Bool := (Text.Decimal.int64? s.toList).isSome

inductive Arguments where
  | help
  | misused
  /-- The options that are given and their values; a flag has the empty value. -/
  | options (given : List (String × String))
  deriving DecidableEq

/-- What one argument is. -/
inductive Word where
  /-- The end of the options. -/
  | rest
  | help
  | option (spec : OptionSpec) (value : Option String)
  | unknown

def ofLong (specs : List OptionSpec) (body : List Char) : Word :=
  let name := String.ofList (body.takeWhile (· ≠ '='))
  let value := match body.dropWhile (· ≠ '=') with
    | _ :: v => some (String.ofList v)
    | [] => none
  if name = "help" then (if value.isNone then .help else .unknown)
  else
    match specs.find? fun s => s.long = name with
    | some spec => .option spec value
    | none => .unknown

/-- A short name; what follows it in the argument is its value. -/
def ofShort (specs : List OptionSpec) (name : Char) (body : List Char) : Word :=
  if name = 'h' then .help
  else
    match specs.find? fun s => s.short = some name with
    | none => .unknown
    | some spec =>
      match body with
      | [] => .option spec none
      | '=' :: v => .option spec (some (String.ofList v))
      | v => .option spec (some (String.ofList v))

def wordOf (specs : List OptionSpec) (argument : String) : Word :=
  match argument.toList with
  | ['-', '-'] => .rest
  | '-' :: '-' :: body => ofLong specs body
  | '-' :: name :: body => ofShort specs name body
  | _ => .unknown

def looksLikeOption (argument : String) : Bool :=
  match argument.toList with
  | '-' :: _ :: _ => true
  | _ => false

/-- Adds an option with its value if that is allowed. -/
def add? (given : List (String × String)) (spec : OptionSpec) (value : Option String) :
    Option (List (String × String)) :=
  if (given.lookup spec.long).isSome then none
  else
    match spec.kind, value with
    | .flag, none => some (given ++ [(spec.long, "")])
    | .value accepts, some v => if accepts v then some (given ++ [(spec.long, v)]) else none
    | _, _ => none

/-- Whether the value of an option has to come from the next argument. -/
def wantsNext (spec : OptionSpec) (value : Option String) : Bool :=
  match spec.kind, value with
  | .value _, none => true
  | _, _ => false

def readFrom (specs : List OptionSpec) (given : List (String × String)) : List String → Arguments
  | [] => .options given
  | argument :: rest =>
    match wordOf specs argument with
    | .rest => if rest.isEmpty then .options given else .misused
    | .help => .help
    | .unknown => .misused
    | .option spec value =>
      if wantsNext spec value then
        match rest with
        | [] => .misused
        | v :: rest =>
          if looksLikeOption v then .misused
          else
            match add? given spec (some v) with
            | some given => readFrom specs given rest
            | none => .misused
      else
        match add? given spec value with
        | some given => readFrom specs given rest
        | none => .misused

def read (specs : List OptionSpec) (arguments : List String) : Arguments :=
  readFrom specs [] arguments

end Command

end PoolIndexer
