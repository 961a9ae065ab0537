import AssignOnce.Config.Basic
import AssignOnce.Text.Numeral
import AssignOnce.Text.Quoted

/-!
# Flags on the command line

The settings that can be given as `-flag`, `-flag=value` or, for a number, `-flag value`, with one
or two dashes. Reading stops at the first argument that is no flag, behind `--`, or at an error; the
flags before it keep their effect. `CommandLine.usage` describes all flags.
-/

namespace AssignOnce

/-- A flag of the command line. -/
inductive Flag where
  | generated
  | maxTries
  | outArgs
  | params
  | reassign
  | unused
  deriving DecidableEq, Repr

/-- The value of a flag. -/
inductive FlagValue where
  | bool (b : Bool)
  | int (n : Int)
  deriving DecidableEq, Repr

namespace FlagValue

/-- The text of a value. -/
def text : FlagValue → String
  | .bool true => "true"
  | .bool false => "false"
  | .int n => toString n

/-- Whether a value is the one that needs no mention. -/
def isZero : FlagValue → Bool
  | .bool b => !b
  | .int n => n == 0

end FlagValue

namespace Flag

/-- All flags, by name. -/
def all : List Flag := [.generated, .maxTries, .outArgs, .params, .reassign, .unused]

/-- The name of a flag. -/
def name : Flag → String
  | .generated => "generated"
  | .maxTries => "max-tries"
  | .outArgs => "outargs"
  | .params => "params"
  | .reassign => "reassign"
  | .unused => "unused"

/-- The flag with a name. -/
def find? (name : String) : Option Flag :=
  all.find? (·.name == name)

/-- What a flag is for. -/
def description : Flag → String
  | .generated => "check generated files"
  | .maxTries => "maximum number of candidates for a new variable name"
  | .outArgs => "report variables passed by address to calls"
  | .params => "report reassignment of function parameters"
  | .reassign => "report disallowed reassignments"
  | .unused => "report unnecessary reassignment permissions"

/-- The setting that a flag with a truth value makes. -/
def setting? (on : Bool) : Flag → Option Setting
  | .generated => some (.generated on)
  | .outArgs => some (.outArgs on)
  | .params => some (.params on)
  | .reassign => some (.reassign on)
  | .unused => some (.unused on)
  | .maxTries => none

/-- The value of a flag in a configuration. -/
def value (c : Config) : Flag → FlagValue
  | .generated => .bool (c.behavior.enabled Config.generatedMask)
  | .outArgs => .bool (c.behavior.enabled Config.outArgsMask)
  | .params => .bool (c.behavior.enabled Config.paramsMask)
  | .reassign => .bool (c.checks.enabled Config.reassignMask)
  | .unused => .bool (c.checks.enabled Config.unusedMask)
  | .maxTries => .int c.maxTries

end Flag

/-- Why reading the command line stopped early. -/
inductive ArgumentError where
  | invalidBool (flag value : String)
  | notInteger (flag value : String)
  | outOfRange (flag value : String)
  | undefined (name : String)
  | needsValue (flag : String)
  | badForm (argument : String)
  | helpRequested
  deriving DecidableEq, Repr

namespace ArgumentError

/-- What is said about a command line that cannot be read. -/
def message : ArgumentError → String
  | .invalidBool flag value =>
    "invalid boolean value " ++ Quoted.string value ++ " for -" ++ flag ++
      ": strconv.ParseBool: parsing " ++ Quoted.string value ++ ": invalid syntax"
  | .notInteger flag value =>
    "invalid value " ++ Quoted.string value ++ " for flag -" ++ flag ++ ": parse error"
  | .outOfRange flag value =>
    "invalid value " ++ Quoted.string value ++ " for flag -" ++ flag ++ ": value out of range"
  | .undefined name => "flag provided but not defined: -" ++ name
  | .needsValue flag => "flag needs an argument: -" ++ flag
  | .badForm argument => "bad flag syntax: " ++ argument
  | .helpRequested => "flag: help requested"

end ArgumentError

/-- What an argument is. -/
inductive Argument where
  /-- The argument is no flag. -/
  | plain
  /-- The mark behind which no flags stand. -/
  | separator
  /-- The argument begins like a flag but has no name. -/
  | malformed
  | flag (name : String) (value : Option String)
  deriving DecidableEq, Repr

namespace Argument

/-- The name and the value of a flag without its dashes. -/
def ofBody : List Char → Argument
  | [] => .malformed
  | c :: rest =>
    if c = '-' ∨ c = '=' then .malformed
    else
      let name := String.ofList (c :: rest.takeWhile (· != '='))
      match rest.dropWhile (· != '=') with
      | [] => .flag name none
      | _ :: value => .flag name (some (String.ofList value))

/-- What an argument is. -/
def classify (arg : String) : Argument :=
  match arg.toList with
  | '-' :: c :: rest =>
    if c = '-' then (if rest = [] then .separator else ofBody rest) else ofBody (c :: rest)
  | _ => .plain

end Argument

namespace CommandLine

/-- The truth values that can be written. -/
def bool? (s : String) : Option Bool :=
  if ["1", "t", "T", "true", "TRUE", "True", "on", "On"].contains s then some true
  else if ["0", "f", "F", "false", "FALSE", "False", "off", "Off"].contains s then some false
  else none

/-- The state after reading a command line: the configuration, the arguments that are left, and why
reading stopped early. -/
structure Outcome where
  config : Config
  rest : List String
  error : Option ArgumentError

/-- Sets the number of tries. The setting changes even if the number cannot be read. -/
def setTries (c : Config) (value : String) : Config × Option ArgumentError :=
  let name := Flag.maxTries.name
  match Numeral.parse value with
  | .value n => ({ c with maxTries := n }, none)
  | .outOfRange n => ({ c with maxTries := n }, some (.outOfRange name value))
  | .malformed => ({ c with maxTries := 0 }, some (.notInteger name value))

/-- Reads a command line. -/
def parse (c : Config) : List String → Outcome
  | [] => ⟨c, [], none⟩
  | arg :: rest =>
    match Argument.classify arg with
    | .plain => ⟨c, arg :: rest, none⟩
    | .separator => ⟨c, rest, none⟩
    | .malformed => ⟨c, arg :: rest, some (.badForm arg)⟩
    | .flag name value =>
      match Flag.find? name with
      | none =>
        ⟨c, rest, some (if name = "help" ∨ name = "h" then .helpRequested else .undefined name)⟩
      | some .maxTries =>
        match value with
        | some v =>
          match setTries c v with
          | (c, none) => parse c rest
          | (c, some e) => ⟨c, rest, some e⟩
        | none =>
          match rest with
          | [] => ⟨c, [], some (.needsValue name)⟩
          | v :: rest =>
            match setTries c v with
            | (c, none) => parse c rest
            | (c, some e) => ⟨c, rest, some e⟩
      | some flag =>
        match bool? (value.getD "true") with
        | none => ⟨c, rest, some (.invalidBool name (value.getD "true"))⟩
        | some on =>
          match flag.setting? on with
          | some s => parse (s.apply c) rest
          | none => parse c rest

/-- The description of a flag whose default comes from a configuration. -/
def usageOf (c : Config) (f : Flag) : String :=
  let kind := match f.value c with
    | .bool _ => ""
    | .int _ => " int"
  let default := if (f.value c).isZero then "" else " (default " ++ (f.value c).text ++ ")"
  "  -" ++ f.name ++ kind ++ "\n    \t" ++ f.description ++ default ++ "\n"

/-- The description of all flags. -/
def usage (c : Config) : String :=
  String.join (Flag.all.map (usageOf c))

end CommandLine

end AssignOnce
