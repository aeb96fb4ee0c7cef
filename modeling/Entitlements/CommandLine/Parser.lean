import Entitlements.Keyed
import Entitlements.Text.Numeral
import Entitlements.Text.Split

/-!
Reading the arguments of a command. A flag is written with two dashes, in full or as any leading
part that no other flag shares, and takes its value from the same argument, after an equals sign, or
from the next one. An argument that looks like a negative number, or has a blank in it and is no
flag, is a value. A bare double dash ends the flags, and as no command takes values of its own there
is nothing that could rightly stand after them. After an equals sign it takes the place of a value
without being one.

The arguments are first sorted by their form, and an abbreviation that fits several flags spoils the
command before anything else is looked at. The rest is read from left to right, and whatever comes
first decides: a request for help, or a flag whose value is missing or malformed. Stray values,
unknown flags and missing required ones are noticed at the end.
-/

namespace Entitlements.CommandLine

inductive Kind where
  | text
  | integer
  | switch
  deriving DecidableEq, Repr

structure Flag where
  /-- The name without its dashes. -/
  name : String
  kind : Kind
  isRequired : Bool
  deriving DecidableEq, Repr

/-- What a flag was set to. -/
inductive Setting where
  | text (value : String)
  | integer (value : Int)
  | on
  | nothing
  deriving DecidableEq, Repr

inductive Parsed where
  | settings (values : Keyed Setting)
  | help
  | misuse
  deriving DecidableEq

/-! ### Forms of arguments -/

inductive Token where
  | value (text : String)
  | flag (flag : Flag) (attached : Option String)
  | help
  | malformed
  | unknown
  deriving DecidableEq

/-- What a name with dashes can stand for. -/
inductive Target where
  | flag (flag : Flag)
  | help
  deriving DecidableEq

def Target.name : Target → List Char
  | .flag f => '-' :: '-' :: f.name.toList
  | .help => "--help".toList

def targets (flags : List Flag) : List Target := .help :: flags.map .flag

/-- A switch takes no value, and neither does the request for help. -/
def Target.token (attached : Option String) : Target → Token
  | .help => if attached.isSome then .malformed else .help
  | .flag f => if f.kind = .switch ∧ attached.isSome then .malformed else .flag f attached

/-- Is this a request for help, given what follows its first letter? The letter may be repeated,
and one equals sign may stand before that. -/
def isHelp : List Char → Bool
  | '=' :: hs => !hs.isEmpty && hs.all (· == 'h')
  | hs => hs.all (· == 'h')

def isNegativeNumber (cs : List Char) : Bool :=
  match Text.asciiDigits (Text.dropFinalBreak cs) with
  | '-' :: ds => match Text.cut? '.' ds with
    | none => !ds.isEmpty && ds.all Text.isDigit
    | some (whole, part) => whole.all Text.isDigit && !part.isEmpty && part.all Text.isDigit
  | _ => false

/-- The form of an argument, unless it abbreviates several flags. -/
def classify (flags : List Flag) (arg : String) : Option Token :=
  let cs := arg.toList
  match cs with
  | '-' :: '-' :: _ =>
    let (name, attached) := match Text.cut? '=' cs with
      | some (name, attached) => (name, some (String.ofList attached))
      | none => (cs, none)
    match (targets flags).find? (·.name == name) with
    | some target => some (target.token attached)
    | none => match (targets flags).filter fun t => name.isPrefixOf t.name with
      | [target] => some (target.token attached)
      | [] => some (if cs.contains ' ' then .value arg else .unknown)
      | _ => none
  | '-' :: 'h' :: rest => some (if isHelp rest then .help else .malformed)
  | ['-'] => some (.value arg)
  | '-' :: _ =>
    some (if isNegativeNumber cs || cs.contains ' ' then .value arg else .unknown)
  | _ => some (.value arg)

def tokens (flags : List Flag) : List String → Option (List Token)
  | [] => some []
  | arg :: rest =>
    if arg = "--" then some [.unknown]
    else do return (← classify flags arg) :: (← tokens flags rest)

/-! ### Values -/

/-- Longer numbers are refused unread. -/
def longestInteger : Nat := 4300

def Kind.read? (kind : Kind) (text : String) : Option Setting :=
  match kind with
  | .text => some (.text text)
  | .switch => none
  | .integer =>
    let cs := Text.trim (Text.asciiDigits text.toList)
    if longestInteger < cs.countP Text.isDigit then none else (Text.signed? cs).map .integer

/-- A value after an equals sign. -/
def Kind.readAttached? (kind : Kind) (text : String) : Option Setting :=
  if text = "--" ∧ kind ≠ .switch then some .nothing else kind.read? text

/-- Reads tokens from left to right. -/
def gather (flags : List Flag) (values : Keyed Setting) (hasExtra : Bool) : List Token → Parsed
  | [] =>
    let isMissing (f : Flag) := f.isRequired && (values.get? f.name).isNone
    if hasExtra || flags.any isMissing then .misuse else .settings values
  | .help :: _ => .help
  | .malformed :: _ => .misuse
  | .flag f (some text) :: rest => match f.kind.readAttached? text with
    | some v => gather flags (values.set f.name v) hasExtra rest
    | none => .misuse
  | .flag f none :: rest =>
    if f.kind = .switch then gather flags (values.set f.name .on) hasExtra rest
    else match rest with
      | .value text :: rest => match f.kind.read? text with
        | some v => gather flags (values.set f.name v) hasExtra rest
        | none => .misuse
      | _ => .misuse
  | _ :: rest => gather flags values true rest

def parse (flags : List Flag) (args : List String) : Parsed :=
  match tokens flags args with
  | some ts => gather flags [] false ts
  | none => .misuse

end Entitlements.CommandLine
