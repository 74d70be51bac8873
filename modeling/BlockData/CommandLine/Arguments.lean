import BlockData.Config

/-!
# Arguments of the command line

The program takes options, a command, and the arguments of the command.  Options that
hold for all commands may stand before the command or after it, and may come from the
environment.

* `Grammar.scan` takes the arguments of one level apart;
* `Request.read?` says what is asked for, or nothing if the arguments are misused.

What stands after the command counts before what stands in front of it, and both before
the environment.  A value in the environment is looked at, and must be good, at each of
the two levels that does not give the option.
-/

namespace BlockData.CommandLine

/-! ## One level of arguments -/

/-- The names that may be used at a level of the command line. -/
structure Grammar where
  /-- Options with a value. -/
  valued : List String
  /-- Options without one. -/
  flags : List String
  /-- Short options, by their letters. -/
  letters : List (Char × String)
  /-- How many arguments that are no options belong to the level; without a number the
  first of them ends it. -/
  words : Option Nat

/-- What one argument is. -/
inductive Shape where
  /-- No option. -/
  | word
  /-- The mark after which there are no options. -/
  | mark
  | flag (name : String)
  /-- An option whose value is the next argument. -/
  | valued (name : String)
  /-- An option with its value behind an equals sign. -/
  | attached (name value : String)
  | unknown
  deriving DecidableEq, Repr

/-- An option as it was given. -/
structure Given where
  name : String
  value : Option String
  deriving DecidableEq, Repr

/-- The options of a level, and the arguments that are none. -/
structure Scan where
  options : List Given
  words : List String
  deriving DecidableEq, Repr

/-- The options that end all reading. -/
def terminal : List String := ["help", "version"]

/-- Whether an argument starts like an option.  A single hyphen does not. -/
def looksLikeOption (argument : String) : Bool :=
  match argument.toList with
  | '-' :: _ :: _ => true
  | _ => false

namespace Grammar

/-- The shape of an option after its two hyphens. -/
def longShape (g : Grammar) (cs : List Char) : Shape :=
  let name := String.ofList (cs.takeWhile (· ≠ '='))
  match cs.dropWhile (· ≠ '=') with
  | [] =>
    if g.flags.contains name then .flag name
    else if g.valued.contains name then .valued name
    else .unknown
  | _ :: value => if g.valued.contains name then .attached name (String.ofList value) else .unknown

/-- The shape of an argument. -/
def shape (g : Grammar) (argument : String) : Shape :=
  match argument.toList with
  | ['-', '-'] => .mark
  | '-' :: '-' :: cs => g.longShape cs
  | '-' :: letter :: _ =>
    match g.letters.lookup letter with
    | some name => .flag name
    | none => .unknown
  | _ => .word

/-- Take the arguments of a level apart from left to right, if all its options are known
and have their values, and there is room for the arguments that are none.  Without `room`
the first of those ends the level. -/
def scanWith (g : Grammar) (room : Option Nat) : List String → Option Scan
  | [] => some ⟨[], []⟩
  | argument :: rest =>
    match g.shape argument with
    | .unknown => none
    | .mark =>
      match room with
      | none => none
      | some n => if rest.length ≤ n then some ⟨[], rest⟩ else none
    | .word =>
      match room with
      | none => some ⟨[], argument :: rest⟩
      | some 0 => none
      | some (n + 1) =>
        (scanWith g (some n) rest).map fun s => { s with words := argument :: s.words }
    | .flag name =>
      if terminal.contains name then
        -- nothing that follows is looked at
        some ⟨[⟨name, none⟩], []⟩
      else
        (scanWith g room rest).map fun s => { s with options := ⟨name, none⟩ :: s.options }
    | .attached name value =>
      (scanWith g room rest).map fun s => { s with options := ⟨name, some value⟩ :: s.options }
    | .valued name =>
      match rest with
      | [] => none
      | value :: rest =>
        if looksLikeOption value then
          none
        else
          (scanWith g room rest).map fun s =>
            { s with options := ⟨name, some value⟩ :: s.options }

/-- Take the arguments of a level apart. -/
def scan (g : Grammar) (arguments : List String) : Option Scan :=
  g.scanWith g.words arguments

end Grammar

/-! ## What is asked for -/

/-- What the options ask for, whatever the command. -/
structure Options where
  config : Config
  /-- Whether output is indented. -/
  pretty : Bool
  deriving DecidableEq, Repr

/-- A command with its arguments. -/
inductive Command where
  /-- List the schemas. -/
  | schemas
  /-- Upgrade the block state in a file, which has the form of a version. -/
  | upgrade (input : String) (source : Option Version)
  /-- Convert the block entity in a file. -/
  | convert (identifier input : String) (items : Option String)
  deriving DecidableEq, Repr

/-- What a command line asks for. -/
inductive Request where
  | help
  | version
  | run (options : Options) (command : Command)
  deriving DecidableEq, Repr

/-- The options for all commands that have a value. -/
def sharedValued : List String := ["schemas", "max-version"]

/-- The level before the command. -/
def mainGrammar : Grammar where
  valued := sharedValued
  flags := ["pretty", "help", "version"]
  letters := [('h', "help"), ('V', "version")]
  words := none

/-- The options that a command has for itself. -/
def ownOptions : String → List String
  | "upgrade" => ["from"]
  | "rewrite" => ["items"]
  | _ => []

/-- The number of arguments that a command takes. -/
def wordCount : String → Nat
  | "upgrade" => 1
  | "rewrite" => 2
  | _ => 0

/-- The level of the command with a name. -/
def commandGrammar (name : String) : Grammar where
  valued := sharedValued ++ ownOptions name
  flags := ["pretty", "help"]
  letters := [('h', "help")]
  words := some (wordCount name)

/-- The names of the commands. -/
def commandNames : List String := ["schemas", "upgrade", "rewrite"]

/-- The value of an option at a level: nothing if it is not good, and `some none` if the
option is not given. -/
def levelValue? {α : Type} (read? : String → Option α) (options : List Given)
    (name : String) : Option (Option α) :=
  match (options.find? (·.name = name)).bind (·.value) with
  | none => some none
  | some text => (read? text).map some

/-- The value of an option that may stand at both levels or in the environment. -/
def sharedValue? {α : Type} (read? : String → Option α) (before after : List Given)
    (name : String) (setting : Option String) : Option (Option α) := do
  let inner ← levelValue? read? after name
  let outer ← levelValue? read? before name
  -- a setting is looked at unless both levels give the option
  let surrounding ←
    match inner, outer, setting with
    | some _, some _, _ => some none
    | _, _, none => some none
    | _, _, some text => (read? text).map some
  return inner.or (outer.or surrounding)

/-- A path; an empty one is none. -/
def path? (text : String) : Option String :=
  if text = "" then none else some text

/-- A version. -/
def version? (text : String) : Option Version :=
  (Version.read text).toOption

/-- The options for all commands. -/
def options? (environment : String → Option String) (before after : List Given) :
    Option Options := do
  let directory ← sharedValue? path? before after "schemas"
    (environment Config.directoryVariable)
  let limit ← sharedValue? version? before after "max-version"
    (environment Config.limitVariable)
  return {
    config := ⟨directory.getD Config.defaultDirectory, limit⟩
    pretty := before.any (·.name = "pretty") || after.any (·.name = "pretty") }

/-- The command that a name, its options and its arguments make. -/
def command? (name : String) (s : Scan) : Option Command :=
  match name, s.words with
  | "schemas", [] => some .schemas
  | "upgrade", [input] => (levelValue? version? s.options "from").map (.upgrade input)
  | "rewrite", [identifier, input] =>
    (levelValue? path? s.options "items").map (.convert identifier input)
  | _, _ => none

namespace Scan

/-- Whether no option of a level is given twice, and their values are good. -/
def isGood (s : Scan) : Bool :=
  decide (s.options.map (·.name)).Nodup &&
    (levelValue? path? s.options "schemas").isSome &&
    (levelValue? version? s.options "max-version").isSome &&
    (levelValue? version? s.options "from").isSome &&
    (levelValue? path? s.options "items").isSome

/-- What an option that ends all reading asks for. -/
def ending? (s : Scan) : Option Request :=
  if s.options.any (·.name = "version") then some .version
  else if s.options.any (·.name = "help") then some .help
  else none

end Scan

namespace Request

/-- What a command and its arguments ask for, after the options in front of it. -/
def readCommand? (environment : String → Option String) (outer : Scan) (name : String)
    (arguments : List String) : Option Request := do
  let inner ← (commandGrammar name).scan arguments
  if !inner.isGood then
    none
  else
    match inner.ending? with
    | some request => return request
    | none =>
      let options ← options? environment outer.options inner.options
      return .run options (← command? name inner)

/-- What the arguments ask for in an environment, or nothing if they are misused. -/
def read? (environment : String → Option String) (arguments : List String) :
    Option Request := do
  let outer ← mainGrammar.scan arguments
  if !outer.isGood then
    none
  else
    match outer.ending?, outer.words with
    | some request, _ => return request
    | none, ["help"] => return .help
    | none, ["help", name] => if ("help" :: commandNames).contains name then return .help else none
    | none, name :: rest =>
      if commandNames.contains name then readCommand? environment outer name rest else none
    | none, [] => none

end Request
end BlockData.CommandLine
