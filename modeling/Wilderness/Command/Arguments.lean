import Wilderness.Text.Numeral

/-!
# Command-line arguments

Arguments are read from left to right, and the first one that is wrong, or that asks for the
version or for help, decides.  Options may stand before and behind the terrain; all arguments
behind `--` are taken as they are.
-/

namespace Wilderness.Command

open Text

/-- How encounters are written. -/
inductive Format where
  /-- The worth of the group alone. -/
  | plain
  /-- Worth, number and monster, with tabs between them. -/
  | detail
  /-- A JSON object. -/
  | json
deriving DecidableEq, Repr

/-- The format of a name. -/
def Format.ofName? : String → Option Format
  | "plain" => some plain
  | "detail" => some detail
  | "json" => some json
  | _ => none

/-- What the arguments said so far. -/
structure Settings where
  terrain : Option String := none
  count : Option UInt64 := none
  seed : Option UInt64 := none
  format : Option Format := none
  showTable : Bool := false
  verbosity : Nat := 0
deriving DecidableEq, Repr

/-- What is wrong with the arguments. -/
inductive UsageError where
  | unknownOption (text : String)
  | unexpectedArgument (text : String)
  | repeated (option : String)
  | missingValue (option : String)
  | invalidValue (option value : String)
  | unexpectedValue (option : String)
  | missingTerrain
deriving DecidableEq, Repr

/-- The error in words. -/
def UsageError.message : UsageError → String
  | unknownOption text | unexpectedArgument text => "unexpected argument '" ++ text ++ "' found"
  | repeated option => "the argument '" ++ option ++ "' cannot be used multiple times"
  | missingValue option => "a value is required for '" ++ option ++ "' but none was supplied"
  | invalidValue option value => "invalid value '" ++ value ++ "' for '" ++ option ++ "'"
  | unexpectedValue option => "the argument '" ++ option ++ "' takes no value"
  | missingTerrain => "the following required arguments were not provided: <TERRAIN>"

/-- Why the reading of arguments ends early. -/
inductive Stop where
  | usage (error : UsageError)
  | version
  | help
deriving DecidableEq, Repr

/-- An option by its meaning. -/
inductive Switch where
  | count
  | seed
  | format
  | showTable
  | verbose
  | version
  | help
deriving DecidableEq, Repr

namespace Switch

/-- The option of a long name. -/
def ofName? : String → Option Switch
  | "count" => some count
  | "seed" => some seed
  | "format" => some format
  | "show-table" => some showTable
  | "verbose" => some verbose
  | "version" => some version
  | "help" => some help
  | _ => none

/-- The option of a letter. -/
def ofLetter? : Char → Option Switch
  | 'n' => some count
  | 's' => some seed
  | 'f' => some format
  | 'v' => some verbose
  | 'V' => some version
  | 'h' => some help
  | _ => none

/-- Whether the option has a value. -/
def takesValue : Switch → Bool
  | count | seed | format => true
  | showTable | verbose | version | help => false

/-- The option as it is shown to the user. -/
def label : Switch → String
  | count => "--count <COUNT>"
  | seed => "--seed <SEED>"
  | format => "--format <FORMAT>"
  | showTable => "--show-table"
  | verbose => "--verbose"
  | version => "--version"
  | help => "--help"

end Switch

namespace Settings

/-- A setting that was not made before, from the value of an option. -/
def once {α : Type} (switch : Switch) (old read : Option α) (value : String) :
    Except Stop (Option α) :=
  match read, old with
  | none, _ => .error (.usage (.invalidValue switch.label value))
  | some _, some _ => .error (.usage (.repeated switch.label))
  | some new, none => .ok (some new)

/-- The settings after an option with a value. -/
def set (settings : Settings) (switch : Switch) (value : String) : Except Stop Settings :=
  match switch with
  | .count => do
    return { settings with count := ← once switch settings.count (unsigned? value.toList) value }
  | .seed => do
    return { settings with seed := ← once switch settings.seed (unsigned? value.toList) value }
  | .format => do
    return { settings with format := ← once switch settings.format (Format.ofName? value) value }
  | .showTable | .verbose | .version | .help =>
    .error (.usage (.unexpectedValue switch.label))

/-- The settings after an option without a value. -/
def flag (settings : Settings) (switch : Switch) : Except Stop Settings :=
  match switch with
  | .showTable =>
    if settings.showTable then .error (.usage (.repeated switch.label))
    else .ok { settings with showTable := true }
  | .verbose => .ok { settings with verbosity := settings.verbosity + 1 }
  | .version => .error .version
  | .help => .error .help
  | .count | .seed | .format => .error (.usage (.missingValue switch.label))

/-- The settings after an argument that is no option. -/
def positional (settings : Settings) (value : String) : Except Stop Settings :=
  match settings.terrain with
  | some _ => .error (.usage (.unexpectedArgument value))
  | none => .ok { settings with terrain := some value }

end Settings

/-- What an argument leaves to be done. -/
inductive Progress where
  | ready (settings : Settings)
  /-- The next argument is the value of an option. -/
  | awaiting (settings : Settings) (switch : Switch)

/-- A run of one-letter options.  The first one that takes a value takes the rest of the run,
without an equals sign in front, or else the next argument. -/
def readLetters (settings : Settings) : List Char → Except Stop Progress
  | [] => .ok (.ready settings)
  | letter :: rest =>
    match Switch.ofLetter? letter with
    | none => .error (.usage (.unknownOption ("-" ++ letter.toString)))
    | some switch =>
      if switch.takesValue then
        match rest with
        | [] => .ok (.awaiting settings switch)
        | '=' :: value => do return .ready (← settings.set switch (String.ofList value))
        | value => do return .ready (← settings.set switch (String.ofList value))
      else
        match rest, settings.flag switch with
        | '=' :: _, .ok _ => .error (.usage (.unexpectedValue switch.label))
        | _, .error stop => .error stop
        | _, .ok settings => readLetters settings rest

/-- A long option, with a value behind an equals sign or without one. -/
def readName (settings : Settings) (text : List Char) : Except Stop Progress :=
  let name := String.ofList (text.takeWhile (· != '='))
  match Switch.ofName? name, text.dropWhile (· != '=') with
  | none, _ => .error (.usage (.unknownOption ("--" ++ String.ofList text)))
  | some switch, _ :: value => do return .ready (← settings.set switch (String.ofList value))
  | some switch, [] =>
    if switch.takesValue then .ok (.awaiting settings switch)
    else do return .ready (← settings.flag switch)

/-- Whether an argument cannot be the value of an option before it. -/
def looksLikeOption : List Char → Bool
  | '-' :: _ :: _ => true
  | _ => false

/-- The settings after the arguments that are left. -/
def readArguments : Progress → List String → Except Stop Settings
  | .ready settings, [] => .ok settings
  | .awaiting _ switch, [] => .error (.usage (.missingValue switch.label))
  | .awaiting settings switch, argument :: rest =>
    if looksLikeOption argument.toList then .error (.usage (.missingValue switch.label))
    else do readArguments (.ready (← settings.set switch argument)) rest
  | .ready settings, argument :: rest =>
    match argument.toList with
    | ['-', '-'] => rest.foldlM Settings.positional settings
    | '-' :: '-' :: text => do readArguments (← readName settings text) rest
    | '-' :: letter :: letters => do readArguments (← readLetters settings (letter :: letters)) rest
    | _ => do readArguments (.ready (← settings.positional argument)) rest

/-- The terrain and the settings that arguments ask for. -/
def Settings.parse (arguments : List String) : Except Stop (String × Settings) := do
  let settings ← readArguments (.ready {}) arguments
  match settings.terrain with
  | some terrain => return (terrain, settings)
  | none => .error (.usage .missingTerrain)

end Wilderness.Command
