import Wilderness.Command.Arguments
import Wilderness.Command.Listing
import Wilderness.Exchange.Monster
import Wilderness.Sampling
import Wilderness.Standard.Tables

/-!
# The answer to a command line

What the program prints and how it ends, as a function of its arguments and of a number that
stands in for the seed where none is given.
-/

namespace Wilderness.Command

/-- The texts that the program prints, and its exit code. -/
structure Response where
  exit : UInt8 := 0
  output : String := ""
  errors : String := ""
deriving DecidableEq, Repr

/-- The version of the program. -/
def versionText : String :=
  "wild 0.1.0\n"

/-- How the program is called. -/
def usageText : String :=
  "Usage: wild [OPTIONS] <TERRAIN>\n"

/-- What the program is for and what its options mean. -/
def helpText : String :=
  "OD&D wilderness encounter simulator: prints the total EHD of each rolled encounter\n\n" ++
  usageText ++
  "\nArguments:\n" ++
  "  <TERRAIN>  " ++ Terrain.names ++ "\n" ++
  "\nOptions:\n" ++
  "  -n, --count <COUNT>    Number of encounters to roll [default: 1000]\n" ++
  "  -s, --seed <SEED>      Seed for a reproducible run\n" ++
  "  -f, --format <FORMAT>  plain, detail or json [default: plain]\n" ++
  "      --show-table       Print the terrain's encounter tables instead of rolling\n" ++
  "  -v, --verbose          Diagnostics on stderr\n" ++
  "  -h, --help             Print help\n" ++
  "  -V, --version          Print version\n"

/-- The answer to arguments that cannot be followed. -/
def usageResponse (error : UsageError) : Response where
  exit := 2
  errors := "error: " ++ error.message ++ "\n\n" ++ usageText

/-- The answer to a failure, behind the output that came before it. -/
def failure (output message : String) : Response where
  exit := 1
  output := output
  errors := "error: " ++ message ++ "\n"

/-- An encounter in a format. -/
def Format.render (format : Format) (encounter : Encounter) : String :=
  match format with
  | plain => encounter.total.toNat.repr
  | detail =>
    encounter.total.toNat.repr ++ "\t" ++ encounter.quantity.toNat.repr ++ "\t" ++ encounter.monster
  | json => (encode encounter).compact

/-- Encounters line by line behind the output so far, up to the first failure. -/
def listOutcomes (format : Format) (output : String) : List Outcome → Response
  | [] => { output }
  | .ok encounter :: rest => listOutcomes format (output ++ format.render encounter ++ "\n") rest
  | .error error :: _ => failure output error.message

/-- What the settings ask to be sampled. -/
def Settings.options (settings : Settings) : SamplingOptions :=
  match settings.count with
  | some count => { seed := settings.seed, repetitions := count.toNat }
  | none => { seed := settings.seed }

/-- The terrain of a name, or what is said of a name that is none. -/
def readTerrain (name : String) : Except String Terrain :=
  match Terrain.ofName? name with
  | some terrain => .ok terrain
  | none => .error (Terrain.unknownMessage name)

/-- The terrain of a name, with the standard tables. -/
def load (name : String) : Except String (Terrain × Atlas) := do
  let terrain ← readTerrain name
  let atlas ← Standard.load.mapError LoadError.message
  return (terrain, atlas)

/-- The answer to settings for the name of a terrain. -/
def respond (name : String) (settings : Settings) (entropy : UInt64) : Response :=
  match load name with
  | .error message => failure "" message
  | .ok (terrain, atlas) =>
    if settings.showTable then { output := showTables atlas terrain }
    else
      let sampling := settings.options.start atlas terrain entropy
      listOutcomes (settings.format.getD .plain) "" sampling.drain.1.toList

/-- The answer to arguments. -/
def run (arguments : List String) (entropy : UInt64) : Response :=
  match Settings.parse arguments with
  | .ok (name, settings) => respond name settings entropy
  | .error .version => { output := versionText }
  | .error .help => { output := helpText }
  | .error (.usage error) => usageResponse error

end Wilderness.Command
