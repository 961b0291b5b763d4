import Conquest.Config.Reader
import Conquest.Folder
import Conquest.Lottery
import Conquest.Report
import Conquest.Scenario.Reader
import Conquest.Scenario.Setup
import Conquest.Table.Supply

/-!
# The command line

Plays turns of a scenario for one player. The other players do not move. Everything that a run
prints follows from its arguments, the texts of the files it names and a seed; arguments are looked
at in order, and the first one that is wrong ends the run.
-/

namespace Conquest.CommandLine

/-! ## Arguments -/

/-- What a run is asked to do. -/
structure Invocation where
  scenario : Option String := none
  player : Option String := none
  turns : Nat := 1
  seed : Option Nat := none
  config : Option String := none
  quiet : Bool := false
deriving DecidableEq, Repr

/-- Why the arguments lead to no run. -/
inductive Halt where
  | help
  | unknownArgument (argument : String)
  | missingValue (flag : String)
  | invalidValue (flag value : String)
  | noScenario
deriving DecidableEq, Repr

/-- The arguments that take a value. -/
inductive Flag where
  | scenario
  | player
  | turns
  | seed
  | config
deriving DecidableEq, Repr

/-- The flag that an argument spells. -/
def Flag.ofArgument? : String → Option Flag
  | "--scenario" => some .scenario
  | "--player" => some .player
  | "--turns" => some .turns
  | "--seed" => some .seed
  | "--config" => some .config
  | _ => none

/-- Reads the value of a flag. A flag given again replaces its value. -/
def Invocation.set (i : Invocation) (argument value : String) : Flag → Except Halt Invocation
  | .scenario => .ok { i with scenario := some value }
  | .player => .ok { i with player := some value }
  | .config => .ok { i with config := some value }
  | .turns =>
    match wholeOf? 32 value with
    | some turns => .ok { i with turns }
    | none => .error (.invalidValue argument value)
  | .seed =>
    match wholeOf? 64 value with
    | some seed => .ok { i with seed := some seed }
    | none => .error (.invalidValue argument value)

/-- Reads arguments from left to right. -/
def Invocation.parse (i : Invocation) : List String → Except Halt Invocation
  | [] => .ok i
  | argument :: rest =>
    if argument = "--quiet" then parse { i with quiet := true } rest
    else if argument = "--help" ∨ argument = "-h" then .error .help
    else
      match Flag.ofArgument? argument, rest with
      | none, _ => .error (.unknownArgument argument)
      | some _, [] => .error (.missingValue argument)
      | some flag, value :: rest =>
        match i.set argument value flag with
        | .ok i => parse i rest
        | .error halt => .error halt

/-! ## Output -/

/-- The text that explains the arguments. -/
def usage : List String :=
  ["Usage: generalship --scenario FILE [OPTIONS]",
    "",
    "Options:",
    "  --scenario FILE  Scenario JSON to load (required)",
    "  --player NAME    Player to plan for (default: first player)",
    "  --turns N        Number of turns to play (default: 1)",
    "  --seed N         Seed for the purchase policy (default: entropy)",
    "  --config FILE    Planner configuration JSON",
    "  --quiet          Suppress the summary on stderr",
    "  --help           Show this help"]

/-- What a run leaves behind: its exit code, its output and the lines of its messages. -/
structure Outcome where
  code : Nat
  output : String
  messages : List String
deriving DecidableEq, Repr

/-- Output through a buffer of 8192 bytes. What is still in the buffer when a run fails is lost. -/
structure Output where
  written : String := ""
  buffered : String := ""

namespace Output

/-- Size of the buffer in bytes. -/
def capacity : Nat := 8192

/-- Empties the buffer into the output. -/
def flush (o : Output) : Output := ⟨o.written ++ o.buffered, ""⟩

/-- Writes a text. The buffer is emptied first if the text does not fit into what is left of it, and
a text that fills the whole buffer passes it by. -/
def write (o : Output) (s : String) : Output :=
  let ready := if capacity - o.buffered.utf8ByteSize < s.utf8ByteSize then o.flush else o
  if capacity ≤ s.utf8ByteSize then { ready with written := ready.written ++ s }
  else { ready with buffered := ready.buffered ++ s }

end Output

/-- A run that ends with a message. -/
def failed (messages : List String) (message : String) : Outcome :=
  ⟨1, "", messages ++ [message]⟩

/-- What the arguments lead to if not to a run. -/
def Halt.outcome : Halt → Outcome
  | .help => ⟨0, "", usage⟩
  | .unknownArgument argument => ⟨1, "", s!"Unknown argument: {argument}" :: usage⟩
  | .missingValue flag => failed [] s!"missing value for {flag}"
  | .invalidValue flag value => failed [] s!"invalid {flag} value: {value}"
  | .noScenario => ⟨1, "", "--scenario is required" :: usage⟩

/-! ## Files -/

/-- The texts of files by path, or why they cannot be read. -/
abbrev Files := String → Except FileError String

/-- The configuration of a run; a seed among the arguments goes before the one in the file. -/
def loadConfig (files : Files) (i : Invocation) : Except String Config := do
  let config ←
    match i.config with
    | none => pure {}
    | some path =>
      match files path with
      | .error e => throw (path ++ ": " ++ (ConfigError.unreadable e.message).message)
      | .ok text =>
        match Config.parse text with
        | .error e => throw (path ++ ": " ++ e.message)
        | .ok config => pure config
  return { config with seed := i.seed.or config.seed }

/-- The table of a scenario file. -/
def loadTable (files : Files) (path : String) : Except String Table :=
  match files path with
  | .error e => .error (path ++ ": " ++ (ScenarioError.unreadable e.message).message)
  | .ok text =>
    match Scenario.parse text >>= Scenario.setUp with
    | .error e => .error (path ++ ": " ++ e.message)
    | .ok table => .ok table

/-- The player that a run plans for: the one that is named, otherwise the first one. -/
def choosePlayer (b : Board) : Option String → Except String PlayerId
  | some name =>
    match b.findPlayer? name with
    | some p => .ok p
    | none => .error s!"unknown player: {name}"
  | none => if b.players.isEmpty then .error "scenario has no players" else .ok 0

/-! ## Turns -/

/-- A run after some turns. -/
structure Progress where
  seat : Seat Generator Table
  output : Output
  rejected : Nat

/-- Plays a turn, prints its report and ends it. -/
def Progress.step (s : Progress) : Except (Abort × Output) Progress :=
  match Seat.playTurn s.seat with
  | .error e _ => .error (e, s.output)
  | .ok report seat =>
    .ok {
      seat := { seat with host := seat.host.endTurn seat.engine.player }
      output := (s.output.write report.report.render).write "\n"
      rejected := s.rejected + report.rejected }

/-- Plays turns one after another. -/
def Progress.play : Nat → Progress → Except (Abort × Output) Progress
  | 0, s => .ok s
  | turns + 1, s => do play turns (← s.step)

/-- Plays the turns of a run for a player of a table. -/
def playTable (i : Invocation) (config : Config) (table : Table) (p : PlayerId) (entropy : Nat) :
    Outcome :=
  let name := (table.board.player p).name
  let count := table.board.atlas.size
  let opening :=
    if i.quiet then []
    else [s!"Playing {i.turns} turn(s) as {name} on {count} territories"]
  match Progress.play i.turns ⟨⟨.new p config entropy, table⟩, {}, 0⟩ with
  | .error (.planning e, output) =>
    ⟨1, output.written, opening ++ ["planner error: " ++ e.message]⟩
  | .error (.draw, output) =>
    ⟨101, output.flush.written, opening ++ ["the draw of a strategy has no range"]⟩
  | .ok s =>
    let held := (s.seat.host.board.territoriesOf p).length
    let closing :=
      if i.quiet then []
      else [s!"Done: {held} territories held, {s.rejected} commands rejected"]
    ⟨0, s.output.flush.written, opening ++ closing⟩

/-- What the arguments ask for, with the path of the scenario. -/
def readArguments (args : List String) : Except Halt (Invocation × String) := do
  let i ← Invocation.parse {} args
  match i.scenario with
  | none => throw .noScenario
  | some path => return (i, path)

/-- The outcome of a run. `entropy` seeds the policy if nothing else does. -/
def run (args : List String) (files : Files) (entropy : Nat) : Outcome :=
  match readArguments args with
  | .error halt => halt.outcome
  | .ok (i, path) =>
    let game : Except String (Config × Table × PlayerId) := do
      let config ← loadConfig files i
      let table ← loadTable files path
      return (config, table, ← choosePlayer table.board i.player)
    match game with
    | .error message => failed [] message
    | .ok (config, table, p) => playTable i config table p entropy

end Conquest.CommandLine
