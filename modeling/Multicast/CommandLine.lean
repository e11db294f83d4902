import Multicast.Log.Filter
import Multicast.Simulation

/-! The command line of the simulator. -/
namespace Multicast

namespace CommandLine

/-- Options that take a value. -/
inductive Setting where
  | logLevel
  | config
  | devices
  | groups
  | members
  | routes
  deriving DecidableEq, Repr

/-- Options that take none. -/
inductive Flag where
  | ipv6
  | teardown
  | help
  | version
  deriving DecidableEq, Repr

/-- What one argument says on its own. -/
inductive Word where
  /-- A setting, with its value if that is attached. -/
  | setting (s : Setting) (value : Option (List Char))
  | flag (f : Flag)
  /-- Two hyphens: only operands follow. -/
  | separator
  | unknown
  deriving DecidableEq, Repr

namespace Word

/-- The value after an equals sign, if there is one. -/
def attached? : List Char → Option (List Char)
  | '=' :: value => some value
  | _ => none

/-- A name after two hyphens, in full, and what is left of the argument after it. -/
def ofLong (name rest : List Char) : Word :=
  match String.ofList name, attached? rest with
  | "log-level", value => .setting .logLevel value
  | "config", value => .setting .config value
  | "devices", value => .setting .devices value
  | "groups", value => .setting .groups value
  | "members", value => .setting .members value
  | "routes", value => .setting .routes value
  | "ipv6", none => .flag .ipv6
  | "teardown", none => .flag .teardown
  | "help", none => .flag .help
  | "version", none => .flag .version
  | _, _ => .unknown

/-- What follows a letter is its value, with or without an equals sign. -/
def shortValue? : List Char → Option (List Char)
  | [] => none
  | '=' :: value => some value
  | value => some value

def ofShort (letter : Char) (rest : List Char) : Word :=
  match letter with
  | 'l' => .setting .logLevel (shortValue? rest)
  | 'c' => .setting .config (shortValue? rest)
  | 'd' => .setting .devices (shortValue? rest)
  | 'g' => .setting .groups (shortValue? rest)
  | 'm' => .setting .members (shortValue? rest)
  | 'r' => .setting .routes (shortValue? rest)
  | 'h' => .flag .help
  | 'V' => .flag .version
  | _ => .unknown

def ofChars : List Char → Word
  | ['-', '-'] => .separator
  | '-' :: '-' :: body => ofLong (body.takeWhile (· != '=')) (body.dropWhile (· != '='))
  | '-' :: letter :: rest => ofShort letter rest
  | _ => .unknown

end Word

/-- Why there is no simulation to run. -/
inductive Stop where
  /-- Help was asked for. -/
  | help
  | version
  /-- The arguments make no sense. -/
  | misuse
  deriving DecidableEq, Repr

/-- Options met so far. None may be given twice. -/
structure Given where
  logLevel : Option String := none
  config : Option String := none
  devices : Option Nat := none
  groups : Option Nat := none
  members : Option Nat := none
  routes : Option Nat := none
  ipv6 : Bool := false
  teardown : Bool := false
  deriving DecidableEq, Repr

/-- A decimal numeral with an optional sign, of a number from zero to `max`. -/
def number? (max : Nat) (cs : List Char) : Option Nat :=
  let (negative, digits) := match cs with
    | '-' :: rest => (true, rest)
    | '+' :: rest => (false, rest)
    | _ => (false, cs)
  match Numeral.decimal? digits with
  | some n => if n ≤ max ∧ (negative → n = 0) then some n else none
  | none => none

def maxByte : Nat := UInt8.size - 1

def maxWord : Nat := UInt32.size - 1

/-- Fills a place that is still empty. -/
def once {α : Type} (place : Option α) (value : Option α) : Except Stop (Option α) :=
  match place, value with
  | none, some a => .ok (some a)
  | _, _ => .error .misuse

namespace Given

def set (g : Given) (s : Setting) (value : List Char) : Except Stop Given := do
  match s with
  | .logLevel =>
    let place ← once g.logLevel (some (String.ofList value))
    .ok { g with logLevel := place }
  | .config =>
    let place ← once g.config (if value.isEmpty then none else some (String.ofList value))
    .ok { g with config := place }
  | .devices =>
    let place ← once g.devices (number? maxWord value)
    .ok { g with devices := place }
  | .groups =>
    let place ← once g.groups (number? maxByte value)
    .ok { g with groups := place }
  | .members =>
    let place ← once g.members (number? maxWord value)
    .ok { g with members := place }
  | .routes =>
    let place ← once g.routes (number? maxByte value)
    .ok { g with routes := place }

def raise (g : Given) : Flag → Except Stop Given
  | .ipv6 => if g.ipv6 then .error .misuse else .ok { g with ipv6 := true }
  | .teardown => if g.teardown then .error .misuse else .ok { g with teardown := true }
  | .help => .error .help
  | .version => .error .version

end Given

/-- A value that stands alone may be a hyphen but not begin with one. -/
def isValue : List Char → Bool
  | '-' :: _ :: _ => false
  | _ => true

/-- Takes the arguments from left to right; `pending` waits for its value. There are no operands. -/
def scan : Option Setting → List (List Char) → Given → Except Stop Given
  | none, [], g => .ok g
  | some _, [], _ => .error .misuse
  | some s, arg :: rest, g => do
    if isValue arg then
      let g ← g.set s arg
      scan none rest g
    else .error .misuse
  | none, arg :: rest, g => do
    match Word.ofChars arg with
    | .setting s (some value) =>
      let g ← g.set s value
      scan none rest g
    | .setting s none => scan (some s) rest g
    | .flag f =>
      let g ← g.raise f
      scan none rest g
    | .separator => if rest.isEmpty then .ok g else .error .misuse
    | .unknown => .error .misuse

end CommandLine

structure CommandLine where
  logFilter : String := "info"
  /-- Path of the configuration file. -/
  config : Option String := none
  simulation : Simulation := {}
  deriving DecidableEq, Repr

namespace CommandLine

/-- Options that are not given take their defaults. -/
def ofGiven (g : Given) : CommandLine :=
  let p : Simulation := {}
  { logFilter := g.logLevel.getD "info"
    config := g.config
    simulation :=
      { devices := g.devices.elim p.devices UInt32.ofNat
        groups := g.groups.elim p.groups UInt8.ofNat
        members := g.members.elim p.members UInt32.ofNat
        routes := g.routes.elim p.routes UInt8.ofNat
        ipv6 := g.ipv6
        teardown := g.teardown } }

def ofArgs (args : List String) : Except Stop CommandLine := do
  let g ← scan none (args.map String.toList) {}
  .ok (ofGiven g)

def versionText : String := "ipmc-sim 0.1.0\n"

def usageText : String := String.join
  ["IPMC replication group simulator\n\n",
    "Usage: ipmc-sim [OPTIONS]\n\n",
    "Options:\n",
    "  -l, --log-level <LOG_LEVEL>  Log level (trace, debug, info, warn, error) [default: info]\n",
    "  -c, --config <CONFIG>        JSON orchestrator config; defaults apply when omitted\n",
    "  -d, --devices <DEVICES>      Number of simulated devices [default: 1]\n",
    "  -g, --groups <GROUPS>        Replication groups per device (at most 255) [default: 2]\n",
    "  -m, --members <MEMBERS>      IPMC members per group [default: 2]\n",
    "  -r, --routes <ROUTES>        (*,G) routes per group (at most 255) [default: 4]\n",
    "      --ipv6                   Use IPv6 group addresses\n",
    "      --teardown               Remove everything again before exiting\n",
    "  -h, --help                   Print help\n",
    "  -V, --version                Print version\n"]

/-- The simulator's target in log filters. -/
def logTarget : String := "ipmc_sim"

/-- What a run of the program writes, and its exit code. -/
structure Result where
  exitCode : Nat
  output : List Simulation.Output
  deriving DecidableEq, Repr

def Result.stdout (r : Result) : String :=
  String.join (r.output.filterMap fun o => match o with
    | .print text => some text
    | .log _ => none)

def Result.log (r : Result) : List Log.Line :=
  r.output.filterMap fun o => match o with
    | .print _ => none
    | .log line => some line

/-- The configuration that a command line names; `contents` are those of its file. -/
def configuration (c : CommandLine) (contents : Option String) : Except Config.Error Config :=
  match c.config with
  | none => .ok {}
  | some path => Config.load path contents

/-- Lines that the filter hides are left out. -/
def execute (c : CommandLine) (contents : Option String) : Result :=
  let report : Simulation.Report :=
    match c.configuration contents with
    | .ok config => c.simulation.run config
    | .error e => ⟨[.log ⟨.error, e.message⟩], false⟩
  let filter := Log.Filter.ofText c.logFilter
  ⟨if report.succeeded then 0 else 1,
    report.output.filter fun o => match o with
      | .print _ => true
      | .log line => filter.shows logTarget line.level⟩

def Stop.result : Stop → Result
  | .help => ⟨0, [.print usageText]⟩
  | .version => ⟨0, [.print versionText]⟩
  | .misuse => ⟨2, []⟩

end CommandLine

end Multicast
