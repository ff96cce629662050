import Karst.Region
import Karst.Settings.Read
import Karst.Text.Blank

namespace Karst.CommandLine

inductive Direction where
  | forward
  | reverse
deriving DecidableEq, Repr

structure Options where
  config : Option String := none
  seed : Option UInt64 := none
  radius : Option Int32 := none
  center : Option CubeCoord := none
  order : Option Direction := none
deriving DecidableEq, Repr

inductive UsageError where
  | unexpected (argument : String)
  | missingValue (option : String)
  | repeated (option : String)
  | unusable (option value : String)
deriving DecidableEq, Repr

def UsageError.message : UsageError → String
  | .unexpected argument => "unexpected argument '" ++ argument ++ "' found"
  | .missingValue option => "a value is required for '--" ++ option ++ "' but none was supplied"
  | .repeated option => "the argument '--" ++ option ++ "' cannot be used multiple times"
  | .unusable option value => "invalid value '" ++ value ++ "' for '--" ++ option ++ "'"

inductive Request where
  | help
  | generate (options : Options)
deriving DecidableEq, Repr

abbrev Parsed := Except UsageError

def axis? (text : List Char) : Option Int32 :=
  (Decimal.signed? (-2147483648) 2147483647 text).map Int32.ofInt

def center? (text : String) : Option CubeCoord :=
  match (Text.split ',' text.toList).map Text.trim with
  | [x, y, z] => do return ⟨← axis? x, ← axis? y, ← axis? z⟩
  | _ => none

def seed? (text : String) : Option UInt64 :=
  (Decimal.unsigned? 18446744073709551615 text.toList).map UInt64.ofNat

def direction? : String → Option Direction
  | "forward" => some .forward
  | "reverse" => some .reverse
  | _ => none

namespace Options

def names : List String := ["config", "seed", "radius", "center", "order"]

def set (options : Options) (name value : String) : Parsed Options :=
  let fill {α : Type} (old : Option α) (new : Option α) (update : Option α → Options) :=
    match old, new with
    | some _, _ => .error (.repeated name)
    | none, none => .error (.unusable name value)
    | none, some a => .ok (update (some a))
  match name with
  | "config" => fill options.config (if value = "" then none else some value) fun config =>
      { options with config }
  | "seed" => fill options.seed (seed? value) fun seed => { options with seed }
  | "radius" => fill options.radius (axis? value.toList) fun radius => { options with radius }
  | "center" => fill options.center (center? value) fun center => { options with center }
  | "order" => fill options.order (direction? value) fun order => { options with order }
  | _ => .error (.unexpected ("--" ++ name))

end Options

/-- A value that begins with a dash and is more than the dash has to be attached to its option, but
for the center, which may begin with a negative number. -/
def mayFollow (name value : String) : Bool :=
  name == "center" || value == "-" || !value.toList.head?.any (· == '-')

/-- Reads arguments from left to right; the first that settles the outcome does so. -/
def parseFrom (options : Options) : List String → Parsed Request
  | [] => .ok (.generate options)
  | argument :: rest =>
      match argument.toList with
      | ['-', '-'] =>
          match rest with
          | [] => .ok (.generate options)
          | stray :: _ => .error (.unexpected stray)
      | '-' :: '-' :: text =>
          match text.span (· != '=') with
          | (name, []) =>
              let name := String.ofList name
              if name = "help" then .ok .help
              else if name ∈ Options.names then
                match rest with
                | [] => .error (.missingValue name)
                | value :: rest =>
                    if mayFollow name value then do parseFrom (← options.set name value) rest
                    else .error (.missingValue name)
              else .error (.unexpected argument)
          | (name, _ :: value) => do
              parseFrom (← options.set (String.ofList name) (String.ofList value)) rest
      | '-' :: 'h' :: _ => .ok .help
      | _ => .error (.unexpected argument)

def parse (arguments : List String) : Parsed Request := parseFrom {} arguments

def help : List String :=
  ["Generate a region of cubes with caves and fluid pockets",
    "",
    "Usage: delve [OPTIONS]",
    "",
    "Options:",
    "      --config <CONFIG>  Generation settings (TOML); built-in defaults otherwise",
    "      --seed <SEED>      World seed [default: 1337]",
    "      --radius <RADIUS>  Cubes generated in every direction from the centre [default: 2]",
    "      --center <CENTER>  Centre cube as X,Y,Z [default: 0,-2,0]",
    "      --order <ORDER>    Order the region is generated in [default: forward] " ++
      "[possible values: forward, reverse]",
    "  -h, --help             Print help"]

def hexadecimal (word : UInt64) : String :=
  let digits := Nat.toDigits 16 word.toNat
  String.ofList (List.replicate (16 - digits.length) '0' ++ digits)

def milliseconds (time : Nat) : String :=
  let tenths := (time + millisecond / 20) / (millisecond / 10)
  toString (tenths / 10) ++ "." ++ toString (tenths % 10)

def field (name : String) (value : Nat) : String := name ++ "=" ++ toString value

def heading (title : String) : String := title.pushn ' ' (14 - title.length)

def row (title : String) (fields : List (String × Nat)) : String :=
  heading title ++ " ".intercalate (fields.map fun (name, value) => field name value)

def report (r : RegionReport) (elapsed : Nat) : List String :=
  let caves := r.stats.caves
  let precalc := r.stats.precalc
  [heading "cubes" ++ toString r.cubes,
    heading "stone left" ++ toString r.stone,
    heading "carved" ++ toString r.stats.carved,
    heading "pocket voxels" ++ toString r.stats.pocketVoxels,
    row "cave seeds" [("lists", caves.counts.seedLists), ("seeds", caves.counts.seeds),
      ("trees", caves.counts.treesBuilt), ("released", caves.counts.treesReleased)],
    row "seed cache" [("hits", caves.seedCache.hits), ("misses", caves.seedCache.misses),
      ("entries", caves.seedCache.entries)],
    row "tree cache" [("hits", caves.treeCache.hits), ("misses", caves.treeCache.misses),
      ("entries", caves.treeCache.entries), ("arena_live", caves.arena.live)],
    row "precalc" [("hits", precalc.hits), ("misses", precalc.misses), ("stale", precalc.stale),
      ("submitted", precalc.submitted), ("dropped", precalc.tasks.dropped)],
    heading "elapsed" ++ milliseconds elapsed ++ " ms",
    heading "checksum" ++ hexadecimal r.checksum]

structure Answer where
  exit : UInt8
  output : List String := []
  log : List String := []
deriving DecidableEq, Repr

namespace Answer

def usage (cause : UsageError) : Answer := { exit := 2, log := ["error: " ++ cause.message] }

def failure (cause : String) : Answer := { exit := 1, log := [cause] }

def stopped (fault : Fault) : Answer :=
  { exit := 101, log := ["generation stopped: " ++ fault.message] }

end Answer

def region (options : Options) : Guarded (List CubeCoord) := do
  let cubes ← (options.center.getD ⟨0, -2, 0⟩).neighborhood (options.radius.getD 2)
  return match options.order with
    | some .reverse => cubes.reverse
    | _ => cubes

section

variable {m : Type → Type} [Monad m]

def loadSettings (readFile : String → m (Option ByteArray)) (options : Options) :
    m (Except SettingsError Params) := do
  match options.config with
  | some path => return Params.ofFile (← readFile path)
  | none => return .ok {}

def generate (clock : m Instant) (options : Options) (params : Params) : m Answer := do
  let world : World := ⟨0, options.seed.getD 1337, params⟩
  match region options with
  | .error fault => return .stopped fault
  | .ok cubes =>
      let start ← clock
      match ← generateRegion clock world cubes with
      | .error fault => return .stopped fault
      | .ok result => return { exit := 0, output := report result ((← clock) - start) }

/-- Bad settings are reported before a negative radius. -/
def answer (readFile : String → m (Option ByteArray)) (clock : m Instant)
    (arguments : List String) : m Answer := do
  match parse arguments with
  | .error cause => return .usage cause
  | .ok .help => return { exit := 0, output := help }
  | .ok (.generate options) =>
      match ← loadSettings readFile options with
      | .error cause => return .failure cause.message
      | .ok params =>
          if options.radius.getD 2 < 0 then return .failure "radius must not be negative"
          else generate clock options params

end

end Karst.CommandLine
