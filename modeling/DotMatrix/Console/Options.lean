import DotMatrix.Console.Number
import DotMatrix.Console.Styled
import DotMatrix.Device.Breakpoint
import DotMatrix.Files.Path
import DotMatrix.Journal.Notice

/-! # The command line

A command line names a cartridge and may set options, each with a value behind it. A value is
looked at when the next option or operand comes, so an argument that is not known at all is told
before a fault of the value in front of it.
-/
namespace DotMatrix

inductive Setting where
  | boot | saveDirectory | breakpoint | watchRead | watchWrite | breakOpcode | cycles | logLevel
  deriving DecidableEq, Repr

inductive Slot where
  | rom
  | setting (s : Setting)
  deriving DecidableEq, Repr

namespace Setting

def all : List Setting :=
  [.boot, .saveDirectory, .breakpoint, .watchRead, .watchWrite, .breakOpcode, .cycles, .logLevel]

def name : Setting → String
  | .boot => "boot"
  | .saveDirectory => "save-dir"
  | .breakpoint => "breakpoint"
  | .watchRead => "watch-read"
  | .watchWrite => "watch-write"
  | .breakOpcode => "break-opcode"
  | .cycles => "cycles"
  | .logLevel => "log-level"

def placeholder : Setting → String
  | .boot => "BOOT"
  | .saveDirectory => "SAVE_DIR"
  | .breakpoint | .watchRead | .watchWrite => "ADDR"
  | .breakOpcode => "OP"
  | .cycles => "CYCLES"
  | .logLevel => "LOG_LEVEL"

def about : Setting → String
  | .boot =>
    "256-byte boot image; without one the cartridge starts at $0100 in post-boot state"
  | .saveDirectory => "Directory for battery saves, defaults to the cartridge's directory"
  | .breakpoint => "Break before executing the instruction at ADDR"
  | .watchRead => "Break after an instruction reads ADDR"
  | .watchWrite => "Break after an instruction writes ADDR"
  | .breakOpcode => "Break before executing any instruction with opcode OP"
  | .cycles => "Stop after this many T-cycles"
  | .logLevel => "off, error, warn, info, debug or trace [default: info]"

def ofName? (name : String) : Option Setting := all.find? (·.name == name)

def usage (s : Setting) : String := s!"--{s.name} <{s.placeholder}>"

end Setting

def Slot.text : Slot → String
  | .rom => "<ROM>"
  | .setting s => s.usage

inductive UsageFault where
  | unexpectedArgument (argument : String)
  | unexpectedValue (value flag : String)
  | missingValue (slot : Slot)
  | repeated (slot : Slot)
  | invalidValue (value : String) (slot : Slot) (reason : String)
  | missingRom
  deriving DecidableEq, Repr

def CommandLine.usage : String := "Usage: dmgcore [OPTIONS] <ROM>"

namespace UsageFault

/-- What comes from the command line is set off, but for the reason. -/
def message : UsageFault → String
  | .unexpectedArgument argument => s!"unexpected argument '{Styled.setOff argument}' found"
  | .unexpectedValue value flag =>
    s!"unexpected value '{Styled.setOff value}' for '{flag}' found; no more were expected"
  | .missingValue slot => s!"a value is required for '{slot.text}' but none was supplied"
  | .repeated slot => s!"the argument '{slot.text}' cannot be used multiple times"
  | .invalidValue value slot reason =>
    s!"invalid value '{Styled.setOff value}' for '{slot.text}': {reason}"
  | .missingRom => "the following required arguments were not provided:"

/-- The usage is no help where only the value is wrong. -/
def showsUsage : UsageFault → Bool
  | .missingValue _ | .invalidValue .. => false
  | _ => true

def report (fault : UsageFault) : String :=
  "error: " ++ fault.message ++ (if fault.showsUsage then "\n\n" ++ CommandLine.usage else "") ++
    "\n\nFor more information, try '" ++ Styled.setOff "--help" ++ "'."

/-- The lines that tell of a fault. What would set pieces off is taken away from the whole text, and
with it what the command line brings along of that kind. -/
def lines (fault : UsageFault) : List String := (Styled.plain fault.report).splitOn "\n"

end UsageFault

structure Options where
  rom : Path
  boot : Option Path
  saveDirectory : Option Path
  breakpoints : Breakpoints
  cycles : Option Nat
  verbosity : Verbosity
  deriving DecidableEq, Repr

inductive Request where
  | run (options : Options)
  | version
  | help
  deriving DecidableEq, Repr

/-- The level of a name, in letters of either case. -/
def Verbosity.ofName? (name : String) : Option Verbosity :=
  [("off", none), ("error", some .error), ("warn", some .warn), ("info", some .info),
    ("debug", some .debug), ("trace", some .trace)].lookup name.toLower

structure Draft where
  rom : Option Path := none
  boot : Option Path := none
  saveDirectory : Option Path := none
  addresses : List UInt16 := []
  reads : List UInt16 := []
  writes : List UInt16 := []
  opcodes : List UInt8 := []
  cycles : Option Nat := none
  verbosity : Option Verbosity := none

namespace Draft

/-- A value that can be given once only has been given before. -/
def taken (d : Draft) : Slot → Bool
  | .rom => d.rom.isSome
  | .setting .boot => d.boot.isSome
  | .setting .saveDirectory => d.saveDirectory.isSome
  | .setting .cycles => d.cycles.isSome
  | .setting .logLevel => d.verbosity.isSome
  | .setting _ => false

def readPath (slot : Slot) (value : String) : Except UsageFault Path :=
  if value.isEmpty then .error (.missingValue slot) else .ok ⟨value⟩

def readLevel (value : String) : Except String Verbosity :=
  match Verbosity.ofName? value with
  | some verbosity => .ok verbosity
  | none => .error s!"unknown log level \"{value}\""

def valid {α : Type} (slot : Slot) (value : String) (read : String → Except String α) :
    Except UsageFault α :=
  (read value).mapError fun reason => .invalidValue value slot reason

def assign (d : Draft) (slot : Slot) (value : String) : Except UsageFault Draft := do
  if d.taken slot then throw (.repeated slot)
  match slot with
  | .rom => return { d with rom := some (← readPath slot value) }
  | .setting .boot => return { d with boot := some (← readPath slot value) }
  | .setting .saveDirectory => return { d with saveDirectory := some (← readPath slot value) }
  | .setting .breakpoint =>
    return { d with addresses := d.addresses ++ [← valid slot value Number.readAddress] }
  | .setting .watchRead =>
    return { d with reads := d.reads ++ [← valid slot value Number.readAddress] }
  | .setting .watchWrite =>
    return { d with writes := d.writes ++ [← valid slot value Number.readAddress] }
  | .setting .breakOpcode =>
    return { d with opcodes := d.opcodes ++ [← valid slot value Number.readOpcode] }
  | .setting .cycles => return { d with cycles := some (← valid slot value Number.readCount) }
  | .setting .logLevel => return { d with verbosity := some (← valid slot value readLevel) }

def breakpoints (d : Draft) : Breakpoints :=
  d.addresses.map .address ++ d.reads.map .read ++ d.writes.map .write ++ d.opcodes.map .opcode

def finish (d : Draft) : Except UsageFault Request :=
  match d.rom with
  | none => .error .missingRom
  | some rom => .ok <| .run {
      rom := rom
      boot := d.boot
      saveDirectory := d.saveDirectory
      breakpoints := d.breakpoints
      cycles := d.cycles
      verbosity := d.verbosity.getD (some .info) }

end Draft

inductive Argument where
  | separator
  | long (name : String) (value : Option String)
  | short (letter : Char)
  | plain
  deriving DecidableEq, Repr

/-- An argument that is a lone dash is plain. -/
def Argument.ofText (text : String) : Argument :=
  match text.toList with
  | ['-', '-'] => .separator
  | '-' :: '-' :: rest =>
    let name := rest.takeWhile (· != '=')
    .long (String.ofList name) (if rest.contains '=' then
      some (String.ofList (rest.drop (name.length + 1))) else none)
  | '-' :: letter :: _ => .short letter
  | _ => .plain

namespace CommandLine

structure State where
  draft : Draft := {}
  /-- The slot whose value is awaited or has come but has not been read yet. -/
  pending : Option (Slot × Option String) := none
  /-- An operand has come. -/
  hasRom : Bool := false
  /-- A separator has come, behind which every argument is an operand. -/
  operandsOnly : Bool := false

def settle (s : State) : Except UsageFault State :=
  match s.pending with
  | none => .ok s
  | some (slot, none) => .error (.missingValue slot)
  | some (slot, some value) => do
    return { s with draft := ← s.draft.assign slot value, pending := none }

def takeOperand (s : State) (text : String) : Except UsageFault State := do
  if s.hasRom then throw (.unexpectedArgument text)
  return { ← settle s with pending := some (.rom, some text), hasRom := true }

/-- A plain argument is the value of an option that awaits one, or an operand. -/
def takePlain (s : State) (text : String) : Except UsageFault State :=
  match s.pending with
  | some (slot, none) => .ok { s with pending := some (slot, some text) }
  | _ => takeOperand s text

def takeSetting (s : State) (setting : Setting) (value : Option String) :
    Except UsageFault State := do
  let s ← settle s
  match value with
  | none => return { s with pending := some (.setting setting, none) }
  | some value => return { s with draft := ← s.draft.assign (.setting setting) value }

/-- Options that are asked for by themselves, by their long names. -/
def immediate? (name : String) : Option Request :=
  if name = "help" then some .help else if name = "version" then some .version else none

def immediateLetter? (letter : Char) : Option Request :=
  if letter = 'h' then some .help else if letter = 'V' then some .version else none

def readFrom (s : State) : List String → Except UsageFault Request
  | [] => do (← settle s).draft.finish
  | text :: rest =>
    if s.operandsOnly then do readFrom (← takeOperand s text) rest
    else match Argument.ofText text with
      | .separator => readFrom { s with operandsOnly := true } rest
      | .plain => do readFrom (← takePlain s text) rest
      | .short letter =>
        match immediateLetter? letter with
        | some request => do
          let _ ← settle s
          return request
        | none => .error (.unexpectedArgument s!"-{letter}")
      | .long name value =>
        match Setting.ofName? name, immediate? name, value with
        | some setting, _, value => do readFrom (← takeSetting s setting value) rest
        | none, some _, some value => .error (.unexpectedValue value s!"--{name}")
        | none, some request, none => do
          let _ ← settle s
          return request
        | none, none, _ => .error (.unexpectedArgument s!"--{name}")

def read (arguments : List String) : Except UsageFault Request := readFrom {} arguments

def version : String := "dmgcore 0.1.0"

def help : List String :=
  ["Headless DMG runner", "", usage, "", "Arguments:",
    "  <ROM>  Cartridge image (.gb, .gbc or a .zip containing one)", "", "Options:"] ++
  Setting.all.map (fun s => s!"      {s.usage}  {s.about}") ++
  ["  -h, --help  Print help", "  -V, --version  Print version"]

end CommandLine
end DotMatrix
