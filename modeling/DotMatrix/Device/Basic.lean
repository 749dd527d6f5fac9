import DotMatrix.Cartridge.Header
import DotMatrix.Device.Breakpoint
import DotMatrix.Device.Collaborator
import DotMatrix.Device.Mainboard
import DotMatrix.Processor.Service

/-! # The device

A processor on a board with a keypad, a screen and peripherals. One step executes one instruction,
serves interrupts and lets the time that took pass for everything else; a breakpoint may pause the
device before it and a watched access after it.
-/
namespace DotMatrix

structure Device (β ι ρ π : Type) where
  machine : Machine β
  header : Header
  keypad : ι
  screen : ρ
  peripherals : List π
  breakpoints : Breakpoints
  exitRequested : Bool
  /-- Where a breakpoint has paused the device; it does not pause there twice in a row. -/
  resumeAt : Option UInt16
  /-- Cycles until the keypad is sampled. -/
  inputCountdown : Nat
  cycles : Nat

inductive StepOutcome where
  /-- The cycles that the step took. -/
  | executed (cycles : Nat)
  | paused (event : BreakEvent)
  deriving DecidableEq, Repr

namespace Device

/-- Cycles between two samples of the keypad: one frame. -/
def inputPollCycles : Nat := 70224

variable {β ι ρ π : Type}

/-- The board of a device at power-on. Without a boot image it is in the state that one leaves. -/
def initialBoard (bootImage : Option Bytes) (controller : Controller) (breakpoints : Breakpoints) :
    Board :=
  let board := match bootImage with
    | some bytes => Board.new bytes controller
    | none => (Board.new #[] controller).skipBoot
  { board with watch := breakpoints.watch }

def initialCpu (bootImage : Option Bytes) : Cpu :=
  if bootImage.isSome then .powerOn else .postBoot

/-- A device with a boot image of 256 bytes or none, and a cartridge. `attach` makes a bus of its
board. -/
def powerOn [Screen ρ] (attach : Board → β) (bootImage : Option Bytes) (image : Bytes) (keypad : ι)
    (screen : ρ) (breakpoints : Breakpoints) : Except Fault (Device β ι ρ π) := do
  if let some bytes := bootImage then
    if bytes.size ≠ Board.bootImageSize then
      throw (.bootImageSize Board.bootImageSize bytes.size)
  let header ← Header.parse image
  let controller ← header.controller image
  return {
    machine := ⟨initialCpu bootImage, attach (initialBoard bootImage controller breakpoints)⟩
    header := header
    keypad := keypad
    screen := Screen.clear screen
    peripherals := []
    breakpoints := breakpoints
    exitRequested := false
    resumeAt := none
    inputCountdown := 0
    cycles := 0 }

def attach (d : Device β ι ρ π) (peripheral : π) : Device β ι ρ π :=
  { d with peripherals := d.peripherals ++ [peripheral] }

def cpu (d : Device β ι ρ π) : Cpu := d.machine.cpu

def pc (d : Device β ι ρ π) : UInt16 := d.machine.registers.pc

def mapBus (d : Device β ι ρ π) (f : β → β) : Device β ι ρ π :=
  { d with machine.bus := f d.machine.bus }

/-- Lets the peripherals see some cycles pass, in order, and presents the frames they complete. -/
@[specialize]
def tickPeripherals [Peripheral π β] [Screen ρ] (cycles : Nat) :
    List π → β → ρ → List π × β × ρ
  | [], bus, screen => ([], bus, screen)
  | p :: rest, bus, screen =>
    let (frame, p, bus) := Peripheral.tick p bus cycles
    let screen := frame.elim screen (Screen.draw screen)
    let (rest, bus, screen) := tickPeripherals cycles rest bus screen
    (p :: rest, bus, screen)

variable [Mainboard β]

def board (d : Device β ι ρ π) : Board := Mainboard.board d.machine.bus

def modifyBoard (d : Device β ι ρ π) (f : Board → Board) : Device β ι ρ π :=
  d.mapBus (Mainboard.modify · f)

def note (d : Device β ι ρ π) (n : Notice) : Device β ι ρ π := d.mapBus (Bus.note · n)

/-- Breakpoints do not apply to a sleeping processor, nor where one has just paused the device. -/
def breakable (d : Device β ι ρ π) : Bool :=
  !d.breakpoints.isEmpty && d.resumeAt != some d.pc && !d.cpu.idle

/-- The address breakpoint at the program counter or, failing that, the opcode breakpoint on the
byte there. -/
def breakEvent? (d : Device β ι ρ π) : Option BreakEvent :=
  if !d.breakable then none
  else if d.breakpoints.breaksAt d.pc then some (.address d.pc)
  else
    let opcode := Bus.peek d.machine.bus d.pc
    if d.breakpoints.breaksOn opcode then some (.opcode opcode d.pc) else none

/-- Tells the bus of the byte that looking for an opcode breakpoint has fetched. -/
def noteBreakCheck (d : Device β ι ρ π) : Device β ι ρ π :=
  if d.breakable && !d.breakpoints.breaksAt d.pc then d.mapBus (Bus.fetched · d.pc 1) else d

def sampleButtons [Keypad ι] (keypad : ι) (b : Board) : Bool × Board :=
  Button.all.foldl (fun (pressed, b) button =>
    let (newly, b) := b.updateButton button (Keypad.held keypad button)
    (pressed || newly, b)) (false, b)

def leaveStop (d : Device β ι ρ π) : Device β ι ρ π :=
  if d.cpu.stopped then
    let d := d.note .leavingStop
    { d with machine := d.machine.mapCpu Cpu.wake }
  else d

/-- Samples the keypad if it has changed. A new press requests the joypad interrupt. -/
def pollInput [Keypad ι] (d : Device β ι ρ π) : Device β ι ρ π :=
  let (changed, keypad) := Keypad.refresh d.keypad
  let d := { d with keypad, inputCountdown := inputPollCycles }
  if changed then
    let pressed := (sampleButtons keypad d.board).1
    let d := d.modifyBoard fun b => (sampleButtons keypad b).2
    if pressed then (d.modifyBoard (·.request Interrupt.joypad.mask)).leaveStop else d
  else d

def countInput [Keypad ι] (d : Device β ι ρ π) (cycles : Nat) : Device β ι ρ π :=
  let d := { d with inputCountdown := d.inputCountdown - cycles }
  if d.inputCountdown = 0 then d.pollInput else d

@[specialize]
def passTime [Keypad ι] [Screen ρ] [Peripheral π β] (d : Device β ι ρ π) (cycles : Nat) :
    Device β ι ρ π :=
  let d := d.mapBus fun bus => Mainboard.tick (Mainboard.tickTimer bus cycles) cycles
  let (peripherals, bus, screen) := tickPeripherals cycles d.peripherals d.machine.bus d.screen
  let d := { d with peripherals, screen, machine.bus := bus }
  let d := d.countInput cycles
  { d with cycles := d.cycles + cycles }

/-- Collects the watched access of a step that began at `address`. -/
def settleWatch (d : Device β ι ρ π) (address : UInt16) (cycles : Nat) :
    StepOutcome × Device β ι ρ π :=
  match d.board.watch.hit with
  | none => (.executed cycles, d)
  | some hit =>
    let event := BreakEvent.watch hit address
    let d := d.modifyBoard fun b => b.takeHit.2
    (.paused event, d.note (.hit event.text))

/-- One step. A fault of the processor leaves all but the place to resume as it was. -/
@[specialize]
def step [Keypad ι] [Screen ρ] [Peripheral π β] (d : Device β ι ρ π) :
    Except Fault StepOutcome × Device β ι ρ π :=
  let address := d.pc
  let event := d.breakEvent?
  let d := d.noteBreakCheck
  match event with
  | some event =>
    let d := { d with resumeAt := some address }
    (.ok (.paused event), d.note (.hit event.text))
  | none =>
    let d := { d with resumeAt := none }
    match d.machine.fetch with
    | .error fault => (.error fault, d)
    | .ok fetched =>
      let (spent, machine) := d.machine.proceed fetched
      let (serving, machine) := machine.service
      let cycles := spent + serving
      let (outcome, d) := ({ d with machine }.passTime cycles).settleWatch address cycles
      (.ok outcome, d)

def disassemble (d : Device β ι ρ π) (address : UInt16) : Except Fault Instruction :=
  Machine.decode d.machine.bus address

end Device
end DotMatrix
