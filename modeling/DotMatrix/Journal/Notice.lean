import DotMatrix.Cartridge.RealTimeClock
import DotMatrix.Processor.Interrupt
import DotMatrix.Processor.Notation

/-! # Notices

What a running machine has to tell about itself. A notice has a level, a topic and a text; a
verbosity admits the levels up to a given one, or none at all.
-/
namespace DotMatrix

inductive Level where
  | error | warn | info | debug | trace
  deriving DecidableEq, Repr

namespace Level

def rank : Level → Nat
  | .error => 1
  | .warn => 2
  | .info => 3
  | .debug => 4
  | .trace => 5

def text : Level → String
  | .error => "ERROR"
  | .warn => "WARN"
  | .info => "INFO"
  | .debug => "DEBUG"
  | .trace => "TRACE"

end Level

/-- The most detailed level that is shown. -/
abbrev Verbosity := Option Level

def Verbosity.admits (v : Verbosity) (level : Level) : Bool :=
  v.any fun most => decide (level.rank ≤ most.rank)

inductive Chip where
  | mbc1 | mbc2 | mbc3
  deriving DecidableEq, Repr

inductive Topic where
  | console | device | cartridge | romBoard | chip (chip : Chip) | memoryMap | dma | joypad
  | processor | interrupts | timer | storage
  deriving DecidableEq, Repr

inductive Notice where
  | executing (address : UInt16) (instruction : Instruction)
  | enteredStop (address : UInt16)
  | dispatched (source : Interrupt) (returnTo : UInt16)
  | timerReloaded (value : UInt8)
  | bothLinesSelected
  | writeDropped (value : UInt8) (address : UInt16)
  | bootImageUnmapped
  | dmaIgnored (page : UInt8)
  | dmaStarted (source : UInt16)
  | dmaFinished (source : UInt16)
  | romWriteIgnored (value : UInt8) (address : UInt16)
  | ramSwitched (chip : Chip) (on : Bool)
  | romBankSelected (chip : Chip) (bank : Nat)
  | secondarySet (value : UInt8) (romBank ramBank : Nat)
  | modeSet (advanced : Bool)
  | windowSelected (selector : UInt8)
  | clockLatched (reading : ClockReading)
  | ramWriteDropped (chip : Chip) (address : UInt16)
  | windowUnmapped (selector : UInt8)
  | unknownRomSize (code : UInt8)
  | unknownRamSize (code : UInt8)
  | cartridgeBanks (name : String) (romBanks ramBanks : Nat) (battery : Bool)
  | extracted (entry path : String)
  | checksumMismatch (title : String)
  | loaded (title controller : String)
  | running (address : UInt16)
  | hit (event : String)
  | exitRequested (cycles : Nat)
  | leavingStop
  | ramSaved (name : String)
  | ramRestored (name : String)
  | storageWrote (size : Nat) (path : String)
  | storageRead (size : Nat) (path : String)
  | report (text : String)
  | complaint (text : String)
  deriving DecidableEq, Repr

def ClockReading.text (c : ClockReading) : String :=
  s!"RtcRegisters \x7b seconds: {c.seconds}, minutes: {c.minutes}, hours: {c.hours}, " ++
    s!"days: {c.days}, halted: {c.halted}, carry: {c.carry} \x7d"

namespace Chip

def text : Chip → String
  | .mbc1 => "MBC1"
  | .mbc2 => "MBC2"
  | .mbc3 => "MBC3"

def guarded : Chip → String
  | .mbc1 | .mbc2 => "RAM"
  | .mbc3 => "RAM/RTC"

def hindrance : Chip → String
  | .mbc1 => "unavailable"
  | .mbc2 | .mbc3 => "disabled"

end Chip

namespace Topic

def text : Topic → String
  | .console => "dmgcore"
  | .device => "dmgcore::gameboy"
  | .cartridge => "dmgcore::cartridge"
  | .romBoard => "dmgcore::memory::mapper::rom"
  | .chip .mbc1 => "dmgcore::memory::mapper::mbc1"
  | .chip .mbc2 => "dmgcore::memory::mapper::mbc2"
  | .chip .mbc3 => "dmgcore::memory::mapper::mbc3"
  | .memoryMap => "dmgcore::memory::mmu"
  | .dma => "dmgcore::memory::dma"
  | .joypad => "dmgcore::joypad"
  | .processor => "dmgcore::lr35902::cpu"
  | .interrupts => "dmgcore::lr35902::irq"
  | .timer => "dmgcore::lr35902::timer"
  | .storage => "dmgcore::storage"

end Topic

namespace Notice

def level : Notice → Level
  | .complaint _ => .error
  | .bothLinesSelected | .dmaIgnored _ | .ramWriteDropped .. | .windowUnmapped _
  | .unknownRomSize _ | .unknownRamSize _ | .checksumMismatch _ => .warn
  | .bootImageUnmapped | .extracted .. | .loaded .. | .running _ | .hit _ | .exitRequested _
  | .ramSaved _ | .ramRestored _ | .report _ => .info
  | .enteredStop _ | .dmaStarted _ | .dmaFinished _ | .ramSwitched .. | .romBankSelected ..
  | .secondarySet .. | .modeSet _ | .windowSelected _ | .clockLatched _ | .cartridgeBanks ..
  | .leavingStop | .storageWrote .. | .storageRead .. => .debug
  | .executing .. | .dispatched .. | .timerReloaded _ | .writeDropped .. | .romWriteIgnored .. =>
    .trace

def topic : Notice → Topic
  | .executing .. | .enteredStop _ => .processor
  | .dispatched .. => .interrupts
  | .timerReloaded _ => .timer
  | .bothLinesSelected => .joypad
  | .writeDropped .. | .bootImageUnmapped => .memoryMap
  | .dmaIgnored _ | .dmaStarted _ | .dmaFinished _ => .dma
  | .romWriteIgnored .. => .romBoard
  | .ramSwitched chip _ | .romBankSelected chip _ | .ramWriteDropped chip _ => .chip chip
  | .secondarySet .. | .modeSet _ => .chip .mbc1
  | .windowSelected _ | .clockLatched _ | .windowUnmapped _ => .chip .mbc3
  | .unknownRomSize _ | .unknownRamSize _ | .cartridgeBanks .. | .extracted .. => .cartridge
  | .checksumMismatch _ | .loaded .. | .running _ | .hit _ | .exitRequested _ | .leavingStop
  | .ramSaved _ | .ramRestored _ => .device
  | .storageWrote .. | .storageRead .. => .storage
  | .report _ | .complaint _ => .console

def text : Notice → String
  | .executing address i => s!"[0x{Hex.word address}] {i.text}"
  | .enteredStop address => s!"CPU: Entered STOP at ${Hex.word address}"
  | .dispatched source returnTo => s!"IRQ: Dispatched {source.text} from ${Hex.word returnTo}"
  | .timerReloaded v => s!"Timer: Reloaded TIMA with {Hex.byte v}"
  | .bothLinesSelected => "Joypad has buttons and d-pad mode selected"
  | .writeDropped v address =>
    s!"MMU: Observer dropped write of {Hex.byte v} to {Hex.word address}"
  | .bootImageUnmapped => "MMU: Boot image unmapped"
  | .dmaIgnored page =>
    s!"DMA: Ignored start from page {Hex.byte page}, transfer already running"
  | .dmaStarted source => s!"DMA: Started transfer from {Hex.word source}"
  | .dmaFinished source => s!"DMA: Transfer from {Hex.word source} finished"
  | .romWriteIgnored v address => s!"ROM: Ignored write of {Hex.byte v} to {Hex.word address}"
  | .ramSwitched chip on => s!"{chip.text}: {chip.guarded} enabled: {on}"
  | .romBankSelected chip bank => s!"{chip.text}: Switched to ROM bank {bank}"
  | .secondarySet v romBank ramBank =>
    s!"MBC1: Secondary bank register set to {v} (ROM bank {romBank}, RAM bank {ramBank})"
  | .modeSet advanced => s!"MBC1: Switched to banking mode: {advanced}"
  | .windowSelected selector => s!"MBC3: Selected RAM bank/RTC register {Hex.byte selector}"
  | .clockLatched reading => s!"MBC3: Latched RTC {reading.text}"
  | .ramWriteDropped chip address =>
    s!"{chip.text}: Dropped write to {Hex.word address} while RAM is {chip.hindrance}"
  | .windowUnmapped selector => s!"MBC3: Dropped write to unmapped bank {Hex.byte selector}"
  | .unknownRomSize code => s!"Cartridge: Unknown ROM size code {Hex.byte code}, assuming 2 banks"
  | .unknownRamSize code => s!"Cartridge: Unknown RAM size code {Hex.byte code}, assuming no RAM"
  | .cartridgeBanks name romBanks ramBanks battery =>
    s!"Cartridge: {name} with {romBanks} ROM banks, {ramBanks} RAM banks, battery: {battery}"
  | .extracted entry path => s!"Cartridge: Extracted {entry} from {path}"
  | .checksumMismatch title => s!"Device: Header checksum mismatch for \"{title}\""
  | .loaded title controller => s!"Device: Loaded \"{title}\" ({controller})"
  | .running address => s!"Device: Running from ${Hex.word address}"
  | .hit event => s!"Device: Hit {event}"
  | .exitRequested cycles => s!"Device: Exit requested after {cycles} cycles"
  | .leavingStop => "Device: Leaving STOP on button press"
  | .ramSaved name => s!"Device: Saved cartridge RAM as {name}"
  | .ramRestored name => s!"Device: Restored cartridge RAM from {name}"
  | .storageWrote size path => s!"Storage: Wrote {size} bytes to {path}"
  | .storageRead size path => s!"Storage: Read {size} bytes from {path}"
  | .report text | .complaint text => text

def line (n : Notice) : String := s!"[{n.level.text}] [{n.topic.text}] {n.text}"

end Notice
end DotMatrix
