import DotMatrix.Proofs.Cartridge.Checked
import DotMatrix.Proofs.Cartridge.Calendar
import DotMatrix.Proofs.Cartridge.Ram

/-! # Cartridges stay within their limits

The counts of banks, the buffers and the fields of the clock fit each other when a cartridge is
made, and whatever is asked of it they go on to. So nothing traps: the work that minds its limits
gives the answers of the work that does not.
-/
namespace DotMatrix

namespace Checked

theorem byteAt_ok {b : Bytes} {offset : Nat} (h : offset < b.size) :
    byteAt b offset = .ok (b.readOpen offset) := by
  rw [byteAt, dif_pos h, Bytes.readOpen_of_lt b h]

theorem store_ok {b : Bytes} {offset : Nat} (h : offset < b.size) (v : UInt8) :
    store b offset v = .ok (b.setIfInBounds offset v) := if_pos h

theorem first_ok {length : Nat} {b : Bytes} (h : length ≤ b.size) :
    first length b = .ok (b.extract 0 length) := if_pos h

theorem remainder_ok (n : Nat) {d : Nat} (h : 0 < d) : remainder n d = .ok (n % d) :=
  if_neg (Nat.ne_of_gt h)

/-- The banks of an image, as they were counted, are never none. -/
theorem remainder_romCount {image : Bytes} {banks : Nat} (h : banks = Bank.romCount image)
    (n : Nat) :
    remainder n banks = .ok (n % Bank.romCount image) := by
  rw [h]
  exact remainder_ok n (Bank.romCount_pos image)

theorem difference_ok {m n : Nat} (h : n ≤ m) : difference m n = .ok (m - n) := if_pos h

theorem within_ok {bits n : Nat} (h : n < 2 ^ bits) : within bits n = .ok n := if_pos h

theorem nextByte_ok {v : UInt8} (h : v.toNat < 0xff) : nextByte v = .ok (v + 1) := by
  have hsum : UInt8.ofNat (v.toNat + 1) = v + 1 := by
    rw [UInt8.ofNat_add, UInt8.ofNat_toNat]
    rfl
  rw [nextByte, within_ok (Nat.succ_lt_succ h), ok_bind, hsum, pure_eq_ok]

theorem nextWord_ok {w : UInt16} (h : w.toNat < 0xffff) : nextWord w = .ok (w + 1) := by
  have hsum : UInt16.ofNat (w.toNat + 1) = w + 1 := by
    rw [UInt16.ofNat_add, UInt16.ofNat_toNat]
    rfl
  rw [nextWord, within_ok (Nat.succ_lt_succ h), ok_bind, hsum, pure_eq_ok]

/-- A byte behind a window of a bare ROM. -/
theorem imageByte_ok {windows offset : Nat} (h : offset < windows) (image : Bytes) :
    imageByte windows image offset = .ok (image.readOpen offset) := by
  unfold imageByte
  split
  · rfl
  · exact byteAt_ok (by omega)

/-- A bank that wraps to the banks of an image lies within the image, unless that is shorter than
one bank. -/
theorem romByte_ok {image : Bytes} {bank : Nat} (h : bank < Bank.romCount image)
    (address : UInt16) : romByte image bank address = .ok (Bank.romByte image bank address) := by
  unfold romByte imageByte
  split
  · rfl
  · simp only [Bank.romCount, Bank.romSize] at *
    exact byteAt_ok (by omega)

/-- Restoring a dump copies what both buffers have room for. -/
theorem restore_ok (ram dump : Bytes) : restore ram dump = .ok (dump.fit ram.size) := by
  have hkept : dump.extract 0 (min ram.size dump.size) ++
      Bytes.zeros (ram.size - min ram.size dump.size) = dump.fit ram.size := by
    apply Array.ext
    · simp only [Array.size_append, Array.size_extract, Bytes.size_zeros, Bytes.size_fit]
      omega
    · intro i hi hi'
      have hram : i < ram.size := by simpa using hi'
      rw [Array.getElem_append]
      split
      · rename_i hlt
        have hdump : i < dump.size := by
          simp only [Array.size_extract] at hlt
          omega
        simp [Bytes.fit, hdump]
      · rename_i hge
        have hdump : dump.size ≤ i := by
          simp only [Array.size_extract] at hge
          omega
        simp [Bytes.fit, Bytes.zeros, Array.getElem?_eq_none hdump]
  rw [restore, first_ok (Nat.min_le_left _ _), ok_bind, first_ok (Nat.min_le_right _ _), ok_bind,
    hkept, pure_eq_ok]

end Checked

open Checked

namespace ClockReading
variable {c : ClockReading}

theorem nextDayChecked_ok (h : c.Fits) : c.nextDayChecked = .ok c.nextDay := by
  have hdays : c.days.toNat < 0xffff := Nat.lt_trans h.days (by decide)
  unfold nextDayChecked nextDay
  split
  · rfl
  · rw [nextWord_ok hdays, ok_bind, pure_eq_ok]

theorem nextHourChecked_ok (h : c.Fits) : c.nextHourChecked = .ok c.nextHour := by
  have hhours : c.hours.toNat < 0xff := Nat.lt_trans h.hours (by decide)
  rw [nextHourChecked, nextByte_ok hhours, ok_bind, nextHour]
  dsimp only
  split
  · exact nextDayChecked_ok ⟨h.seconds, h.minutes, (by decide : (0 : UInt8).toNat < 32), h.days⟩
  · rfl

theorem nextMinuteChecked_ok (h : c.Fits) : c.nextMinuteChecked = .ok c.nextMinute := by
  have hminutes : c.minutes.toNat < 0xff := Nat.lt_trans h.minutes (by decide)
  rw [nextMinuteChecked, nextByte_ok hminutes, ok_bind, nextMinute]
  dsimp only
  split
  · exact nextHourChecked_ok ⟨h.seconds, (by decide : (0 : UInt8).toNat < 64), h.hours, h.days⟩
  · rfl

theorem nextSecondChecked_ok (h : c.Fits) : c.nextSecondChecked = .ok c.nextSecond := by
  have hseconds : c.seconds.toNat < 0xff := Nat.lt_trans h.seconds (by decide)
  rw [nextSecondChecked, nextByte_ok hseconds, ok_bind, nextSecond]
  dsimp only
  split
  · exact nextMinuteChecked_ok ⟨(by decide : (0 : UInt8).toNat < 64), h.minutes, h.hours, h.days⟩
  · rfl

end ClockReading

namespace RealTimeClock

/-- Settling second by second leaves whole seconds and what is left of one. -/
theorem settleChecked_ok {c : RealTimeClock} (h : c.live.Fits) :
    c.settleChecked = .ok { c with
      live := c.live.advance (c.cycles / cyclesPerSecond)
      cycles := c.cycles % cyclesPerSecond } := by
  induction c using settleChecked.induct with
  | case1 c hle ih =>
    have hnext : c.live.nextSecond.Fits := h.advance_fits 1
    have hquotient : c.cycles / cyclesPerSecond =
        (c.cycles - cyclesPerSecond) / cyclesPerSecond + 1 :=
      Nat.div_eq_sub_div (by decide) hle
    have hremainder : (c.cycles - cyclesPerSecond) % cyclesPerSecond =
        c.cycles % cyclesPerSecond := (Nat.mod_eq_sub_mod hle).symm
    rw [settleChecked, if_pos hle, difference_ok hle, ok_bind,
      ClockReading.nextSecondChecked_ok h, ok_bind, ih c.live.nextSecond hnext, hquotient,
      ClockReading.advance, hremainder]
  | case2 c hlt =>
    have hlt : c.cycles < cyclesPerSecond := Nat.lt_of_not_le hlt
    rw [settleChecked, if_neg (Nat.not_le.2 hlt), Nat.div_eq_of_lt hlt, Nat.mod_eq_of_lt hlt]
    rfl

theorem tickChecked_ok {bits cycles : Nat} {c : RealTimeClock} (h : c.live.Fits)
    (hsum : c.live.halted = false → c.cycles + cycles < 2 ^ bits) :
    c.tickChecked bits cycles = .ok (c.tick cycles) := by
  cases hhalted : c.live.halted with
  | true =>
    rw [tick_of_halted hhalted, tickChecked, if_pos hhalted, pure_eq_ok]
  | false =>
    rw [tick_of_running hhalted, tickChecked, hhalted, if_neg Bool.false_ne_true,
      within_ok (hsum hhalted), ok_bind]
    exact settleChecked_ok h

/-- Four bits have no room for sixteen cycles. -/
example : zero.tickChecked 4 16 = .error (.overflow 4) := rfl

end RealTimeClock

/-- A bank that is there lies in RAM as far as the window reaches. -/
theorem Bank.ramOffset_lt {ram : Bytes} {banks bank : Nat} {address : UInt16}
    (hram : ram.size = banks * 0x2000) (hbank : bank < banks) (hw : address < 0xc000) :
    ramOffset bank address < ram.size := by
  have hwindow : address.toNat < 0xc000 := UInt16.lt_iff_toNat_lt.1 hw
  simp only [hram, ramOffset, ramSize]
  omega

section Windows
variable {counts : BankCounts} {address : UInt16}

namespace Mbc1
variable {m : Mbc1}

structure Sound (counts : BankCounts) (m : Mbc1) : Prop where
  rom : counts.rom = Bank.romCount m.rom
  ram : m.ram.size = counts.ram * 0x2000

theorem Sound.ramBank_lt (h : m.Sound counts) (hram : m.ram.isEmpty = false) :
    m.ramBank < counts.ram := by
  have hpos : 0 < counts.ram := by
    rw [Bank.isEmpty_eq h.ram] at hram
    exact Nat.pos_of_ne_zero (of_decide_eq_false hram)
  rw [ramBank, Bank.ramCount_eq h.ram]
  split
  · exact Nat.mod_lt _ hpos
  · exact hpos

theorem lowRomBankChecked_ok (h : m.Sound counts) :
    m.lowRomBankChecked counts = .ok m.lowRomBank := by
  unfold lowRomBankChecked lowRomBank
  split
  · exact remainder_romCount h.rom _
  · rfl

theorem romBankChecked_ok (h : m.Sound counts) : m.romBankChecked counts = .ok m.romBank :=
  remainder_romCount h.rom _

theorem ramBankChecked_ok (h : m.Sound counts) : m.ramBankChecked counts = .ok m.ramBank := by
  rw [ramBankChecked, ramBank, Bank.ramCount_eq h.ram]
  split
  · rename_i hadvanced
    exact remainder_ok _ hadvanced.2
  · rfl

theorem ramOffsetChecked?_ok (h : m.Sound counts) (hw : 0xa000 ≤ address) :
    m.ramOffsetChecked? counts address = .ok (m.ramOffset? address) := by
  have hbase : 0xa000 ≤ address.toNat := UInt16.le_iff_toNat_le.1 hw
  unfold ramOffsetChecked? ramOffset?
  split
  · rw [ramBankChecked_ok h, ok_bind, difference_ok hbase, ok_bind, pure_eq_ok, Bank.ramOffset]
  · rfl

theorem Sound.ramOffset?_lt (h : m.Sound counts) (hw : address < 0xc000) {offset : Nat}
    (ho : m.ramOffset? address = some offset) : offset < m.ram.size := by
  unfold ramOffset? at ho
  split at ho
  · rename_i hram
    have hbank := h.ramBank_lt (by simpa using (Bool.and_eq_true_iff.1 hram).2)
    cases ho
    exact Bank.ramOffset_lt h.ram hbank hw
  · cases ho

theorem readChecked_ok (h : m.Sound counts) (address : UInt16) :
    m.readChecked counts address = .ok (m.read address) := by
  have hpos : 0 < Bank.romCount m.rom := Bank.romCount_pos m.rom
  have hlow : m.lowRomBank < Bank.romCount m.rom := by
    unfold lowRomBank
    split
    · exact Nat.mod_lt _ hpos
    · exact hpos
  have hhigh : m.romBank < Bank.romCount m.rom := Nat.mod_lt _ hpos
  unfold readChecked read
  split
  · rw [lowRomBankChecked_ok h, ok_bind, romByte_ok hlow]
  split
  · rw [romBankChecked_ok h, ok_bind, romByte_ok hhigh]
  split
  · rename_i hw
    rw [ramOffsetChecked?_ok h hw.1, ok_bind]
    cases ho : m.ramOffset? address with
    | none => rfl
    | some offset => exact byteAt_ok (h.ramOffset?_lt hw.2 ho)
  · rfl

theorem writeChecked_ok (h : m.Sound counts) (address : UInt16) (v : UInt8) :
    m.writeChecked counts address v = .ok (m.write address v) := by
  -- What a write to a register leaves has the same buffers.
  have hprimary : ({ m with primary := Bank.nonzero (v &&& 0x1f) } : Mbc1).Sound counts :=
    ⟨h.rom, h.ram⟩
  have hsecondary : ({ m with secondary := v &&& 0x03 } : Mbc1).Sound counts := ⟨h.rom, h.ram⟩
  unfold writeChecked write
  split
  · rfl
  split
  · dsimp only
    rw [romBankChecked_ok hprimary, ok_bind, pure_eq_ok]
  split
  · dsimp only
    rw [romBankChecked_ok hsecondary, ok_bind, ramBankChecked_ok hsecondary, ok_bind, pure_eq_ok]
  split
  · rfl
  split
  · rename_i hw
    rw [ramOffsetChecked?_ok h hw.1, ok_bind]
    cases ho : m.ramOffset? address with
    | none => rfl
    | some offset =>
      dsimp only
      rw [store_ok (h.ramOffset?_lt hw.2 ho), ok_bind, pure_eq_ok]
  · rfl

theorem loadRamChecked_ok (m : Mbc1) (dump : Bytes) :
    m.loadRamChecked dump = .ok (m.loadRam dump) := by
  rw [loadRamChecked, restore_ok, ok_bind, pure_eq_ok, loadRam]

theorem Sound.apply (h : m.Sound counts) (e : Controller.Event) : (m.apply e).Sound counts :=
  ⟨(rom_apply m e).symm ▸ h.rom, (size_ram_apply m e).trans h.ram⟩

end Mbc1

namespace Mbc2
variable {m : Mbc2}

structure Sound (counts : BankCounts) (m : Mbc2) : Prop where
  rom : counts.rom = Bank.romCount m.rom

theorem romBankChecked_ok (h : m.Sound counts) : m.romBankChecked counts = .ok m.romBank :=
  remainder_romCount h.rom _

theorem refill_ok (m : Mbc2) (ram : Vector UInt8 0x200) :
    m.refill ram.toArray = .ok { m with ram } := dif_pos ram.size_toArray

theorem readChecked_ok (h : m.Sound counts) (address : UInt16) :
    m.readChecked counts address = .ok (m.read address) := by
  have hpos : 0 < Bank.romCount m.rom := Bank.romCount_pos m.rom
  have hcell : address.toNat % 0x200 < m.ram.toArray.size := by
    rw [Vector.size_toArray]
    exact Nat.mod_lt _ (by decide)
  unfold readChecked read
  split
  · exact romByte_ok hpos address
  split
  · rw [romBankChecked_ok h, ok_bind]
    exact romByte_ok (Nat.mod_lt _ hpos) address
  split
  · rw [byteAt_ok hcell, ok_bind, pure_eq_ok, Bytes.readOpen_of_lt _ hcell]
    rfl
  · rfl

theorem writeChecked_ok (h : m.Sound counts) (address : UInt16) (v : UInt8) :
    m.writeChecked counts address v = .ok (m.write address v) := by
  have hselected : ({ m with selected := Bank.nonzero (v &&& 0x0f) } : Mbc2).Sound counts := ⟨h.rom⟩
  have hcell : address.toNat % 0x200 < m.ram.toArray.size := by
    rw [Vector.size_toArray]
    exact Nat.mod_lt _ (by decide)
  have hstored : m.ram.toArray.setIfInBounds (address.toNat % 0x200) (v &&& 0x0f) =
      (m.ram.set (cell address) (v &&& 0x0f)).toArray := by
    rw [Array.setIfInBounds, dif_pos hcell]
    rfl
  unfold writeChecked write
  split
  · split
    · rfl
    · dsimp only
      rw [romBankChecked_ok hselected, ok_bind, pure_eq_ok]
  split
  · rw [store_ok hcell, ok_bind, hstored]
    exact refill_ok m _
  · rfl

theorem loadRamChecked_ok (m : Mbc2) (dump : Bytes) :
    m.loadRamChecked dump = .ok (m.loadRam dump) := by
  have hkept : (dump.fit m.ram.toArray.size).map (· &&& 0x0f) = (m.loadRam dump).ram.toArray := by
    apply Array.ext
    · simp
    · intro i _ hi
      simp [loadRam, Bytes.fit]
  rw [loadRamChecked, restore_ok, ok_bind, hkept]
  exact refill_ok m _

theorem Sound.apply (h : m.Sound counts) (e : Controller.Event) : (m.apply e).Sound counts :=
  ⟨(rom_apply m e).symm ▸ h.rom⟩

end Mbc2

namespace Mbc3
variable {m : Mbc3}

/-- The banks were counted in the buffers that are there, and a clock is within its registers. -/
structure Sound (counts : BankCounts) (m : Mbc3) : Prop where
  rom : counts.rom = Bank.romCount m.rom
  ram : m.ram.size = counts.ram * 0x2000
  clock : ∀ c ∈ m.clock, c.Fits

theorem romBankChecked_ok (h : m.Sound counts) : m.romBankChecked counts = .ok m.romBank :=
  remainder_romCount h.rom _

/-- Where there is RAM, banks of it were counted. -/
theorem Sound.pos (h : m.Sound counts) (hram : ¬(m.ram.isEmpty || 0x03 < m.selector) = true) :
    0 < counts.ram := by
  rw [Bank.isEmpty_eq h.ram, Bool.or_eq_true, decide_eq_true_iff, not_or] at hram
  exact Nat.pos_of_ne_zero hram.1

theorem ramOffsetChecked?_ok (h : m.Sound counts) (hw : 0xa000 ≤ address) :
    m.ramOffsetChecked? counts address = .ok (m.ramOffset? address) := by
  have hbase : 0xa000 ≤ address.toNat := UInt16.le_iff_toNat_le.1 hw
  unfold ramOffsetChecked? ramOffset?
  split
  · rfl
  · rename_i hram
    rw [remainder_ok _ (h.pos hram), ok_bind, difference_ok hbase, ok_bind, pure_eq_ok,
      Bank.ramOffset, Bank.ramCount_eq h.ram]

theorem Sound.ramOffset?_lt (h : m.Sound counts) (hw : address < 0xc000) {offset : Nat}
    (ho : m.ramOffset? address = some offset) : offset < m.ram.size := by
  unfold ramOffset? at ho
  split at ho
  · cases ho
  · rename_i hram
    cases ho
    rw [Bank.ramCount_eq h.ram]
    exact Bank.ramOffset_lt h.ram (Nat.mod_lt _ (h.pos hram)) hw

theorem readWindowChecked_ok (h : m.Sound counts) (hw : 0xa000 ≤ address ∧ address < 0xc000) :
    m.readWindowChecked counts address = .ok (m.readWindow address) := by
  unfold readWindowChecked readWindow
  cases ClockRegister.ofSelector? m.selector with
  | some register => rfl
  | none =>
    dsimp only
    rw [ramOffsetChecked?_ok h hw.1, ok_bind]
    cases ho : m.ramOffset? address with
    | none => rfl
    | some offset => exact byteAt_ok (h.ramOffset?_lt hw.2 ho)

theorem writeWindowChecked_ok (h : m.Sound counts) (hw : 0xa000 ≤ address ∧ address < 0xc000)
    (v : UInt8) : m.writeWindowChecked counts address v = .ok (m.writeWindow address v) := by
  unfold writeWindowChecked writeWindow
  cases ClockRegister.ofSelector? m.selector with
  | some register => rfl
  | none =>
    dsimp only
    rw [ramOffsetChecked?_ok h hw.1, ok_bind]
    cases ho : m.ramOffset? address with
    | none => rfl
    | some offset =>
      dsimp only
      rw [store_ok (h.ramOffset?_lt hw.2 ho), ok_bind, pure_eq_ok]

theorem readChecked_ok (h : m.Sound counts) (address : UInt16) :
    m.readChecked counts address = .ok (m.read address) := by
  have hpos : 0 < Bank.romCount m.rom := Bank.romCount_pos m.rom
  unfold readChecked read
  split
  · exact romByte_ok hpos address
  split
  · rw [romBankChecked_ok h, ok_bind]
    exact romByte_ok (Nat.mod_lt _ hpos) address
  split
  · rename_i hw
    exact readWindowChecked_ok h ⟨hw.1, hw.2.1⟩
  · rfl

/-- RAM of which no bank was counted divides by zero. -/
example :
    let m : Mbc3 := { new #[] 0 false false with ram := #[7], unlocked := true }
    m.readChecked ⟨1, 0⟩ 0xa000 = .error .zeroDivisor := rfl

theorem writeChecked_ok (h : m.Sound counts) (address : UInt16) (v : UInt8) :
    m.writeChecked counts address v = .ok (m.write address v) := by
  have hselected : ({ m with selected := Bank.nonzero (v &&& 0x7f) } : Mbc3).Sound counts :=
    ⟨h.rom, h.ram, h.clock⟩
  unfold writeChecked write
  split
  · rfl
  split
  · dsimp only
    rw [romBankChecked_ok hselected, ok_bind, pure_eq_ok]
  split
  · rfl
  split
  · rfl
  split
  · rename_i hw
    exact writeWindowChecked_ok h ⟨hw.1, hw.2.1⟩ v
  · rfl

theorem loadRamChecked_ok (m : Mbc3) (dump : Bytes) :
    m.loadRamChecked dump = .ok (m.loadRam dump) := by
  rw [loadRamChecked, restore_ok, ok_bind, pure_eq_ok, loadRam]

theorem tickChecked_ok (h : m.Sound counts) {bits cycles : Nat}
    (hsum : ∀ c ∈ m.clock, c.live.halted = false → c.cycles + cycles < 2 ^ bits) :
    m.tickChecked bits cycles = .ok (m.tick cycles) := by
  unfold tickChecked tick
  cases hclock : m.clock with
  | none =>
    cases m
    cases hclock
    rfl
  | some c =>
    dsimp only
    rw [RealTimeClock.tickChecked_ok (h.clock c hclock).live (hsum c hclock), ok_bind, pure_eq_ok,
      Option.map_some]

theorem fits_map {clock : Option RealTimeClock} {f : RealTimeClock → RealTimeClock}
    (h : ∀ c ∈ clock, c.Fits) (hf : ∀ c : RealTimeClock, c.Fits → (f c).Fits) :
    ∀ c ∈ clock.map f, c.Fits := by
  intro c hc
  obtain ⟨before, hbefore, rfl⟩ := Option.map_eq_some_iff.1 hc
  exact hf before (h before hbefore)

theorem fits_writeLatch (h : ∀ c ∈ m.clock, c.Fits) (v : UInt8) :
    ∀ c ∈ (m.writeLatch v).clock, c.Fits := by
  simp only [writeLatch]
  split
  · exact fits_map h fun c hc => ⟨hc.live, hc.cycles⟩
  · exact h

theorem fits_writeWindow (h : ∀ c ∈ m.clock, c.Fits) (address : UInt16) (v : UInt8) :
    ∀ c ∈ (m.writeWindow address v).clock, c.Fits := by
  unfold writeWindow
  split
  · rename_i register _
    exact fits_map h fun c hc => hc.write register v
  · split
    · exact h
    · exact h

theorem Sound.apply (h : m.Sound counts) (e : Controller.Event) : (m.apply e).Sound counts := by
  refine ⟨(rom_apply m e).symm ▸ h.rom, (size_ram_apply m e).trans h.ram, ?_⟩
  cases e with
  | tick cycles => exact fits_map h.clock fun c hc => hc.tick cycles
  | load dump => exact h.clock
  | write address v =>
    rw [Mbc3.apply, write]
    split
    · exact h.clock
    split
    · exact h.clock
    split
    · exact h.clock
    split
    · exact fits_writeLatch h.clock v
    split
    · exact fits_writeWindow h.clock address v
    · exact h.clock

end Mbc3

end Windows

namespace Controller
variable {counts : BankCounts} {c : Controller}

def Sound (counts : BankCounts) : Controller → Prop
  | .rom _ | .flat _ => True
  | .mbc1 m => m.Sound counts
  | .mbc2 m => m.Sound counts
  | .mbc3 m => m.Sound counts

/-- Whatever an event adds to the cycles of a running clock leaves a sum of so many bits. -/
def InTime (bits : Nat) (c : Controller) : Event → Prop
  | .tick n => ∀ clock ∈ c.clock?, clock.live.halted = false → clock.cycles + n < 2 ^ bits
  | .write _ _ | .load _ => True

theorem Sound.apply (h : c.Sound counts) (e : Event) : (c.apply e).Sound counts := by
  cases c with
  | rom image => cases e <;> trivial
  | flat cells => cases e <;> trivial
  | mbc1 m =>
    rw [apply_mbc1]
    exact Mbc1.Sound.apply h e
  | mbc2 m =>
    rw [apply_mbc2]
    exact Mbc2.Sound.apply h e
  | mbc3 m =>
    rw [apply_mbc3]
    exact Mbc3.Sound.apply h e

theorem size_ram_apply (c : Controller) (e : Event) : (c.apply e).ram.size = c.ram.size := by
  cases c with
  | rom image => cases e <;> rfl
  | flat cells => cases e <;> rfl
  | mbc1 m =>
    rw [apply_mbc1]
    exact Mbc1.size_ram_apply m e
  | mbc2 m =>
    rw [apply_mbc2]
    exact (Vector.size_toArray _).trans (Vector.size_toArray _).symm
  | mbc3 m =>
    rw [apply_mbc3]
    exact Mbc3.size_ram_apply m e

theorem applyChecked_ok (h : c.Sound counts) {bits : Nat} {e : Event} (ht : c.InTime bits e) :
    c.applyChecked counts bits e = .ok (c.apply e) := by
  cases c with
  | rom image => cases e <;> rfl
  | flat cells => cases e <;> rfl
  | mbc1 m =>
    cases e with
    | write address v =>
      rw [applyChecked, writeChecked, Mbc1.writeChecked_ok h]
      rfl
    | tick n => rfl
    | load dump =>
      rw [applyChecked, loadRamChecked, Mbc1.loadRamChecked_ok]
      rfl
  | mbc2 m =>
    cases e with
    | write address v =>
      rw [applyChecked, writeChecked, Mbc2.writeChecked_ok h]
      rfl
    | tick n => rfl
    | load dump =>
      rw [applyChecked, loadRamChecked, Mbc2.loadRamChecked_ok]
      rfl
  | mbc3 m =>
    cases e with
    | write address v =>
      rw [applyChecked, writeChecked, Mbc3.writeChecked_ok h]
      rfl
    | tick n =>
      rw [applyChecked, tickChecked, Mbc3.tickChecked_ok h ht]
      rfl
    | load dump =>
      rw [applyChecked, loadRamChecked, Mbc3.loadRamChecked_ok]
      rfl

theorem readChecked_ok (h : c.Sound counts) (address : UInt16) :
    c.readChecked counts address = .ok (c.read address) := by
  cases c with
  | rom image =>
    unfold readChecked read
    dsimp only
    split
    · rename_i hlt
      exact imageByte_ok (UInt16.lt_iff_toNat_lt.1 hlt) image
    · rfl
  | mbc1 m => exact Mbc1.readChecked_ok h address
  | mbc2 m => exact Mbc2.readChecked_ok h address
  | mbc3 m => exact Mbc3.readChecked_ok h address
  | flat cells => rfl

/-- The number of a ROM bank fits a word. -/
theorem romBankChecked_ok (h : c.Sound counts) : c.romBankChecked counts = .ok c.romBank := by
  cases c with
  | rom image => rfl
  | flat cells => rfl
  | mbc1 m =>
    have hle : m.romBank ≤ m.secondary.toNat * 32 + m.primary.toNat := Nat.mod_le _ _
    have hsecondary := m.secondary.toNat_lt
    have hprimary := m.primary.toNat_lt
    rw [romBankChecked, Mbc1.romBankChecked_ok h, ok_bind]
    exact within_ok (by omega)
  | mbc2 m =>
    have hle : m.romBank ≤ m.selected.toNat := Nat.mod_le _ _
    have hselected := m.selected.toNat_lt
    rw [romBankChecked, Mbc2.romBankChecked_ok h, ok_bind]
    exact within_ok (by omega)
  | mbc3 m =>
    have hle : m.romBank ≤ m.selected.toNat := Nat.mod_le _ _
    have hselected := m.selected.toNat_lt
    rw [romBankChecked, Mbc3.romBankChecked_ok h, ok_bind]
    exact within_ok (by omega)

/-- The number of a RAM bank fits a byte. -/
theorem ramBankChecked_ok (h : c.Sound counts) : c.ramBankChecked counts = .ok c.ramBank := by
  cases c with
  | rom image => rfl
  | flat cells => rfl
  | mbc1 m =>
    have hle : m.ramBank ≤ m.secondary.toNat := by
      unfold Mbc1.ramBank
      split
      · exact Nat.mod_le _ _
      · exact Nat.zero_le _
    rw [ramBankChecked, Mbc1.ramBankChecked_ok h, ok_bind]
    exact within_ok (Nat.lt_of_le_of_lt hle m.secondary.toNat_lt)
  | mbc2 m => rfl
  | mbc3 m => exact within_ok m.selector.toNat_lt

def Operation.InTime (bits : Nat) (c : Controller) : Operation → Prop
  | .happen e => c.InTime bits e
  | .read _ | .dump | .romBank | .ramBank => True

theorem operateChecked_ok (h : c.Sound counts) {bits : Nat} {operation : Operation}
    (ht : operation.InTime bits c) :
    c.operateChecked counts bits operation = .ok (c.operate operation) := by
  cases operation with
  | happen e =>
    rw [operateChecked, applyChecked_ok h ht]
    rfl
  | read address =>
    rw [operateChecked, readChecked_ok h]
    rfl
  | dump => rfl
  | romBank =>
    rw [operateChecked, romBankChecked_ok h]
    rfl
  | ramBank =>
    rw [operateChecked, ramBankChecked_ok h]
    rfl

theorem Sound.operate (h : c.Sound counts) (operation : Operation) :
    (c.operate operation).2.Sound counts := by
  cases operation with
  | happen e => exact h.apply e
  | _ => exact h

theorem size_ram_operate (c : Controller) (operation : Operation) :
    (c.operate operation).2.ram.size = c.ram.size := by
  cases operation with
  | happen e => exact size_ram_apply c e
  | _ => rfl

def WorkInTime (bits : Nat) : List Operation → Controller → Prop
  | [], _ => True
  | operation :: rest, c =>
    operation.InTime bits c ∧ WorkInTime bits rest (c.operate operation).2

/-- A sound cartridge works without a trap, by induction on what is asked of it: each operation
leaves it sound for the rest. -/
theorem Sound.workChecked_ok {bits : Nat} {operations : List Operation} (h : c.Sound counts)
    (ht : WorkInTime bits operations c) :
    workChecked counts bits operations c = .ok (work operations c) := by
  induction operations generalizing c with
  | nil => rfl
  | cons operation rest ih =>
    rw [workChecked, operateChecked_ok h ht.1, ok_bind]
    dsimp only
    rw [ih (h.operate operation) ht.2, ok_bind]
    rfl

theorem size_ram_work (operations : List Operation) (c : Controller) :
    (work operations c).2.ram.size = c.ram.size := by
  induction operations generalizing c with
  | nil => rfl
  | cons operation rest ih => exact (ih _).trans (size_ram_operate c operation)

/-- Ticks that leave room for the rest of a second are in time, whatever comes before them. -/
theorem Sound.workInTime {bits : Nat} {operations : List Operation} (h : c.Sound counts)
    (hticks : ∀ n, .happen (.tick n) ∈ operations → n + cyclesPerSecond ≤ 2 ^ bits) :
    WorkInTime bits operations c := by
  induction operations generalizing c with
  | nil => trivial
  | cons operation rest ih =>
    refine ⟨?_, ih (h.operate operation) fun n hn => hticks n (List.mem_cons_of_mem _ hn)⟩
    cases operation with
    | happen e =>
      cases e with
      | tick n =>
        intro clock hclock _
        have hroom := hticks n List.mem_cons_self
        have hfits : clock.cycles < cyclesPerSecond := by
          cases c with
          | mbc3 m => exact (Mbc3.Sound.clock h clock hclock).cycles
          | _ => cases hclock
        omega
      | _ => trivial
    | _ => trivial

def made (rom : Bytes) (banks : Nat) (battery : Bool) : Option Banking → Controller
  | none => .rom rom
  | some kind => kind.build rom banks battery

theorem sound_made (rom : Bytes) (banks : Nat) (battery : Bool) (kind : Option Banking) :
    (made rom banks battery kind).Sound ⟨Bank.romCount rom, banks⟩ := by
  cases kind with
  | none => trivial
  | some kind =>
    cases kind with
    | mbc1 => exact ⟨rfl, Bytes.size_zeros _⟩
    | mbc2 => exact ⟨rfl⟩
    | mbc3 clock =>
      refine ⟨rfl, Bytes.size_zeros _, ?_⟩
      intro c hc
      cases clock with
      | false => cases hc
      | true =>
        cases hc
        exact RealTimeClock.fits_zero

/-- Nothing traps in a cartridge, whatever image and banks it was made with and whatever is asked
of it, as long as sums of cycles fit their field: no index lies outside its buffer, no remainder is
by zero and no field overflows. Its RAM keeps the size that it was made with. -/
theorem cartridges_never_trap (rom : Bytes) (banks : Nat) (battery : Bool) (kind : Option Banking)
    (bits : Nat) (operations : List Operation)
    (h : WorkInTime bits operations (made rom banks battery kind)) :
    let c := made rom banks battery kind
    workChecked ⟨Bank.romCount rom, banks⟩ bits operations c = .ok (work operations c) ∧
      (work operations c).2.ram.size = kind.elim 0 (·.ramSize banks) := by
  intro c
  refine ⟨(sound_made rom banks battery kind).workChecked_ok h, ?_⟩
  rw [size_ram_work]
  cases kind with
  | none => rfl
  | some kind =>
    have hram : c.ram = .zeros (kind.ramSize banks) := Banking.ram_build kind rom banks battery
    rw [hram]
    exact Bytes.size_zeros _

/-- A cartridge without an image, with one bank of RAM and a clock: its bank 2 is read and dumped
after an oversized restore, and its clock is set out of range and kept running for years. -/
theorem cartridges_never_trap_years :
    let operations : List Operation :=
      [.happen (.load (.zeros 0x3000)), .happen (.write 0x0000 0x0a), .happen (.write 0x4000 0x02),
        .happen (.write 0xbfff 0x42), .read 0xbfff, .dump, .romBank, .ramBank,
        .happen (.write 0x4000 0x08), .happen (.write 0xa000 0xff), .happen (.tick (2 ^ 63)),
        .read 0x7fff]
    let c := made #[] 1 true (some (.mbc3 true))
    WorkInTime 64 operations c ∧
      workChecked ⟨1, 1⟩ 64 operations c = .ok (work operations c) ∧
      (work operations c).2.ram.size = 0x2000 := by
  intro operations c
  have hticks : ∀ n, .happen (.tick n) ∈ operations → n + cyclesPerSecond ≤ 2 ^ 64 := by
    intro n hn
    have hn : n = 2 ^ 63 := by simpa [operations] using hn
    rw [hn]
    decide
  have htime : WorkInTime 64 operations c :=
    (sound_made #[] 1 true (some (.mbc3 true))).workInTime hticks
  exact ⟨htime, cartridges_never_trap #[] 1 true (some (.mbc3 true)) 64 operations htime⟩

end Controller
end DotMatrix
