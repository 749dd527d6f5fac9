import DotMatrix.Proofs.Board.Clock
import DotMatrix.Proofs.Cartridge.Registers

/-! # The latched clock

A program does not see the clock of a cartridge run: it sees the clock as it stood at the last
latch, which is a 1 written to the latch register when the write before it was a 0. What an event
does to the clock follows from the history before it, and only the event of a latch moves what is
seen. Writing to a part of the clock leaves RAM and the ROM windows alone, writing to RAM the clock.
-/
namespace DotMatrix

open Controller (Event last)

namespace ClockRegister

def number : ClockRegister → Nat
  | .seconds => 0x8
  | .minutes => 0x9
  | .hours => 0xa
  | .dayLow => 0xb
  | .dayHigh => 0xc

def mask : ClockRegister → UInt8
  | .seconds | .minutes => 0x3f
  | .hours => 0x1f
  | .dayLow => 0xff
  | .dayHigh => 0xc1

theorem ofSelector?_of_number {v : UInt8} {r : ClockRegister} (h : v.toNat = r.number) :
    ofSelector? v = some r := by
  have hv : v = UInt8.ofNat r.number := by rw [← h, UInt8.ofNat_toNat]
  rw [hv]
  cases r <;> rfl

theorem ofSelector?_eq_none {v : UInt8} (h : v.toNat < 8) : ofSelector? v = none := by
  cases hr : ofSelector? v with
  | none => rfl
  | some r => exact absurd (Mbc3.bounds_of_ofSelector? hr).1 (Nat.not_le.2 h)

end ClockRegister

namespace ClockReading

/-- What is written to one part of a clock reads back there through its mask, and in no other
part. -/
theorem read_write (c : ClockReading) (r r' : ClockRegister) (v : UInt8) :
    (c.write r v).read r' = if r' = r then v &&& r.mask else c.read r' := by
  have hday : ∀ v : UInt8, (v &&& 0x01 &&& 0x01) ||| (if v &&& 0x40 != 0 then 0x40 else 0) |||
      (if v &&& 0x80 != 0 then 0x80 else 0) = v &&& 0xc1 := by
    apply Grid.forall_byte
    decide +kernel
  by_cases h : r' = r
  · subst h
    rw [if_pos rfl]
    cases r' <;> simp only [write, read, ClockRegister.mask, Word.low_join, Word.high_join]
    case dayHigh => exact hday v
    case dayLow => exact (UInt8.and_neg_one).symm
    all_goals rw [UInt8.and_assoc, UInt8.and_self]
  · rw [if_neg h]
    cases r with
    | dayLow =>
      -- The day is written with the one bit of its upper byte that there is.
      have hhigh : Word.high (Word.join (Word.high c.days &&& 0x01) v) &&& 0x01 =
          Word.high c.days &&& 0x01 := by
        rw [Word.high_join, UInt8.and_assoc, UInt8.and_self]
      cases r' with
      | dayLow => exact absurd rfl h
      | dayHigh => simp only [write, read, hhigh]; rfl
      | seconds | minutes | hours => rfl
    | dayHigh =>
      cases r' with
      | dayLow => exact Word.low_join _ _
      | dayHigh => exact absurd rfl h
      | seconds | minutes | hours => rfl
    | seconds | minutes | hours => cases r' <;> first | rfl | exact absurd rfl h

end ClockReading

namespace Controller

def clock? : Controller → Option RealTimeClock
  | .mbc3 m => m.clock
  | .rom _ | .mbc1 _ | .mbc2 _ | .flat _ => none

def live? (c : Controller) : Option ClockReading := c.clock?.map RealTimeClock.live

def latched? (c : Controller) : Option ClockReading := c.clock?.map RealTimeClock.latched

end Controller

namespace Banking

def latching (address : UInt16) : Bool := 0x6000 ≤ address && address < 0x8000

def window (address : UInt16) : Bool := 0xa000 ≤ address && address < 0xc000

section Latching
variable (past : List Event)

/-- The latch register was written last with a 0. -/
def armed : Bool := past.findSome? (Event.written? latching) == some 0

def latches : Event → Bool
  | .write address v => latching address && v == 1 && armed past
  | .tick _ | .load _ => false

/-- The history before the last latch, if there was one. -/
def latchedAt? : List Event → Option (List Event)
  | [] => none
  | e :: past => if latches past e then some past else latchedAt? past

/-- The part of the clock that a write to an address sets. -/
def setting? (address : UInt16) : Option ClockRegister :=
  if window address && (mbc3 true).unlocked past then
    ClockRegister.ofSelector? (UInt8.ofNat (selector past))
  else none

def act (e : Event) (clock : RealTimeClock) : RealTimeClock :=
  match e with
  | .tick cycles => clock.tick cycles
  | .load _ => clock
  | .write address v =>
    if latches past (.write address v) then clock.latch
    else (setting? past address).elim clock fun r => clock.write r v

end Latching

end Banking

namespace Mbc3
variable {m : Mbc3} {clock : Bool} {rom : Bytes} {banks : Nat} {past : List Event}

theorem latchArmed_apply (m : Mbc3) (e : Event) :
    (m.apply e).latchArmed =
      (e.written? Banking.latching).elim m.latchArmed (· == 0) := by
  cases e with
  | write address v =>
    grind [apply, write, writeLatch, writeWindow_eq, Event.written?, Banking.latching]
  | _ => rfl

theorem latchArmed_eq (clock : Bool) (rom : Bytes) (banks : Nat) (battery : Bool)
    (past : List Event) :
    (past.foldr (fun e m => apply m e) (.new rom banks battery clock)).latchArmed =
      Banking.armed past := by
  rw [Controller.eq_newest Mbc3.latchArmed latchArmed_apply past, Banking.armed]
  cases past.findSome? (Event.written? Banking.latching) <;> rfl

theorem Recalls.setting? (h : m.Recalls clock rom banks past) {address : UInt16}
    (hw : Banking.window address = true) :
    Banking.setting? past address =
      if m.unlocked then ClockRegister.ofSelector? m.selector else none := by
  unfold Banking.setting?
  rw [hw, Bool.true_and, ← h.selector, UInt8.ofNat_toNat, h.unlocked]
  rfl

theorem setting?_outside {address : UInt16} (hw : Banking.window address = false) :
    Banking.setting? past address = none := by
  simp [Banking.setting?, hw]

/-- A latch, a write to a part of the clock and passing time are all that a clock notices. -/
theorem clock_apply (h : m.Recalls clock rom banks past)
    (harmed : m.latchArmed = Banking.armed past) (e : Event) :
    (m.apply e).clock = m.clock.map (Banking.act past e) := by
  cases e with
  | tick cycles => rfl
  | load dump => exact (Option.map_id_apply ..).symm
  | write address v =>
    have hset : Banking.window address = true → Banking.setting? past address =
        if m.unlocked then ClockRegister.ofSelector? m.selector else none := h.setting?
    have hout : Banking.window address = false → Banking.setting? past address = none :=
      setting?_outside
    cases hc : m.clock with
    | none => grind [apply, write, writeLatch, writeWindow]
    | some c =>
      by_cases hl : Banking.latching address = true
      · have hw : Banking.window address = false := by grind [Banking.latching, Banking.window]
        grind [apply, write, writeLatch, Banking.act, Banking.latches, Banking.latching]
      · grind [apply, write, writeWindow, Banking.act, Banking.latches, Banking.latching,
          Banking.window]

theorem Recalls.read_clock (h : m.Recalls true rom banks past) {address : UInt16}
    {r : ClockRegister} (hu : (Banking.mbc3 true).unlocked past = true)
    (hr : Banking.selector past = r.number) (hw : Banking.window address = true) :
    some (m.read address) = m.clock.map fun c => c.latched.read r := by
  have hselected : ClockRegister.ofSelector? m.selector = some r :=
    ClockRegister.ofSelector?_of_number (h.selector.trans hr)
  have hunlocked : m.unlocked = true := h.unlocked.trans hu
  obtain ⟨c, hc⟩ := Option.isSome_iff_exists.1 h.isSome_clock
  have hread : m.read address = m.readWindow address := by
    grind [read, Banking.window]
  rw [hread, Mbc3.readWindow, hselected, hc]
  rfl

theorem Recalls.ram_write_of_number (h : m.Recalls clock rom banks past) {r : ClockRegister}
    (hr : Banking.selector past = r.number) (address : UInt16) (v : UInt8) :
    (m.write address v).ram = m.ram := by
  have hselected : ClockRegister.ofSelector? m.selector = some r :=
    ClockRegister.ofSelector?_of_number (h.selector.trans hr)
  have hwindow : (m.writeWindow address v).ram = m.ram := by
    rw [ram_writeWindow, ramOffset?_of_ofSelector? hselected]
    rfl
  grind [write, writeLatch]

/-- The ROM windows follow the register that selects a bank and nothing else. -/
theorem read_write_of_not_selecting (m : Mbc3) {address : UInt16} (v : UInt8)
    (hs : (Banking.mbc3 clock).selecting address = false) {a : UInt16} (ha : a < 0x8000) :
    (m.write address v).read a = m.read a := by
  have hrom : (m.write address v).rom = m.rom := m.rom_apply (.write address v)
  have hselected : (m.write address v).selected = m.selected := by
    have := m.selected_apply (.write address v) clock
    simpa [apply, Controller.Event.written?, hs] using this
  unfold read romBank
  rw [hrom, hselected]
  grind

theorem Recalls.read_write_of_no_clock (h : m.Recalls false rom banks past) {address : UInt16}
    {r : ClockRegister} (hr : Banking.selector past = r.number)
    (hw : Banking.window address = true) :
    m.read address = 0xff ∧ ∀ v, m.write address v = m := by
  have hselected : ClockRegister.ofSelector? m.selector = some r :=
    ClockRegister.ofSelector?_of_number (h.selector.trans hr)
  have hnone : m.clock = none := Option.not_isSome_iff_eq_none.1 (by simp [h.isSome_clock])
  have hwrite (v : UInt8) : m.writeWindow address v = m := by
    unfold writeWindow
    rw [hselected, hnone]
    dsimp only
    rw [Option.map_none, ← hnone]
  constructor
  · grind [read, Mbc3.readWindow, Banking.window]
  · intro v
    grind [write, Banking.window]

end Mbc3

namespace Banking
variable {clock : Bool} {rom : Bytes} {banks : Nat} {battery : Bool} {past : List Event}

section Histories
variable (clock rom banks battery past)

theorem exists_mbc3 :
    ∃ m : Mbc3, ((mbc3 clock).build rom banks battery).after past = .mbc3 m ∧
      m.Recalls clock rom banks past ∧ m.latchArmed = armed past := by
  refine ⟨_, Controller.after_eq Controller.apply_mbc3 (.new rom banks battery clock) past, ?_, ?_⟩
  · exact Mbc3.recalls clock rom banks battery past
  · exact Mbc3.latchArmed_eq clock rom banks battery past

theorem clock?_cons (e : Event) :
    (((mbc3 clock).build rom banks battery).after (e :: past)).clock? =
      (((mbc3 clock).build rom banks battery).after past).clock?.map (act past e) := by
  obtain ⟨m, hm, hrecalls, harmed⟩ := exists_mbc3 clock rom banks battery past
  change ((((mbc3 clock).build rom banks battery).after past).apply e).clock? = _
  rw [hm, Controller.apply_mbc3]
  exact Mbc3.clock_apply hrecalls harmed e

end Histories

theorem latched_act (e : Event) (t : RealTimeClock) :
    (act past e t).latched = if latches past e then t.live else t.latched := by
  cases e with
  | tick cycles =>
    rw [act, latches, if_neg Bool.false_ne_true]
    exact Controller.latched_tick t cycles
  | load dump => rfl
  | write address v =>
    unfold act
    dsimp only
    split
    · rfl
    · cases setting? past address <;> rfl

/-- What a program sees is what the clock showed at the last latch. -/
theorem latched?_after (past : List Event) :
    (((mbc3 true).build rom banks battery).after past).latched? =
      (latchedAt? past).elim (some .zero) fun older =>
        (((mbc3 true).build rom banks battery).after older).live? := by
  induction past with
  | nil => rfl
  | cons e past ih =>
    unfold Controller.latched? at ih ⊢
    rw [clock?_cons, Option.map_map, latchedAt?]
    split
    · rename_i hlatch
      simp only [Option.elim_some, Controller.live?]
      congr 1
      funext t
      exact (latched_act e t).trans (if_pos hlatch)
    · rename_i hlatch
      rw [← ih]
      congr 1
      funext t
      exact (latched_act e t).trans (if_neg hlatch)

def Aside (e : Event) : Prop := ∃ address v, e = .write address v ∧ window address = false

theorem live?_aside {newer : List Event} (h : ∀ e ∈ newer, Aside e) :
    (((mbc3 true).build rom banks battery).after (newer ++ past)).live? =
      (((mbc3 true).build rom banks battery).after past).live? := by
  induction newer with
  | nil => rfl
  | cons e newer ih =>
    obtain ⟨address, v, rfl, hw⟩ := h e List.mem_cons_self
    rw [← ih fun e he => h e (List.mem_cons_of_mem _ he)]
    unfold Controller.live?
    rw [List.cons_append, clock?_cons, Option.map_map]
    congr 1
    funext t
    simp only [Function.comp_apply, act, Mbc3.setting?_outside hw]
    split <;> rfl

/-- A write to a part of the clock sets it at once. -/
theorem live?_setting {address : UInt16} {v : UInt8} {r : ClockRegister}
    (hu : (mbc3 true).unlocked past = true) (hr : selector past = r.number)
    (hw : window address = true) :
    (((mbc3 true).build rom banks battery).after (.write address v :: past)).live? =
      (((mbc3 true).build rom banks battery).after past).live?.map (·.write r v) := by
  have hset : setting? past address = some r := by
    have hnumber : (UInt8.ofNat (selector past)).toNat = r.number := by
      rw [hr]
      cases r <;> rfl
    simp [setting?, hw, hu, ClockRegister.ofSelector?_of_number hnumber]
  have hlatch : latching address = false := by grind [latching, window]
  unfold Controller.live?
  rw [clock?_cons, Option.map_map, Option.map_map]
  congr 1
  funext t
  simp [act, latches, hlatch, hset, RealTimeClock.write]

/-- With a bank of RAM selected no write sets a part of the clock. -/
theorem setting?_of_lt (h : selector past < 8) (address : UInt16) :
    setting? past address = none := by
  have hnumber : (UInt8.ofNat (selector past)).toNat < 8 := by
    rw [UInt8.toNat_ofNat']
    omega
  simp [setting?, ClockRegister.ofSelector?_eq_none hnumber]

theorem exists_clock (rom : Bytes) (banks : Nat) (battery : Bool) (past : List Event) :
    ∃ t, (((mbc3 true).build rom banks battery).after past).clock? = some t := by
  obtain ⟨m, hm, hrecalls, -⟩ := exists_mbc3 true rom banks battery past
  rw [hm]
  exact Option.isSome_iff_exists.1 hrecalls.isSome_clock

section Windows
variable (rom : Bytes) (banks : Nat) (battery : Bool) {r : ClockRegister} {address : UInt16}

/-- A part of the clock shows what the whole clock showed at the last latch. -/
theorem read_of_number (hu : (mbc3 true).unlocked past = true) (hr : selector past = r.number)
    (hw : window address = true) :
    some ((((mbc3 true).build rom banks battery).after past).read address) =
      ((latchedAt? past).elim (some .zero) fun older =>
        (((mbc3 true).build rom banks battery).after older).live?).map (·.read r) := by
  obtain ⟨m, hm, hrecalls, -⟩ := exists_mbc3 true rom banks battery past
  rw [← latched?_after, Controller.latched?, Option.map_map, hm]
  exact hrecalls.read_clock hu hr hw

theorem latched?_cons {e : Event} (h : latches past e = false) :
    (((mbc3 true).build rom banks battery).after (e :: past)).latched? =
      (((mbc3 true).build rom banks battery).after past).latched? := by
  rw [latched?_after, latched?_after, latchedAt?, h]
  rfl

/-- What was written to a part of the clock is seen there, and only there, after a latch. -/
theorem read_of_setting {v : UInt8} (hu : (mbc3 true).unlocked past = true)
    (hr : selector past = r.number) (hw : window address = true) {between now : List Event}
    (hbetween : ∀ e ∈ between, Aside e)
    (hnow : latchedAt? now = some (between ++ .write address v :: past)) {r' : ClockRegister}
    {address' : UInt16} (hu' : (mbc3 true).unlocked now = true) (hr' : selector now = r'.number)
    (hw' : window address' = true) :
    some ((((mbc3 true).build rom banks battery).after now).read address') =
      if r' = r then some (v &&& r.mask)
      else (((mbc3 true).build rom banks battery).after past).live?.map (·.read r') := by
  obtain ⟨t, ht⟩ := exists_clock rom banks battery past
  have hlive : (((mbc3 true).build rom banks battery).after past).live? = some t.live :=
    congrArg (Option.map RealTimeClock.live) ht
  rw [read_of_number rom banks battery hu' hr' hw', hnow, Option.elim_some, live?_aside hbetween,
    live?_setting hu hr hw, hlive, Option.map_some, Option.map_some, Option.map_some,
    ClockReading.read_write]
  exact apply_ite some ..

/-- A write with a part of the clock selected leaves RAM, the ROM windows and what is seen of the
clock alone. -/
theorem write_of_number (hr : selector past = r.number) (address : UInt16) (v : UInt8) :
    let c := ((mbc3 true).build rom banks battery).after past
    (c.write address v).ram = c.ram ∧
      ((mbc3 true).selecting address = false → ∀ a < 0x8000,
        (c.write address v).read a = c.read a) ∧
      (latching address = false → (c.write address v).latched? = c.latched?) := by
  intro c
  have hlatched (h : latching address = false) : (c.write address v).latched? = c.latched? :=
    latched?_cons rom banks battery (e := .write address v) (by simp [latches, h])
  obtain ⟨m, hm, hrecalls, -⟩ := exists_mbc3 true rom banks battery past
  have hcm : c = .mbc3 m := hm
  refine ⟨?_, ?_, hlatched⟩
  · rw [hcm]
    exact hrecalls.ram_write_of_number hr address v
  · intro hs a ha
    rw [hcm]
    exact m.read_write_of_not_selecting v hs ha

/-- A write with a bank of RAM selected leaves the clock alone. -/
theorem write_of_bank (hs : selector past < 8) (address : UInt16) (v : UInt8) :
    let c := ((mbc3 true).build rom banks battery).after past
    (c.write address v).live? = c.live? ∧
      (latching address = false → (c.write address v).clock? = c.clock?) := by
  intro c
  have hact (t : RealTimeClock) : act past (.write address v) t =
      if latches past (.write address v) then t.latch else t := by
    simp only [act, setting?_of_lt hs, Option.elim_none]
  have hclock : (c.write address v).clock? = c.clock?.map (act past (.write address v)) :=
    clock?_cons true rom banks battery past (.write address v)
  obtain ⟨t, ht⟩ := exists_clock rom banks battery past
  have hct : c.clock? = some t := ht
  rw [Controller.live?, Controller.live?, hclock, hct, Option.map_some, hact]
  constructor
  · split <;> rfl
  · intro hl
    simp [latches, hl]

/-- Without a clock its parts show the open bus and take nothing. -/
theorem read_write_of_no_clock (hr : selector past = r.number) (hw : window address = true) :
    let c := ((mbc3 false).build rom banks battery).after past
    c.read address = 0xff ∧ ∀ v, c.write address v = c := by
  intro c
  obtain ⟨m, hm, hrecalls, -⟩ := exists_mbc3 false rom banks battery past
  have hcm : c = .mbc3 m := hm
  obtain ⟨hread, hwrite⟩ := hrecalls.read_write_of_no_clock hr hw
  rw [hcm]
  exact ⟨hread, fun v => congrArg Controller.mbc3 (hwrite v)⟩

end Windows

/-- While the RAM window shows a part of the clock, it shows that part as it stood at the last
latch, and as zero before the first one; no event but a latch changes what is seen. What is written
to a part is seen there after the next latch, through the mask of the part, and every other part as
it stood before the write. Writing with a part of the clock selected changes neither RAM nor, but at
the registers for them, the ROM windows and the latched copy; writing with a bank of RAM selected
leaves the clock as it is. Where there is no clock, its parts show the open bus and take nothing. -/
theorem shows_last_latch (rom : Bytes) (banks : Nat) (battery : Bool) :
    let c := fun past => ((mbc3 true).build rom banks battery).after past
    let bare := fun past => ((mbc3 false).build rom banks battery).after past
    (∀ past r address, (mbc3 true).unlocked past = true → selector past = r.number →
      window address = true →
      some ((c past).read address) =
        ((latchedAt? past).elim (some .zero) fun older => (c older).live?).map (·.read r)) ∧
    (∀ past e, latches past e = false → (c (e :: past)).latched? = (c past).latched?) ∧
    (∀ past r address v, (mbc3 true).unlocked past = true → selector past = r.number →
      window address = true → ∀ between, (∀ e ∈ between, Aside e) →
      ∀ now, latchedAt? now = some (between ++ .write address v :: past) →
      ∀ r' address', (mbc3 true).unlocked now = true → selector now = r'.number →
      window address' = true →
      some ((c now).read address') =
        if r' = r then some (v &&& r.mask) else (c past).live?.map (·.read r')) ∧
    (∀ past (r : ClockRegister), selector past = r.number → ∀ address v,
      ((c past).write address v).ram = (c past).ram ∧
      ((mbc3 true).selecting address = false → ∀ a < 0x8000,
        ((c past).write address v).read a = (c past).read a) ∧
      (latching address = false → ((c past).write address v).latched? = (c past).latched?)) ∧
    (∀ past, selector past < 8 → ∀ address v,
      ((c past).write address v).live? = (c past).live? ∧
      (latching address = false → ((c past).write address v).clock? = (c past).clock?)) ∧
    ∀ past (r : ClockRegister), selector past = r.number → ∀ address, window address = true →
      (bare past).read address = 0xff ∧ ∀ v, (bare past).write address v = bare past := by
  intro c bare
  refine ⟨?_, ?_, ?_, ?_, ?_, ?_⟩
  · intro past r address hu hr hw
    exact read_of_number rom banks battery hu hr hw
  · intro past e he
    exact latched?_cons rom banks battery he
  · intro past r address v hu hr hw between hbetween now hnow r' address' hu' hr' hw'
    exact read_of_setting rom banks battery hu hr hw hbetween hnow hu' hr' hw'
  · intro past r hr address v
    exact write_of_number rom banks battery hr address v
  · intro past hs address v
    exact write_of_bank rom banks battery hs address v
  · intro past r hr address hw
    exact read_write_of_no_clock rom banks battery hr hw

/-- All bits written to the upper part of the day: it shows zero until the latch and then the three
bits that it has, while the lower part of the day stays as it was. -/
theorem shows_last_latch_day_high :
    let c := fun past => ((mbc3 true).build #[] 1 true).after past
    let bare := fun past => ((mbc3 false).build #[] 1 true).after past
    let unlocked : List Event := [.write 0x0000 0x0a]
    let set := .write 0x4000 0x0c :: unlocked
    let written := .write 0xa000 0xff :: set
    let now := .write 0x6000 0x01 :: .write 0x6000 0x00 :: written
    (c written).read 0xa000 = 0x00 ∧ (c now).read 0xbfff = 0xc1 ∧
      (c (.write 0x4000 0x0b :: now)).read 0xa000 = 0x00 ∧
      ((c set).write 0xa000 0xff).ram = (c set).ram ∧
      ((c unlocked).write 0xa000 0xff).clock? = (c unlocked).clock? ∧
      (bare set).read 0xa000 = 0xff := by
  intro c bare unlocked set written now
  obtain ⟨reads, -, latched, isolated, ram, none⟩ := shows_last_latch #[] 1 true
  have hseen := latched set .dayHigh 0xa000 0xff (by decide) (by decide) (by decide)
    [.write 0x6000 0x00] (by simpa using ⟨0x6000, 0x00, rfl, by decide⟩)
  refine ⟨?_, ?_, ?_, (isolated set .dayHigh (by decide) 0xa000 0xff).1,
    (ram unlocked (by decide) 0xa000 0xff).2 (by decide), (none set .dayHigh (by decide) 0xa000
    (by decide)).1⟩
  · exact Option.some.inj (reads written .dayHigh 0xa000 (by decide) (by decide) (by decide))
  · exact Option.some.inj
      (hseen now rfl .dayHigh 0xbfff (by decide) (by decide) (by decide))
  · exact Option.some.inj
      (hseen (.write 0x4000 0x0b :: now) rfl .dayLow 0xa000 (by decide) (by decide) (by decide))

end Banking
end DotMatrix
