import DotMatrix.Device.Battery
import DotMatrix.Proofs.Board.Clock
import DotMatrix.Proofs.Cartridge.Restore
import DotMatrix.Proofs.Device.Invariant
import DotMatrix.Proofs.Storage.Latest

/-! # A battery keeps cartridge RAM

However a device is run, what becomes of its cartridge is a history of writes, time and restored
dumps. So RAM that one device has saved is, once restored, the RAM of any other with the same
cartridge.
-/
namespace DotMatrix

namespace Controller

def Leads (c c' : Controller) : Prop := ∃ past, c' = c.after past

namespace Leads

theorem refl (c : Controller) : Leads c c := ⟨[], rfl⟩

theorem apply {c c' : Controller} (h : Leads c c') (e : Event) : Leads c (c'.apply e) := by
  obtain ⟨past, rfl⟩ := h
  exact ⟨e :: past, rfl⟩

end Leads

end Controller

namespace Board
variable {c : Controller} {b : Board}

theorem leads_poke (h : c.Leads b.controller) (address : UInt16) (v : UInt8) :
    c.Leads (b.poke address v).controller := by
  unfold poke
  split
  · exact h.apply (.write address v)
  · exact h.apply (.write address v)
  all_goals exact h

theorem leads_applyReaction (h : c.Leads b.controller) (r : Reaction) :
    c.Leads (b.applyReaction r).controller := by
  have poked (l : List (UInt16 × UInt8)) {b : Board} (h : c.Leads b.controller) :
      c.Leads (l.foldl (fun b cell => b.poke cell.1 cell.2) b).controller := by
    induction l generalizing b with
    | nil => exact h
    | cons cell l ih => exact ih (leads_poke h cell.1 cell.2)
  unfold applyReaction
  dsimp only
  split
  · exact poked r.pokes h
  · exact poked r.pokes h

/-- A hook may write to the cartridge too. -/
theorem leads_write (h : c.Leads b.controller) (address : UInt16) (v : UInt8) :
    c.Leads (b.write address v).controller := by
  have hn : c.Leads (b.noted address v).controller := h
  have ht : c.Leads ((b.noted address v).trigger address v).controller := by
    unfold trigger
    repeat' split
    all_goals first
      | exact hn
      | exact leads_applyReaction hn _
  unfold write
  dsimp only
  split
  · exact leads_poke ht _ _
  · exact ht

theorem leads_apply (h : c.Leads b.controller) (e : Event) : c.Leads (b.apply e).controller := by
  cases e with
  | write address v => exact leads_write h address v
  | tick n =>
    have ht := h.apply (.tick n)
    rw [← controller_transferCycles n b] at ht
    exact ht
  | timer | request | button => exact h

theorem invariant_leads (c : Controller) : Invariant fun b => c.Leads b.controller where
  bus := ⟨fun h _ => h, leads_write, fun h _ _ => h, fun h _ => h⟩
  poke h v := leads_poke h _ v
  event := leads_apply
  hit h := h

end Board

section Header
variable {header : Header} {image : Bytes} {c : Controller}

/-- Only the cartridges with a bank controller can have a battery. -/
theorem Header.exists_build (hb : header.hasBattery = true)
    (hc : header.controller image = .ok c) :
    ∃ kind : Banking, c = kind.build image header.ramBanks true := by
  have htype : header.type = 0x03 ∨ header.type = 0x06 ∨ header.type = 0x0f ∨
      header.type = 0x10 ∨ header.type = 0x13 := by
    simpa [hasBattery] using hb
  unfold Header.controller at hc
  rw [hb] at hc
  rcases htype with ht | ht | ht | ht | ht
  all_goals rw [ht] at hc
  · exact ⟨.mbc1, (Except.ok.inj hc).symm⟩
  · exact ⟨.mbc2, (Except.ok.inj hc).symm⟩
  all_goals exact ⟨.mbc3 header.hasClock, (Except.ok.inj hc).symm⟩

/-- A battery is soldered in. -/
theorem Controller.hasBattery_apply (c : Controller) (e : Event) :
    (c.apply e).hasBattery = c.hasBattery := by
  cases c with
  | mbc1 m =>
    cases e with
    | write address v => grind [apply, write, Mbc1.write, hasBattery]
    | tick | load => rfl
  | mbc2 m =>
    cases e with
    | write address v =>
      simp only [apply, write, Mbc2.write, hasBattery]
      grind
    | tick => rfl
    | load dump => simp only [apply, loadRam, Mbc2.loadRam, hasBattery]
  | mbc3 m =>
    cases e with
    | write address v =>
      grind [apply, write, Mbc3.write, Mbc3.writeLatch, Mbc3.writeWindow_eq, hasBattery]
    | tick | load => rfl
  | rom | flat => cases e <;> rfl

theorem Controller.Leads.hasBattery {c' : Controller} (h : c.Leads c') :
    c'.hasBattery = c.hasBattery := by
  obtain ⟨past, rfl⟩ := h
  induction past with
  | nil => rfl
  | cons e past ih => exact (hasBattery_apply _ e).trans ih

end Header

namespace Device

section Construction
variable {ι ρ π : Type} [Screen ρ] {bootImage : Option Bytes} {image : Bytes} {keypad : ι}
  {screen : ρ} {l : Breakpoints} {d : Device Board ι ρ π}

theorem fitted_ok {parts : Header × Controller} (h : fitted bootImage image = .ok parts) :
    Header.parse image = .ok parts.1 ∧ parts.1.controller image = .ok parts.2 := by
  have plugged : (do
      let header ← Header.parse image
      let controller ← header.controller image
      return (header, controller) : Except Fault (Header × Controller)) = .ok parts := by
    cases bootImage with
    | none => exact h
    | some bytes =>
      unfold fitted at h
      by_cases hs : bytes.size = Board.bootImageSize
      · simp only [hs, ne_eq, not_true_eq_false, if_false] at h
        exact h
      · simp only [ne_eq, hs, not_false_eq_true, if_true] at h
        cases h
  cases hp : Header.parse image with
  | error fault =>
    rw [hp] at plugged
    cases plugged
  | ok header =>
    rw [hp] at plugged
    cases hc : header.controller image with
    | error fault =>
      simp only [bind, Except.bind, hc] at plugged
      cases plugged
    | ok controller =>
      simp only [bind, Except.bind, hc] at plugged
      cases plugged
      exact ⟨rfl, hc⟩

/-- What is in the slot of a device at power-on. -/
theorem controller_powerOn (h : powerOn id bootImage image keypad screen l = .ok d) :
    Header.parse image = .ok d.header ∧ d.header.controller image = .ok d.board.controller := by
  rw [powerOn_eq] at h
  cases hf : fitted bootImage image with
  | error fault =>
    rw [hf] at h
    cases h
  | ok parts =>
    rw [hf] at h
    cases h
    have hslot : (initialBoard bootImage parts.2 l).controller = parts.2 := by
      cases bootImage <;> rfl
    obtain ⟨hp, hc⟩ := fitted_ok hf
    exact ⟨hp, hc.trans (congrArg Except.ok hslot.symm)⟩

end Construction

section Storage
variable {β ι ρ π σ : Type} [Mainboard β] (d : Device β ι ρ π) (storage : Storage (StateM σ))
  (name : String) (t : σ)

theorem saveRam_of_unbacked (h : d.board.controller.hasBattery = false) :
    (d.saveRam storage name).run t = ((.ok false, d), t) := by
  unfold saveRam
  rw [h]
  rfl

theorem loadRam_of_unbacked (h : d.board.controller.hasBattery = false) :
    (d.loadRam storage name).run t = ((.ok false, d), t) := by
  unfold loadRam
  rw [h]
  rfl

variable {d storage name t} (hb : d.board.controller.hasBattery = true)
include hb

theorem saveRam_of_error {fault : Fault}
    (h : ((storage.save name d.board.controller.ram).run t).1 = .error fault) :
    (d.saveRam storage name).run t =
      ((.error fault, d), ((storage.save name d.board.controller.ram).run t).2) := by
  unfold saveRam
  rw [if_pos hb, StateT.run_bind]
  generalize (storage.save name d.board.controller.ram).run t = r at h ⊢
  obtain ⟨outcome, t'⟩ := r
  obtain rfl : outcome = .error fault := h
  rfl

theorem saveRam_of_ok (h : ((storage.save name d.board.controller.ram).run t).1 = .ok ()) :
    (d.saveRam storage name).run t =
      ((.ok true, d.note (.ramSaved name)),
        ((storage.save name d.board.controller.ram).run t).2) := by
  unfold saveRam
  rw [if_pos hb, StateT.run_bind]
  generalize (storage.save name d.board.controller.ram).run t = r at h ⊢
  obtain ⟨outcome, t'⟩ := r
  obtain rfl : outcome = .ok () := h
  rfl

theorem loadRam_of_error {fault : Fault} (h : ((storage.load name).run t).1 = .error fault) :
    (d.loadRam storage name).run t = ((.error fault, d), ((storage.load name).run t).2) := by
  unfold loadRam
  rw [if_pos hb, StateT.run_bind]
  generalize (storage.load name).run t = r at h ⊢
  obtain ⟨outcome, t'⟩ := r
  obtain rfl : outcome = .error fault := h
  rfl

theorem loadRam_of_absent (h : ((storage.load name).run t).1 = .ok none) :
    (d.loadRam storage name).run t = ((.ok false, d), ((storage.load name).run t).2) := by
  unfold loadRam
  rw [if_pos hb, StateT.run_bind]
  generalize (storage.load name).run t = r at h ⊢
  obtain ⟨outcome, t'⟩ := r
  obtain rfl : outcome = .ok none := h
  rfl

def restored (d : Device β ι ρ π) (dump : Bytes) : Device β ι ρ π :=
  d.modifyBoard fun b => { b with controller := b.controller.loadRam dump }

theorem loadRam_of_found {dump : Bytes} (h : ((storage.load name).run t).1 = .ok (some dump)) :
    (d.loadRam storage name).run t =
      ((.ok true, (d.restored dump).note (.ramRestored name)), ((storage.load name).run t).2) := by
  unfold loadRam
  rw [if_pos hb, StateT.run_bind]
  generalize (storage.load name).run t = r at h ⊢
  obtain ⟨outcome, t'⟩ := r
  obtain rfl : outcome = .ok (some dump) := h
  rfl

end Storage

section Transfer
variable {ι ρ π σ : Type} [Keypad ι] [Screen ρ] [Peripheral π Board]

/-- Peripherals that reach the cartridge through its own operations. -/
def Courteous (π : Type) [Peripheral π Board] : Prop :=
  ∀ c : Controller, Keeping π fun b => c.Leads b.controller

theorem leads_of_reached (hπ : Courteous π) {d e : Device Board ι ρ π} (h : Reached d e) :
    d.board.controller.Leads e.board.controller :=
  kept_reached (Board.invariant_leads _) (hπ _) (fun hb event => hb.apply event) (.refl _) h

section Pair
variable {bootImage bootImage' : Option Bytes} {image : Bytes} {keypad keypad' : ι}
  {screen screen' : ρ} {l l' : Breakpoints} {d₀ e₀ d e : Device Board ι ρ π}

omit [Keypad ι] [Peripheral π Board] in
theorem controller_powerOn_eq (hd₀ : powerOn id bootImage image keypad screen l = .ok d₀)
    (he₀ : powerOn id bootImage' image keypad' screen' l' = .ok e₀) :
    e₀.board.controller = d₀.board.controller := by
  obtain ⟨hpd, hcd⟩ := controller_powerOn hd₀
  obtain ⟨hpe, hce⟩ := controller_powerOn he₀
  have hheader : e₀.header = d₀.header := Except.ok.inj (hpe.symm.trans hpd)
  rw [hheader] at hce
  exact Except.ok.inj (hce.symm.trans hcd)

/-- Two devices with the same battery-backed cartridge hold dumps of the same kind. -/
theorem ram_restored (hπ : Courteous π)
    (hd₀ : powerOn id bootImage image keypad screen l = .ok d₀)
    (he₀ : powerOn id bootImage' image keypad' screen' l' = .ok e₀)
    (hb : d₀.header.hasBattery = true) (hd : Reached d₀ d) (he : Reached e₀ e) :
    d.board.controller.hasBattery = true ∧ e.board.controller.hasBattery = true ∧
      (e.restored d.board.controller.ram).board.controller.ram = d.board.controller.ram := by
  obtain ⟨-, hc⟩ := controller_powerOn hd₀
  obtain ⟨kind, hkind⟩ := Header.exists_build hb hc
  have hsame := controller_powerOn_eq hd₀ he₀
  have hld := leads_of_reached hπ hd
  have hle := leads_of_reached hπ he
  rw [hsame] at hle
  have hbattery : d₀.board.controller.hasBattery = true := by
    rw [hkind]
    cases kind <;> rfl
  refine ⟨hld.hasBattery.trans hbattery, hle.hasBattery.trans hbattery, ?_⟩
  obtain ⟨past, hpast⟩ := hld
  obtain ⟨other, hother⟩ := hle
  change (e.board.controller.loadRam d.board.controller.ram).ram = d.board.controller.ram
  rw [hpast, hother, hkind]
  exact Banking.loadRam_ram other past

end Pair

/-- RAM that is read out and put back leaves a cartridge as it was; what is put in from elsewhere is
cut or filled up to size, whatever was there before, and moves nothing else. Any two devices that
were switched on with the same battery-backed cartridge come to the same RAM when one saves and the
other restores, whatever has happened to them and whatever else is stored in between. Without a
battery nothing is stored or restored, an absent name restores nothing, and a storage that fails
leaves the device alone. -/
theorem battery_ram_persists (β : Type) [Mainboard β] (hπ : Courteous π)
    {storage : Storage (StateM σ)} (hs : storage.KeepsLatest) :
    (∀ (kind : Banking) (rom : Bytes) (banks : Nat) (battery : Bool)
        (past : List Controller.Event),
      let c := (kind.build rom banks battery).after past
      c.loadRam c.ram = c ∧
      (kind = .mbc2 → ∀ v ∈ c.ram, v ≤ 0x0f) ∧
      ∀ dump : Bytes,
        (c.loadRam dump).ram.size = c.ram.size ∧
        (∀ i < c.ram.size, (c.loadRam dump).ram[i]? = some (kind.kept (dump.getD i 0))) ∧
        (∀ other, (((kind.build rom banks battery).after other).loadRam dump).ram =
          (c.loadRam dump).ram) ∧
        (c.loadRam dump).sansRam = c.sansRam ∧
        ∀ address < 0x8000, (c.loadRam dump).read address = c.read address) ∧
    (∀ (bootImage bootImage' : Option Bytes) (image : Bytes) (keypad keypad' : ι)
        (screen screen' : ρ) (l l' : Breakpoints) (d₀ e₀ d e : Device Board ι ρ π),
      powerOn id bootImage image keypad screen l = .ok d₀ →
      powerOn id bootImage' image keypad' screen' l' = .ok e₀ →
      d₀.header.hasBattery = true → Reached d₀ d → Reached e₀ e →
      ∀ (name : String) (t : σ) (calls : List Storage.Call),
        ((storage.save name d.board.controller.ram).run t).1 = .ok () →
        (∀ call ∈ calls, call.saved? ≠ some name) →
        let saved := (d.saveRam storage name).run t
        let loaded := (e.loadRam storage name).run (calls.foldl storage.after saved.2)
        saved.1 = (.ok true, d) ∧ loaded.1 = (.ok true, e.restored d.board.controller.ram) ∧
          loaded.1.2.board.controller.ram = d.board.controller.ram) ∧
    ∀ (d : Device β ι ρ π) (name : String) (t : σ),
      (d.board.controller.hasBattery = false →
        (d.saveRam storage name).run t = ((.ok false, d), t) ∧
          (d.loadRam storage name).run t = ((.ok false, d), t)) ∧
      (d.board.controller.hasBattery = true →
        (((storage.load name).run t).1 = .ok none →
          (d.loadRam storage name).run t = ((.ok false, d), ((storage.load name).run t).2)) ∧
        (∀ fault, ((storage.load name).run t).1 = .error fault →
          (d.loadRam storage name).run t = ((.error fault, d), ((storage.load name).run t).2)) ∧
        ∀ fault, ((storage.save name d.board.controller.ram).run t).1 = .error fault →
          (d.saveRam storage name).run t =
            ((.error fault, d), ((storage.save name d.board.controller.ram).run t).2)) := by
  refine ⟨fun kind rom banks battery past => Banking.restoring past kind rom banks battery, ?_, ?_⟩
  · intro bootImage bootImage' image keypad keypad' screen screen' l l' d₀ e₀ d e hd₀ he₀ hb hd he
      name t calls hok hcalls saved loaded
    obtain ⟨hbd, hbe, hram⟩ := ram_restored hπ hd₀ he₀ hb hd he
    have hsaved := saveRam_of_ok hbd hok
    have hfound := hs name d.board.controller.ram t calls hok hcalls
    have hstate : saved.2 = ((storage.save name d.board.controller.ram).run t).2 :=
      congrArg Prod.snd hsaved
    rw [← hstate] at hfound
    have hloaded := loadRam_of_found hbe hfound
    exact ⟨congrArg Prod.fst hsaved, congrArg Prod.fst hloaded,
      (congrArg (fun r => r.1.2.board.controller.ram) hloaded).trans hram⟩
  · intro d name t
    exact ⟨fun h =>
        ⟨d.saveRam_of_unbacked storage name t h, d.loadRam_of_unbacked storage name t h⟩,
      fun h => ⟨loadRam_of_absent h, fun _ => loadRam_of_error h, fun _ => saveRam_of_error h⟩⟩

theorem courteous_framePulse : Courteous FramePulse := by
  intro c q b cycles hb
  unfold Peripheral.tick instPeripheralFramePulseBoard
  dsimp only
  split
  · exact hb
  · exact hb

/-- A half-byte stored on one device is there on another one, which has other breakpoints and has
taken a step. -/
theorem battery_ram_persists_half_byte :
    let image := (Bytes.zeros Header.size).setIfInBounds 0x147 0x06
    let start (l : Breakpoints) : Except Fault (Device Board NoKeypad FrameCounter FramePulse) :=
      powerOn id none image ⟨⟩ ⟨0⟩ l
    ∃ d₀ e₀, start [] = .ok d₀ ∧ start [.address 0x100] = .ok e₀ ∧ d₀.header.hasBattery = true ∧
      let d := (d₀.modifyBoard (·.apply (.write 0x0000 0x0a))).modifyBoard
        (·.apply (.write 0xa000 0x99))
      let saved := (d.saveRam Blobs.storage "game").run []
      let loaded := (e₀.step.2.loadRam Blobs.storage "game").run
        (Blobs.storage.after saved.2 (.save "other" #[0x01]))
      loaded.1.1 = .ok true ∧ loaded.1.2.board.controller.ram = d.board.controller.ram ∧
        d.board.controller.ram[0]? = some 0x09 := by
  intro image start
  have hsize : ¬image.size < Header.size := by simp [image]
  have htype : (Header.read image).type = 0x06 := by
    simp [image, Header.read, Bytes.readOpen, Bytes.zeros, Header.size]
  have hbattery : (Header.read image).hasBattery = true := by
    rw [Header.hasBattery, htype]
    decide
  have hf : fitted none image = .ok (Header.read image, .mbc2 (.new image true)) := by
    have hparse : Header.parse image = .ok (Header.read image) := if_neg hsize
    have hslot : (Header.read image).controller image = .ok (.mbc2 (.new image true)) := by
      unfold Header.controller
      rw [hbattery, htype]
      rfl
    simp only [fitted, hparse, bind, Except.bind, hslot]
    rfl
  have hs (l : Breakpoints) : start l = .ok
      (built none ⟨⟩ ⟨0⟩ l (Header.read image, .mbc2 (.new image true))) := by
    show powerOn id none image _ _ l = _
    rw [powerOn_eq, hf]
    rfl
  refine ⟨_, _, hs [], hs [.address 0x100], hbattery, ?_⟩
  intro d saved loaded
  obtain ⟨-, transferred, -⟩ := battery_ram_persists Board courteous_framePulse
    Blobs.keepsLatest_storage (ι := NoKeypad) (ρ := FrameCounter)
  have hd : Reached _ d := (Reached.start.board (.write 0x0000 0x0a)).board (.write 0xa000 0x99)
  obtain ⟨-, hloaded, hram⟩ := transferred none none image ⟨⟩ ⟨⟩ ⟨0⟩ ⟨0⟩ [] [.address 0x100] _ _ d _
    (hs []) (hs [.address 0x100]) hbattery hd Reached.start.step "game" []
    [.save "other" #[0x01]] rfl (by simp [Storage.Call.saved?])
  refine ⟨congrArg Prod.fst hloaded, hram, ?_⟩
  have hcell : ((Banking.mbc2.build image 0 true).after
      [.write 0xa000 0x99, .write 0x0000 0x0a]).ram[0]? = some 0x09 :=
    Banking.getElem?_ram (by decide) _
  exact hcell

end Transfer

end Device
end DotMatrix
