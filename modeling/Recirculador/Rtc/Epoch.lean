/-
The smallest time, and who keeps the time register above it.

Three writers share the register: the tick adds one, the clock chip's answer is tested
against the smallest time, and the report of the WiFi module is stored as it comes.
The schedule subtracts the smallest time without asking.
-/
import Recirculador.Common.Run
import Recirculador.Message.Reply
import Recirculador.Rtc.RoundTrip

namespace Recirculador

open SysRegMap Registers

/-- `tickTimestamp`. -/
def tickTimestamp (r : Registers) : Registers := r.setInt 0 (r.intRegVet 0 + 1)

namespace Rtc

/-- What one resynchronisation finds: the bytes of the chip, the stack and the memory
behind the table of months. -/
structure ChipRead where
  received : List (BitVec 8)
  stack : RtcData
  behind : Nat → BitVec 8

def ChipRead.resync (c : ChipRead) (ptrTimestamp : BitVec 32) : Resync :=
  rtcResynchronization c.behind c.stack c.received ptrTimestamp

/-- `RTC_resynchronization` on the time register. -/
def resynchronize (c : ChipRead) (f : Firmware) : Firmware :=
  let resync := c.resync (f.regs.intRegVet 0)
  { f with regs := f.regs.setInt 0 resync.ptrTimestamp, bus := f.bus ++ resync.calls }

/-- `RTC_begin` with the pointer to the time register. -/
def rtcBegin (c : ChipRead) (v : RtcVar) (f : Firmware) : RtcVar × Firmware :=
  ({ v with flagBegin := true }, resynchronize c f)

/-! ## Runs of the three writers -/

/-- A report finds whatever message the loop has at the pointer. -/
inductive Write
  | tick
  | resync (c : ChipRead)
  | report (queue : Queue) (e : Exchange)

def Write.run (f : Firmware) : Write → Firmware
  | .tick => { f with regs := tickTimestamp f.regs }
  | .resync c => resynchronize c f
  | .report queue e => (reportSlaveId e { f with queue }).2

/-- The precondition of `weekDay`. -/
def AboveEpoch (f : Firmware) : Prop := sysTimestampMin ≤ (f.regs.intRegVet 0).toNat

def NoWrap (f : Firmware) : Write → Prop
  | .tick => f.regs.intRegVet 0 ≠ BitVec.allOnes 32
  | _ => True

/-- The time in a reply that `_Report_Slave_ID` accepts. -/
def reportedTime (queue : Queue) (e : Exchange) : Option (BitVec 32) :=
  match e.reply with
  | none => none
  | some reply =>
    if queue.head.addr = sysI2cAddrWiFi ∧ checkCrc16 reply 16#32 then
      some (ByteMemory.load 4 reply 9)
    else none

/-- A report names no time or one the firmware accepts from the chip. -/
def Plausible (_ : Firmware) : Write → Prop
  | .report queue e => ∀ t ∈ reportedTime queue e, t = 0 ∨ sysTimestampMin ≤ t.toNat
  | _ => True

/-! ## What each writer leaves -/

theorem intRegVet_tickTimestamp (r : Registers) :
    (tickTimestamp r).intRegVet 0 = r.intRegVet 0 + 1 := by
  rw [tickTimestamp, setInt_intRegVet, if_pos rfl]

theorem intRegVet_resynchronize (c : ChipRead) (f : Firmware) :
    (resynchronize c f).regs.intRegVet 0 = (c.resync (f.regs.intRegVet 0)).ptrTimestamp := by
  show (f.regs.setInt 0 (c.resync (f.regs.intRegVet 0)).ptrTimestamp).intRegVet 0 = _
  rw [setInt_intRegVet, if_pos rfl]

theorem regs_regChage (addr flag : BitVec 8) (stack : I2cModbus) (f : Firmware) :
    (regChage addr flag stack f).regs = f.regs := by
  have hnew : ∀ {c : Prop} [Decidable c] (m : I2cModbus) (f : Firmware),
      (if c then (f.messageNew m).2 else f).regs = f.regs := by
    intro c _ m f
    split <;> rfl
  unfold regChage
  dsimp only
  split
  · rfl
  · rw [hnew, hnew, hnew]

theorem regs_setTimestamp (e : Exchange) (t : BitVec 32) (f : Firmware) :
    (setTimestamp e t f).regs = if t = 0 then f.regs else f.regs.setInt 0 t := by
  unfold setTimestamp
  by_cases ht : t = 0
  · rw [if_pos ht, if_neg (not_not_intro ht)]
  · rw [if_neg ht, if_pos ht]
    rfl

theorem reportSlaveId_regs (e : Exchange) (f : Firmware) :
    (reportSlaveId e f).2.regs =
      match reportedTime f.queue e with
      | none => f.regs
      | some t => if t = 0 then f.regs else f.regs.setInt 0 t := by
  have hread : e.delivered (16 : Nat) = e.reply := e.delivered_of_le (by decide)
  unfold reportSlaveId fixedReply reportedTime
  dsimp only [i2cReadLenghtMaster]
  rw [hread]
  cases e.reply with
  | none => split <;> rfl
  | some reply =>
    dsimp only
    by_cases haddr : f.queue.head.addr = sysI2cAddrWiFi
    · by_cases hcrc : checkCrc16 reply 16#32 = true
      · rw [if_pos haddr, if_pos hcrc, if_pos ⟨haddr, hcrc⟩]
        dsimp only
        rw [regs_regChage, regs_setTimestamp]
        rfl
      · rw [if_pos haddr, if_neg hcrc, if_neg fun h => hcrc h.2]
        rfl
    · rw [if_neg haddr, if_neg fun h => haddr h.1]

/-- A report stores the time it names, whatever it is. -/
theorem intRegVet_report (f : Firmware) (queue : Queue) (e : Exchange) :
    (Write.run f (.report queue e)).regs.intRegVet 0 =
      match reportedTime queue e with
      | none => f.regs.intRegVet 0
      | some t => if t = 0 then f.regs.intRegVet 0 else t := by
  have hregs := reportSlaveId_regs e { f with queue }
  refine (congrArg (·.intRegVet 0) hregs).trans ?_
  dsimp only
  cases reportedTime queue e with
  | none => rfl
  | some t =>
    dsimp only
    split
    · rfl
    · rw [setInt_intRegVet, if_pos rfl]

/-! ## The invariant -/

/-- The chip's answer is tested from both sides, so its time is not truncated either. -/
theorem resynchronization_ge (behind : Nat → BitVec 8) (stack : RtcData)
    (received : List (BitVec 8)) (ptrTimestamp : BitVec 32) :
    sysTimestampMin ≤
      (rtcResynchronization behind stack received ptrTimestamp).ptrTimestamp.toNat := by
  unfold rtcResynchronization
  dsimp only
  split
  · rw [BitVec.toNat_setWidth, convert_min]
    decide
  · rename_i hok
    have hmin := Nat.le_of_not_lt fun h => hok (Or.inr (Or.inl h))
    have hlt := convertTimeToTimestamp_lt (Nat.le_of_not_gt fun h => hok (Or.inr (Or.inr h)))
    rw [BitVec.toNat_setWidth, Nat.mod_eq_of_lt (Nat.lt_trans hlt (by decide))]
    exact hmin

theorem aboveEpoch_resynchronize (c : ChipRead) (f : Firmware) :
    AboveEpoch (resynchronize c f) := by
  rw [AboveEpoch, intRegVet_resynchronize]
  exact resynchronization_ge _ _ _ _

theorem aboveEpoch_tick {f : Firmware} (h : AboveEpoch f) (hwrap : NoWrap f .tick) :
    AboveEpoch (Write.run f .tick) := by
  have hlast : f.regs.intRegVet 0 ≠ BitVec.allOnes 32 := hwrap
  rw [AboveEpoch] at h ⊢
  show sysTimestampMin ≤ ((tickTimestamp f.regs).intRegVet 0).toNat
  rw [intRegVet_tickTimestamp]
  generalize f.regs.intRegVet 0 = t at h hlast ⊢
  have hones : (BitVec.allOnes 32).toNat = 4294967295 := rfl
  have hsucc : (t + 1).toNat = t.toNat + 1 := by bv_omega
  exact Nat.le_trans h (Nat.le_of_lt (by omega))

/-- A report keeps the register above the smallest time exactly if it is plausible. -/
theorem aboveEpoch_report_iff {f : Firmware} (h : AboveEpoch f) (queue : Queue) (e : Exchange) :
    AboveEpoch (Write.run f (.report queue e)) ↔ Plausible f (.report queue e) := by
  have hplausible : Plausible f (.report queue e) ↔
      ∀ t ∈ reportedTime queue e, t = 0 ∨ sysTimestampMin ≤ t.toNat := Iff.rfl
  rw [AboveEpoch, intRegVet_report, hplausible]
  cases reportedTime queue e with
  | none => exact iff_of_true h fun t ht => nomatch ht
  | some t =>
    simp only [Option.mem_some_iff, forall_eq']
    by_cases ht : t = 0
    · rw [if_pos ht]
      exact iff_of_true h (Or.inl ht)
    · rw [if_neg ht]
      exact ⟨Or.inr, fun hor => hor.resolve_left ht⟩

theorem aboveEpoch_run_iff {f : Firmware} (h : AboveEpoch f) {w : Write} (hwrap : NoWrap f w) :
    AboveEpoch (w.run f) ↔ Plausible f w := by
  cases w with
  | tick => exact iff_of_true (aboveEpoch_tick h hwrap) trivial
  | resync c => exact iff_of_true (aboveEpoch_resynchronize c f) trivial
  | report queue e => exact aboveEpoch_report_iff h queue e

/-- From `RTC_begin` on and without a wrap of the tick, the register never falls below
the smallest time exactly if no report names a time below it. -/
theorem run_aboveEpoch_iff (c : ChipRead) (v : RtcVar) (f : Firmware) {ws : List Write}
    (hwrap : Run.Each Write.run NoWrap (rtcBegin c v f).2 ws) :
    Run.Always Write.run AboveEpoch (rtcBegin c v f).2 ws ↔
      Run.Each Write.run Plausible (rtcBegin c v f).2 ws :=
  Run.always_iff_each_of AboveEpoch NoWrap Plausible (fun _ h => h)
    (fun _ _ h hw => (aboveEpoch_run_iff h hw).mpr)
    (fun _ _ h hw => mt (aboveEpoch_run_iff h hw).mp)
    (aboveEpoch_resynchronize c f) hwrap

/-- The chip holds zeros. -/
def blankChip : ChipRead where
  received := []
  stack := blankRtc
  behind := fun _ => 0

/-- A reply of the WiFi module with the time `t` and nothing to announce. -/
def timeReply (t : BitVec 32) : List (BitVec 8) :=
  let payload := [sysI2cAddrWiFi, Modbus.reportSlaveId, 0, 0, 0, 0, 0, 0, 0,
    t.extractLsb' 0 8, t.extractLsb' 8 8, t.extractLsb' 16 8, t.extractLsb' 24 8, 0]
  let crc := modbusCrc16 (fun i => payload.getD i 0) 14
  payload ++ [crc.setWidth 8, (crc >>> 8).setWidth 8]

def timeExchange (t : BitVec 32) : Exchange :=
  { noAnswer with reply := some fun i => (timeReply t).getD i 0 }

def timeQueue : Queue :=
  bootQueue.setMessage bootQueue.ptrQueue { messageDefault with addr := sysI2cAddrWiFi }

/-- The module reports the second second of 1970. -/
theorem run_belowEpoch :
    ¬ ∀ (c : ChipRead) (v : RtcVar) (f : Firmware) (ws : List Write),
      Run.Each Write.run NoWrap (rtcBegin c v f).2 ws →
      Run.Always Write.run AboveEpoch (rtcBegin c v f).2 ws := by
  intro hall
  have habove := hall blankChip ⟨false, 0, 3600000⟩ bootFirmware
    [.report timeQueue (timeExchange 1)] ⟨trivial, trivial⟩
  have htime : reportedTime timeQueue (timeExchange 1) = some 1 := by decide +kernel
  have hlast := (aboveEpoch_report_iff (aboveEpoch_resynchronize blankChip bootFirmware)
    timeQueue (timeExchange 1)).mp habove.2
  exact absurd (hlast 1 htime) (by decide)

/-- A second passes and the module reports a time of 2026. -/
theorem run_aboveEpoch_2026 :
    Run.Always Write.run AboveEpoch (rtcBegin blankChip ⟨false, 0, 3600000⟩ bootFirmware).2
      [.tick, .report timeQueue (timeExchange 1775055600)] := by
  have hlast : (resynchronize blankChip bootFirmware).regs.intRegVet 0 ≠ BitVec.allOnes 32 := by
    decide +kernel
  have hwrap : Run.Each Write.run NoWrap (rtcBegin blankChip ⟨false, 0, 3600000⟩ bootFirmware).2
      [.tick, .report timeQueue (timeExchange 1775055600)] := ⟨hlast, trivial, trivial⟩
  have htime : reportedTime timeQueue (timeExchange 1775055600) = some 1775055600 := by
    decide +kernel
  refine (run_aboveEpoch_iff blankChip ⟨false, 0, 3600000⟩ bootFirmware hwrap).mpr
    ⟨trivial, ?_, trivial⟩
  intro t ht
  obtain rfl : 1775055600 = t := Option.some.inj (htime.symm.trans ht)
  exact Or.inr (by decide)

end Rtc

end Recirculador
