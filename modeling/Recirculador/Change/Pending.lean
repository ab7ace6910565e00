/-
How long a change stays pending.

A write raises the bit of its bank and `rec_change_verify` clears the bit of the
bank it announces.  The refresh assigns `change_flag` where every write ORs into
it, so a refresh that falls due drops the bits of the other banks, and the bit of
the announced bank is cleared whatever `message_New` answered.
-/
import Recirculador.Change.Tasks
import Recirculador.Common.Run

namespace Recirculador

open SysRegMap Registers

/-! ## Register writes -/

/-- A call of `reg_write_bool`, `reg_write_short` or `reg_write_int`. -/
inductive RegWrite
  | bool (value : Bool) (addr : Nat)
  | short (value : BitVec 16) (addr : Nat)
  | int (value : BitVec 32) (addr : Nat)

namespace RegWrite

def bank : RegWrite → Bank
  | .bool .. => .bool
  | .short .. => .short
  | .int .. => .int

def addr : RegWrite → Nat
  | .bool _ addr => addr
  | .short _ addr => addr
  | .int _ addr => addr

def run : RegWrite → Registers → Registers
  | .bool value addr => regWriteBool value addr
  | .short value addr => regWriteShort value addr
  | .int value addr => regWriteInt value addr

/-- The call changes the value the register at its address stores. -/
def changes (w : RegWrite) (r : Registers) : Bool :=
  match getIndex w.addr with
  | none => false
  | some k => (w.run r).cell w.bank k != r.cell w.bank k

theorem changes_bool {addr k : Nat} (h : getIndex addr = some k) (value : Bool) (r : Registers) :
    (bool value addr).changes r = decide (r.boolBit k ≠ value) := by
  have hbit := regWriteBool_boolBit h value r k
  rw [if_pos rfl] at hbit
  simp only [changes, RegWrite.addr, h, run, bank, cell, hbit]
  cases value <;> cases r.boolBit k <;> rfl

theorem changes_short {addr k : Nat} (h : getIndex addr = some k) (value : BitVec 16)
    (r : Registers) : (short value addr).changes r = decide (r.shortRegVet k ≠ value) := by
  simp only [changes, RegWrite.addr, h, run, bank, cell, regWriteShort_eq h]
  by_cases hv : r.shortRegVet k = value
  · simp [hv]
  · have hne : ¬ value.toInt = (r.shortRegVet k).toInt := fun e => hv (BitVec.eq_of_toInt_eq e).symm
    simp [hv, hne, setShort_shortRegVet]

theorem changes_int {addr k : Nat} (h : getIndex addr = some k) (value : BitVec 32)
    (r : Registers) : (int value addr).changes r = decide (r.intRegVet k ≠ value) := by
  simp only [changes, RegWrite.addr, h, run, bank, cell, regWriteInt_eq h]
  by_cases hv : r.intRegVet k = value
  · simp [hv]
  · have hne : ¬ value.toInt = (r.intRegVet k).toInt := fun e => hv (BitVec.eq_of_toInt_eq e).symm
    simp [hv, hne, setInt_intRegVet]

/-- A write raises the bit of its bank exactly when it changes a value, and no
other bit. -/
theorem changeFlag_run (w : RegWrite) (r : Registers) :
    (w.run r).changeFlag =
      if w.changes r then r.changeFlag ||| w.bank.changeBit else r.changeFlag := by
  cases hk : getIndex w.addr with
  | none =>
    have hsame : w.run r = r := by
      cases w <;>
        simp only [addr] at hk <;> simp [run, regWriteBool, regWriteShort, regWriteInt, hk]
    simp [changes, hk, hsame]
  | some k =>
    cases w with
    | bool value addr =>
      replace hk : getIndex addr = some k := hk
      rw [changes_bool hk, run, regWriteBool_changeFlag hk]
      by_cases hv : r.boolBit k = value <;> simp [hv, bank]
    | short value addr =>
      replace hk : getIndex addr = some k := hk
      rw [changes_short hk, run, regWriteShort_eq hk]
      by_cases hv : r.shortRegVet k = value <;> simp [hv, bank]
    | int value addr =>
      replace hk : getIndex addr = some k := hk
      rw [changes_int hk, run, regWriteInt_eq hk]
      by_cases hv : r.intRegVet k = value <;> simp [hv, bank]

theorem pending_run (w : RegWrite) (r : Registers) (b : Bank) :
    (w.run r).Pending b ↔ r.Pending b ∨ w.bank = b ∧ w.changes r = true := by
  rw [Pending, changeFlag_run]
  cases w.changes r
  · simp [Pending]
  · have h := pending_raise r w.bank b
    simp only [Pending, raise_changeFlag] at h
    simp only [if_true, h, and_true, Pending, eq_comm, or_comm]

end RegWrite

def Firmware.write (w : RegWrite) (f : Firmware) : Firmware := { f with regs := w.run f.regs }

/-! ## One call of `rec_change_verify` -/

/-- The bank the refresh forces at the time `now`.  The flag is one bit that moves
up a place when the period is over and again when a bank is forced. -/
def RecChange.fires (now : BitVec 64) (v : RecChange) : Option Bank :=
  let flag := if now - v.lastUpdate > 10000 then v.flag <<< 1 else v.flag
  if flag &&& 0b10 ≠ 0 then some .bool
  else if flag &&& 0b1000 ≠ 0 then some .short
  else if flag &&& 0b100000 ≠ 0 then some .int
  else none

theorem recChange_regs (now : BitVec 64) (v : RecChange) (r : Registers) :
    (recChange now v r).2 =
      match v.fires now with
      | some b => regSetChangeFlag b.changeBit r
      | none => r := by
  unfold recChange RecChange.fires
  by_cases hdue : now - v.lastUpdate > 10000
  · simp only [if_pos hdue]
    split
    · rfl
    split
    · rfl
    split <;> rfl
  · simp only [if_neg hdue]
    split
    · rfl
    split
    · rfl
    split <;> rfl

/-- The bank `rec_change_verify` picks among the pending ones. -/
def Registers.firstPending (r : Registers) : Option Bank :=
  if r.Pending .bool then some .bool
  else if r.Pending .short then some .short
  else if r.Pending .int then some .int
  else none

theorem firstPending_pending {r : Registers} {b : Bank} (h : r.firstPending = some b) :
    r.Pending b := by
  unfold firstPending at h
  split at h
  · exact Option.some.inj h ▸ ‹_›
  split at h
  · exact Option.some.inj h ▸ ‹_›
  split at h
  · exact Option.some.inj h ▸ ‹_›
  · exact nomatch h

theorem firstPending_eq_none_iff {r : Registers} :
    r.firstPending = none ↔ ∀ b, ¬ r.Pending b := by
  constructor
  · intro h b hb
    cases b <;> grind [firstPending]
  · intro h
    simp [firstPending, h]

/-- The refresh leaves the bits alone unless it forces a bank, which is then the
only one pending. -/
theorem pending_refresh (now : BitVec 64) (f : Firmware) (b : Bank) :
    (f.refresh now).regs.Pending b ↔
      match f.recChange.fires now with
      | some x => b = x
      | none => f.regs.Pending b := by
  rw [Firmware.refresh, recChange_regs]
  cases f.recChange.fires now with
  | none => exact Iff.rfl
  | some x => exact pending_regSetChangeFlag f.regs x b

/-- The bank a call of `rec_change_verify` tries to announce. -/
def Firmware.tries (now : BitVec 64) (f : Firmware) : Option Bank :=
  match f.recChange.fires now with
  | some b => some b
  | none => f.regs.firstPending

theorem firstPending_refresh (now : BitVec 64) (f : Firmware) :
    (f.refresh now).regs.firstPending = f.tries now := by
  rw [Firmware.refresh, recChange_regs, Firmware.tries]
  cases f.recChange.fires now with
  | none => rfl
  | some b =>
    simp only [firstPending, pending_regSetChangeFlag]
    cases b <;> rfl

/-- Inversion of a call: it refreshes and announces the bank it tries, if any. -/
theorem recChangeVerify_eq (now : BitVec 64) (stack : I2cModbus) (f : Firmware) :
    recChangeVerify now stack f =
      match f.tries now with
      | some b => announce b stack (f.refresh now)
      | none => f.refresh now := by
  rw [← firstPending_refresh, firstPending]
  by_cases hbool : (f.refresh now).regs.Pending .bool
  · rw [if_pos hbool]
    exact if_pos hbool
  by_cases hshort : (f.refresh now).regs.Pending .short
  · rw [if_neg hbool, if_pos hshort]
    exact (if_neg hbool).trans (if_pos hshort)
  by_cases hint : (f.refresh now).regs.Pending .int
  · rw [if_neg hbool, if_neg hshort, if_pos hint]
    exact (if_neg hbool).trans ((if_neg hshort).trans (if_pos hint))
  · rw [if_neg hbool, if_neg hshort, if_neg hint]
    exact (if_neg hbool).trans ((if_neg hshort).trans (if_neg hint))

theorem tries_eq_none_iff {now : BitVec 64} {f : Firmware} :
    f.tries now = none ↔ f.recChange.fires now = none ∧ ∀ b, ¬ f.regs.Pending b := by
  rw [Firmware.tries]
  cases f.recChange.fires now with
  | none => simp [firstPending_eq_none_iff]
  | some b => simp

/-- After a call the pending banks are those pending before but the announced one,
or none if the refresh forced a bank. -/
theorem pending_recChangeVerify (now : BitVec 64) (stack : I2cModbus) (f : Firmware) (b : Bank) :
    (recChangeVerify now stack f).regs.Pending b ↔
      f.recChange.fires now = none ∧ f.regs.Pending b ∧ f.tries now ≠ some b := by
  have hrefresh := pending_refresh now f b
  have hclear := fun x => pending_regClearChangeFlag (f.refresh now).regs x b
  rw [recChangeVerify_eq]
  cases hf : f.recChange.fires now with
  | some x =>
    rw [hf] at hrefresh
    have htries : f.tries now = some x := by rw [Firmware.tries, hf]
    rw [htries]
    refine iff_of_false (fun h => ?_) (fun h => nomatch h.1)
    have hb := (hclear x).mp h
    exact hb.1 (hrefresh.mp hb.2)
  | none =>
    rw [hf] at hrefresh
    cases ht : f.tries now with
    | none => simp [hrefresh]
    | some x =>
      refine (hclear x).trans ?_
      simp only [hrefresh, ne_eq, Option.some.injEq, true_and, eq_comm, and_comm]

/-- The call leaves the queue with the message of the bank at its end. -/
def Firmware.Announces (now : BitVec 64) (stack : I2cModbus) (b : Bank) (f : Firmware) : Prop :=
  (recChangeVerify now stack f).queue.history.accepted =
    f.queue.history.accepted ++ [bankMessage b stack f]

instance (now : BitVec 64) (stack : I2cModbus) (b : Bank) (f : Firmware) :
    Decidable (f.Announces now stack b) := inferInstanceAs (Decidable (_ = _))

theorem bankMessage_inj {b c : Bank} {stack : I2cModbus} {f : Firmware}
    (h : bankMessage b stack f = bankMessage c stack f) : b = c := by
  have haddr := congrArg I2cModbus.regAddr h
  cases b <;> cases c <;> first | rfl | exact absurd haddr (by simp [bankMessage, setMultNumReg])

theorem announces_iff {now : BitVec 64} {stack : I2cModbus} {b : Bank} {f : Firmware} :
    f.Announces now stack b ↔ f.tries now = some b ∧ f.queue.Accepts := by
  have hsame : ∀ c, bankMessage c stack (f.refresh now) = bankMessage c stack f := by
    intro c
    cases c <;> rfl
  rw [Firmware.Announces, recChangeVerify_eq]
  cases f.tries now with
  | none => simp [Firmware.refresh]
  | some c =>
    by_cases hq : f.queue.Accepts
    · obtain ⟨slot, -, hnew⟩ := Queue.messageNew_accepts hq (bankMessage c stack f)
      have hqueue : (announce c stack (f.refresh now)).queue.history.accepted =
          f.queue.history.accepted ++ [bankMessage c stack f] := by
        show (messageNew (bankMessage c stack (f.refresh now)) f.queue).2.history.accepted = _
        rw [hsame, hnew]
        rfl
      simp only [hqueue, List.append_cancel_left_eq, List.cons.injEq, and_true, hq,
        Option.some.injEq]
      exact ⟨bankMessage_inj, fun h => h ▸ rfl⟩
    · have hqueue : (announce c stack (f.refresh now)).queue = f.queue :=
        (Queue.messageNew_refuses hq _).2
      simp [hqueue, hq]

/-! ## Runs of writes and calls -/

/-- The firmware and the banks a write has raised since their last announcement. -/
structure Watch where
  firmware : Firmware
  owed : Bank → Bool

/-- Between the calls the main loop may do anything to the queue. -/
inductive WatchAction
  | write (w : RegWrite)
  | verify (now : BitVec 64) (stack : I2cModbus)
  | queue (q : Queue)

namespace Watch

def start (f : Firmware) : Watch where
  firmware := { f with regs := { f.regs with changeFlag := 0 } }
  owed := fun _ => false

def step (s : Watch) : WatchAction → Watch
  | .write w =>
    { firmware := s.firmware.write w
      owed := fun b => s.owed b || decide (w.bank = b) && w.changes s.firmware.regs }
  | .verify now stack =>
    { firmware := recChangeVerify now stack s.firmware
      owed := fun b => s.owed b && !decide (s.firmware.Announces now stack b) }
  | .queue q => { s with firmware := { s.firmware with queue := q } }

def Kept (s : Watch) : Prop := ∀ b, s.owed b = true → s.firmware.regs.Pending b

/-- A call that finds a pending bank has room for its message, and its refresh
forces no bank but one that is pending alone. -/
def Harmless (s : Watch) : WatchAction → Prop
  | .verify now _ =>
    ∀ b, s.firmware.regs.Pending b →
      s.firmware.queue.Accepts ∧ ∀ x, s.firmware.recChange.fires now = some x → x = b
  | _ => True

def Exact (s : Watch) : Prop := ∀ b, s.owed b = true ↔ s.firmware.regs.Pending b

theorem start_exact (f : Firmware) : (start f).Exact := by
  intro b
  simp [start, Pending]

theorem Exact.write {s : Watch} (h : s.Exact) (w : RegWrite) : (s.step (.write w)).Exact := by
  intro b
  have hpend : (s.step (.write w)).firmware.regs.Pending b ↔ _ := w.pending_run s.firmware.regs b
  rw [hpend, ← h b]
  simp [step]

theorem Exact.verify {s : Watch} (h : s.Exact) {now : BitVec 64} {stack : I2cModbus}
    (hok : s.Harmless (.verify now stack)) : (s.step (.verify now stack)).Exact := by
  intro b
  simp only [step, Bool.and_eq_true, Bool.not_eq_true', decide_eq_false_iff_not, h b,
    announces_iff, pending_recChangeVerify]
  constructor
  · intro howed
    rcases howed with ⟨hb, hnot⟩
    obtain ⟨hroom, honly⟩ := hok b hb
    have htries : s.firmware.tries now ≠ some b := fun ht => hnot ⟨ht, hroom⟩
    refine ⟨?_, hb, htries⟩
    cases hf : s.firmware.recChange.fires now with
    | none => rfl
    | some x =>
      rw [Firmware.tries, hf, honly x hf] at htries
      exact absurd rfl htries
  · intro hpend
    rcases hpend with ⟨-, hb, htries⟩
    exact ⟨hb, fun hann => htries hann.1⟩

/-- A call that is not harmless drops the bit of a bank without its message. -/
theorem Exact.dropped {s : Watch} (h : s.Exact) {now : BitVec 64} {stack : I2cModbus}
    (hbad : ¬ s.Harmless (.verify now stack)) : ¬ (s.step (.verify now stack)).Kept := by
  intro hkept
  -- Every bank pending before is still owed unless this call announced it.
  have hlost : ∀ b, s.firmware.regs.Pending b → ¬ s.firmware.Announces now stack b →
      s.firmware.recChange.fires now = none ∧ s.firmware.tries now ≠ some b := by
    intro b hb hnot
    have howed : (s.step (.verify now stack)).owed b = true := by
      simp [step, (h b).mpr hb, hnot]
    have hpend := (pending_recChangeVerify now stack s.firmware b).mp (hkept b howed)
    exact ⟨hpend.1, hpend.2.2⟩
  refine hbad fun b hb => ?_
  have hroom : s.firmware.queue.Accepts := by
    refine Decidable.byContradiction fun hfull => ?_
    have hnot : ∀ c, ¬ s.firmware.Announces now stack c := fun c hc =>
      hfull (announces_iff.mp hc).2
    have hfires := (hlost b hb (hnot b)).1
    cases ht : s.firmware.tries now with
    | none => exact (tries_eq_none_iff.mp ht).2 b hb
    | some c =>
      have hc : s.firmware.regs.Pending c := by
        rw [Firmware.tries, hfires] at ht
        exact firstPending_pending ht
      exact (hlost c hc (hnot c)).2 ht
  refine ⟨hroom, fun x hx => ?_⟩
  refine Decidable.byContradiction fun hne => ?_
  have htries : s.firmware.tries now = some x := by rw [Firmware.tries, hx]
  have hnot : ¬ s.firmware.Announces now stack b := fun hb' =>
    hne (Option.some.inj (htries.symm.trans (announces_iff.mp hb').1))
  exact nomatch hx.symm.trans (hlost b hb hnot).1

/-- In a run of writes and calls at any times, what a write raised stays pending
until it is announced exactly when every call is harmless. -/
theorem run_kept_iff (f : Firmware) (as : List WatchAction) :
    Run.Always step Kept (start f) as ↔ Run.Each step Harmless (start f) as := by
  refine Run.always_iff_each Exact Harmless (fun s h b => (h b).mp) ?_ ?_ (start_exact f) as
  · intro s a h hok
    cases a with
    | write w => exact h.write w
    | verify now stack => exact h.verify hok
    | queue q => exact h
  · intro s a h hbad
    cases a with
    | write w => exact absurd trivial hbad
    | verify now stack => exact h.dropped hbad
    | queue q => exact absurd trivial hbad

/-- A parameter is written and the next call, after ten seconds, forces the bools. -/
def refreshedOver : List WatchAction :=
  [.write (.int 1 fluxCalib), .verify 10001 messageDefault]

def readyFirmware : Firmware := { bootFirmware with queue := messageInit bootQueue }

theorem run_drops :
    ¬ ∀ (f : Firmware) (as : List WatchAction), Run.Always step Kept (start f) as := by
  intro hall
  have hkept := (hall readyFirmware refreshedOver).last .int
  exact absurd (hkept (by decide)) (by decide)

end Watch

/-! ## A full queue -/

namespace Firmware

/-- A refused message loses nothing: `rec_change_verify` keeps the bit of the bank it
tried and `rec_create_messages` the values last sent. -/
structure OverloadKeeps (now : BitVec 64) (verifyStack statusStack stack : I2cModbus)
    (f : Firmware) : Prop where
  flag : ∀ b, (f.refresh now).regs.firstPending = some b →
    ((f.refresh now).messageNew (bankMessage b verifyStack f)).1 = .queueOverload →
    (recChangeVerify now verifyStack f).regs.Pending b
  snapshot : ((recGetStatus statusStack f).messageNew
      (measuredMessage stack (recGetStatus statusStack f))).1 = .queueOverload →
    (recCreateMessages statusStack stack f).recCreate = f.recCreate

/-- With no room for its message a bank is neither pending nor due for a refresh, and
with no room after the status message no measured value has moved. -/
def NothingRefused (now : BitVec 64) (f : Firmware) : Prop :=
  (f.queue.Full → f.recChange.fires now = none ∧ ∀ b, ¬ f.regs.Pending b) ∧
  (f.queue.init = true ∧ (f.queue.lenght = 13 ∨ f.queue.lenght = 14) →
    messageFlag (measured f.regs) f.recCreate = 0)

theorem messageFlag_self (s : RecCreateMessages) : messageFlag s s = 0 := by
  have htest : ∀ x variation : BitVec 32, (-variation).slt 0#32 = true →
      (0#32).slt variation = true → recVariationTest x x variation = false := by
    intro x variation hlow hhigh
    simp [recVariationTest, hlow, hhigh]
  rw [messageFlag, htest s.s1 20 rfl rfl, htest s.s2 20 rfl rfl, htest s.flux 50 rfl rfl,
    htest s.current 100 rfl rfl]
  simp

theorem recCreate_sendMeasured (stack : I2cModbus) (f : Firmware) :
    (sendMeasured stack f).recCreate = f.recCreate ↔
      messageFlag (measured f.regs) f.recCreate = 0 := by
  unfold sendMeasured
  constructor
  · intro hsame
    refine Decidable.byContradiction fun hmoved => ?_
    rw [if_neg hmoved] at hsame
    have hsent : measured f.regs = f.recCreate := hsame
    exact hmoved (by rw [hsent]; exact messageFlag_self f.recCreate)
  · intro hstill
    rw [if_pos hstill]

/-- An overload loses no update exactly when the refused call had nothing to
announce. -/
theorem overloadKeeps_iff (now : BitVec 64) (verifyStack statusStack stack : I2cModbus)
    (f : Firmware) :
    f.OverloadKeeps now verifyStack statusStack stack ↔ f.NothingRefused now := by
  have hverify : ∀ m, ((f.refresh now).messageNew m).1 = .queueOverload ↔ f.queue.Full :=
    fun m => Queue.messageNew_overload_iff
  have hcreate : ∀ m, ((recGetStatus statusStack f).messageNew m).1 = .queueOverload ↔
      f.queue.init = true ∧ (f.queue.lenght = 13 ∨ f.queue.lenght = 14) := fun m =>
    Queue.messageNew_overload_iff.trans Queue.full_messageNew_iff
  have hsent : (recCreateMessages statusStack stack f).recCreate = f.recCreate ↔
      messageFlag (measured f.regs) f.recCreate = 0 :=
    recCreate_sendMeasured stack (recGetStatus statusStack f)
  constructor
  · intro hkeeps
    rcases hkeeps with ⟨hflag, hsnapshot⟩
    refine ⟨fun hfull => ?_, fun hlen => hsent.mp (hsnapshot ((hcreate _).mpr hlen))⟩
    refine tries_eq_none_iff.mp ?_
    cases ht : f.tries now with
    | none => rfl
    | some b =>
      -- The bank a call tries is never pending after it.
      have hpend := hflag b ((firstPending_refresh now f).trans ht) ((hverify _).mpr hfull)
      exact absurd ht ((pending_recChangeVerify now verifyStack f b).mp hpend).2.2
  · intro hnothing
    rcases hnothing with ⟨hquiet, hstill⟩
    refine ⟨fun b hb hfull => ?_, fun hfull => hsent.mpr (hstill ((hcreate _).mp hfull))⟩
    have hnone := tries_eq_none_iff.mpr (hquiet ((hverify _).mp hfull))
    exact nomatch hnone.symm.trans ((firstPending_refresh now f).symm.trans hb)

/-- Fourteen messages are waiting when the pump register changes. -/
def crowdedFirmware : Firmware where
  regVetAddr := 0x10000000
  regs := regWriteBool true pump bootFirmware.regs
  queue := enqueueAll (List.replicate 14 messageDefault) (messageInit bootQueue)
  recChange := recChangeVar
  recCreate := recCreateMessagesVar
  pause := false
  bus := []

theorem overload_drops :
    ¬ ∀ (now : BitVec 64) (verifyStack statusStack stack : I2cModbus) (f : Firmware),
      f.OverloadKeeps now verifyStack statusStack stack := by
  intro hall
  have hflag := (hall 0 messageDefault messageDefault messageDefault crowdedFirmware).flag .bool
  exact absurd (hflag (by decide) (by decide)) (by decide)

end Firmware

end Recirculador
