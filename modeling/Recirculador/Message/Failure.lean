/-
What a failed exchange leaves behind.

A handler that fails has touched neither the registers nor the queue, with one
exception: `_Get_Bool_Reg` writes the bits of a reply as it goes and finds out only
at the end that there were too few of them.
-/
import Recirculador.Message.Match

namespace Recirculador

open SysRegMap Registers

/-- A failure of `f` that changed neither registers, change flag nor queue. -/
def FailKeeps (f : Firmware) (result : Int × Firmware) : Prop :=
  result.1 = replyFail →
    result.2.regs.regVet = f.regs.regVet ∧ result.2.regs.changeFlag = f.regs.changeFlag ∧
      result.2.queue = f.queue

namespace FailKeeps

variable {f f' : Firmware}

theorem of_eq (hregs : f'.regs = f.regs) (hqueue : f'.queue = f.queue) (status : Int) :
    FailKeeps f (status, f') := by
  intro _
  rw [hregs]
  exact ⟨rfl, rfl, hqueue⟩

theorem ok (f f' : Firmware) : FailKeeps f (replyOK, f') :=
  fun hfail => absurd hfail.symm Int.zero_ne_one

theorem ite {c : Prop} [Decidable c] {r r' : Int × Firmware} (h : FailKeeps f r)
    (h' : FailKeeps f r') : FailKeeps f (if c then r else r') := by
  split
  · exact h
  · exact h'

theorem fixedReply {k : (Nat → BitVec 8) → Firmware → Int × Firmware} {f : Firmware}
    (e : Exchange) (len : Nat)
    (hk : ∀ reply, FailKeeps f (k reply (f.record (.readLenght f.queue.head.addr len)))) :
    FailKeeps f (Recirculador.fixedReply len k e f) := by
  simp only [Recirculador.fixedReply, i2cReadLenghtMaster]
  cases e.delivered len with
  | none => exact of_eq rfl rfl replyFail
  | some reply => exact ite (hk reply) (of_eq rfl rfl replyFail)

end FailKeeps

theorem genericSetReg_failKeeps (e : Exchange) (f : Firmware) :
    FailKeeps f (genericSetReg e f) :=
  .fixedReply e _ fun _ => .of_eq rfl rfl _

theorem genericReadReg_failKeeps (e : Exchange) (f : Firmware) :
    FailKeeps f (genericReadReg e f) := by
  unfold genericReadReg
  dsimp only [i2cReadLenghtMaster]
  refine .ite (.of_eq rfl rfl _) ?_
  cases e.delivered _ with
  | none => exact .of_eq rfl rfl _
  | some reply => exact .ite (.ok f _) (.of_eq rfl rfl _)

theorem rwMultRegisters_failKeeps (e : Exchange) (f : Firmware) :
    FailKeeps f (rwMultRegisters e f) := by
  unfold rwMultRegisters
  dsimp only [i2cReadLenghtMaster]
  refine .ite ?_ (.of_eq rfl rfl _)
  cases e.delivered _ with
  | none => exact .of_eq rfl rfl _
  | some reply => exact .ite (.ok f _) (.of_eq rfl rfl _)

theorem openReply_failKeeps (sizeReply : BitVec 8 → Nat) (e : Exchange) (f : Firmware) :
    FailKeeps f (openReply sizeReply e f) := by
  unfold openReply
  dsimp only [i2cReadMaster]
  cases e.reply with
  | none => exact .of_eq rfl rfl _
  | some reply => exact .ite (.ok f _) (.of_eq rfl rfl _)

theorem reportSlaveId_failKeeps (e : Exchange) (f : Firmware) :
    FailKeeps f (reportSlaveId e f) := by
  unfold reportSlaveId
  exact .ite (.fixedReply e 16 fun _ => .ok f _) (.of_eq rfl rfl _)

theorem writeFileRecord_failKeeps (e : Exchange) (f : Firmware) :
    FailKeeps f (writeFileRecord e f) :=
  .fixedReply e 10 fun _ => .of_eq rfl rfl _

theorem readException_failKeeps (e : Exchange) (f : Firmware) :
    FailKeeps f (readException e f) :=
  .fixedReply e 4 fun _ => .ok f _

theorem getEventCounter_failKeeps (e : Exchange) (f : Firmware) :
    FailKeeps f (getEventCounter e f) :=
  .fixedReply e 5 fun _ => .ok f _

/-- Every handler but that of the bools changes nothing when it fails. -/
theorem handleReply_failKeeps {f : Firmware} (hcode : f.queue.head.code ≠ Modbus.getBoolReg)
    (e : Exchange) (statusAux : Int) : FailKeeps f (handleReply e statusAux f) :=
  handleReply_rule (fun hbool => absurd hbool hcode) (genericReadReg_failKeeps e f)
    (genericSetReg_failKeeps e f) (readException_failKeeps e f) (getEventCounter_failKeeps e f)
    (fun _ => openReply_failKeeps _ e f) (reportSlaveId_failKeeps e f)
    (writeFileRecord_failKeeps e f) (rwMultRegisters_failKeeps e f) (fun _ => .of_eq rfl rfl _)
    statusAux

/-! ## The bools -/

theorem getBoolReg_checked_failKeeps_iff {e : Exchange} {f : Firmware} {reply : Nat → BitVec 8}
    (hread : e.delivered (ReadHandler.getBoolReg.sizeReply f.queue.head) = some reply)
    (hcrc : checkCrc16 reply
      (BitVec.ofInt 32 (ReadHandler.getBoolReg.sizeReply f.queue.head)) = true) :
    FailKeeps f (getBoolReg e f) ↔ ReadHandler.getBoolReg.Admits f.queue.head reply ∨
      Harmless (bitWrites reply (List.range (8 * (reply 1).toNat))
        (f.queue.head.regAddr.signExtend 32)) f.regs := by
  by_cases hadmits : ReadHandler.getBoolReg.Admits f.queue.head reply
  · have hok := (ReadHandler.getBoolReg_replyOK hread hcrc).mpr hadmits
    refine iff_of_true (fun hfail => ?_) (Or.inl hadmits)
    exact absurd (hfail.symm.trans hok) Int.zero_ne_one
  · obtain ⟨hfail, hkept⟩ := ReadHandler.getBoolReg_short hread hcrc hadmits
    have hqueue : (getBoolReg e f).2.queue = f.queue :=
      congrArg (fun result => result.2.queue) (ReadHandler.getBoolReg_checked hread hcrc)
    rw [or_iff_right hadmits, ← hkept]
    constructor
    · intro hkeeps
      obtain ⟨hregs, hflags, _⟩ := hkeeps hfail
      exact ⟨hregs, hflags⟩
    · intro hsame _
      exact ⟨hsame.1, hsame.2, hqueue⟩

theorem getBoolReg_failKeeps_iff (e : Exchange) (f : Firmware) :
    FailKeeps f (getBoolReg e f) ↔
      ∀ reply, e.delivered (ReadHandler.getBoolReg.sizeReply f.queue.head) = some reply →
      checkCrc16 reply (BitVec.ofInt 32 (ReadHandler.getBoolReg.sizeReply f.queue.head)) = true →
      ReadHandler.getBoolReg.Admits f.queue.head reply ∨
        Harmless (bitWrites reply (List.range (8 * (reply 1).toNat))
          (f.queue.head.regAddr.signExtend 32)) f.regs := by
  cases hread : e.delivered (ReadHandler.getBoolReg.sizeReply f.queue.head) with
  | none =>
    refine iff_of_true ?_ fun _ hsome => nomatch hsome
    rw [ReadHandler.getBoolReg_unread hread]
    exact .of_eq rfl rfl _
  | some reply =>
    by_cases hcrc : checkCrc16 reply
        (BitVec.ofInt 32 (ReadHandler.getBoolReg.sizeReply f.queue.head)) = true
    · rw [getBoolReg_checked_failKeeps_iff hread hcrc]
      constructor
      · intro h reply' hsome _
        cases hsome
        exact h
      · intro h
        exact h reply rfl hcrc
    · refine iff_of_true ?_ fun reply' hsome hcrc' => ?_
      · simp only [getBoolReg, i2cReadLenghtMaster, ReadHandler.getBoolReg_sizeReply, hread]
        rw [if_neg hcrc]
        exact .of_eq rfl rfl _
      · cases hsome
        exact absurd hcrc' hcrc

/-- A failed exchange changes nothing unless it is a reply to `Get_Bool_Reg` with too
few bits, some of which change a register or the flag. -/
theorem handleReply_failKeeps_iff (e : Exchange) (statusAux : Int) (f : Firmware) :
    FailKeeps f (handleReply e statusAux f) ↔
      ∀ reply, f.queue.head.code = Modbus.getBoolReg →
        e.delivered (ReadHandler.getBoolReg.sizeReply f.queue.head) = some reply →
        checkCrc16 reply (BitVec.ofInt 32 (ReadHandler.getBoolReg.sizeReply f.queue.head)) = true →
        ReadHandler.getBoolReg.Admits f.queue.head reply ∨
          Harmless (bitWrites reply (List.range (8 * (reply 1).toNat))
            (f.queue.head.regAddr.signExtend 32)) f.regs := by
  by_cases hcode : f.queue.head.code = Modbus.getBoolReg
  · have hhandler : handleReply e statusAux f = getBoolReg e f := if_pos hcode
    rw [hhandler, getBoolReg_failKeeps_iff]
    exact forall_congr' fun _ => ⟨fun h _ => h, fun h => h hcode⟩
  · exact iff_of_true (handleReply_failKeeps hcode e statusAux) fun _ hbool => absurd hbool hcode

/-- Sixteen bools are asked for and one byte comes: the pump's bit is written. -/
theorem handleReply_failChanges :
    ¬ ∀ (e : Exchange) (statusAux : Int) (f : Firmware),
      FailKeeps f (handleReply e statusAux f) := by
  intro hall
  have hkeeps := hall (answering [0x01, 0x01, 0x80, 0x00]) 1
    (requestFirmware Modbus.getBoolReg pump 16) (by decide +kernel)
  exact absurd (congrFun hkeeps.1 0) (by decide +kernel)

end Recirculador
