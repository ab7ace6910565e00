/-
How often a transfer reaches for the controller.

Every wait of the driver is a bounded poll, so whatever the controller shows, a transfer comes
to its end after so many accesses: some for the start and the end, and a fixed number a byte.
The reads without a length go on for 0x1FF bytes at most.
-/
import Recirculador.Bus.Reader

namespace Recirculador
namespace I2c

/-- At most `n` accesses lead from `b` to `b'`. -/
def Costs (n : Nat) (b b' : I2c) : Prop := b'.trace.length ≤ b.trace.length + n

variable {m n n' : Nat} {b b₁ b₂ : I2c}

theorem Costs.refl (b : I2c) : Costs 0 b b := Nat.le_refl _

theorem Costs.trans (h : Costs n b b₁) (h' : Costs n' b₁ b₂) : Costs (n + n') b b₂ := by
  rw [Costs] at h h' ⊢
  omega

theorem Costs.mono (h : Costs n b b₁) (hle : n ≤ m) : Costs m b b₁ := by
  rw [Costs] at h ⊢
  omega

theorem record_costs (access : BusAccess) (b : I2c) : Costs 1 b (b.record access) := by
  show (b.trace ++ [access]).length ≤ b.trace.length + 1
  rw [List.length_append]
  exact Nat.le_refl _

theorem writes_cost (value : BitVec 32) (ctl : MstCtl) (b : I2c) :
    Costs 2 b ((b.writeMstdat value).writeMstctl ctl) :=
  (record_costs (.mstdat value) b).trans (record_costs (.mstctl ctl) _)

/-! ## Waits -/

theorem poll_costs (test : Stat → Bool) (n : Nat) (b : I2c) : Costs n b (b.poll test n).2 := by
  induction n generalizing b with
  | zero => exact .refl b
  | succ n ih =>
    have hread : Costs 1 b b.readStat.2 := record_costs .readStat b
    rw [poll]
    split
    · exact hread.mono (by omega)
    · exact (hread.trans (ih b.readStat.2)).mono (by omega)

theorem giveUp_costs (b : I2c) : Costs 2 b b.giveUp := writes_cost 0 .mstctlStop b

theorem waitI2cMasterState_costs (state : BitVec 3) (b : I2c) :
    Costs 45 b (b.waitI2cMasterState state).2 := by
  have hpending := poll_costs (fun s => s.pending) (loopWaitReceive + 2) b
  have hreached := poll_costs (fun s => s.state == state) (loopWaitReceive + 1)
    (b.poll (fun s => s.pending) (loopWaitReceive + 2)).2
  rw [waitI2cMasterState]
  split
  · exact (hpending.trans (giveUp_costs _)).mono (by decide)
  · dsimp only
    split
    · exact ((hpending.trans hreached).trans (giveUp_costs _)).mono (by decide)
    · exact (hpending.trans hreached).mono (by decide)

theorem waitI2cMasterRxrdy_costs (b : I2c) : Costs 68 b b.waitI2cMasterRxrdy.2 := by
  have hreached := poll_costs (fun s => s.state == i2cStatMststRxrdy) (loopWaitReceive + 2) b
  rw [waitI2cMasterRxrdy]
  split
  · let polled := (b.poll (fun s => s.state == i2cStatMststRxrdy) (loopWaitReceive + 2)).2
    let stopped := { polled.writeMstctl .mstctlStop with timeOuts := polled.timeOuts + 1 }
    have hstop : Costs 1 polled stopped := record_costs (.mstctl .mstctlStop) polled
    have hidle := waitI2cMasterState_costs i2cStatMststIdle stopped
    exact ((hreached.trans hstop).trans hidle).mono (by decide)
  · exact hreached.mono (by decide)

theorem ifOk_costs {r : I2cStat × I2c} {k : I2c → I2cStat × I2c} (h : Costs n b r.2)
    (hk : ∀ b', Costs n' b' (k b').2) : Costs (n + n') b (ifOk r k).2 := by
  rw [ifOk]
  split
  · exact h.trans (hk r.2)
  · exact h.mono (by omega)

/-! ## Sending -/

theorem sendLoop_costs (bytes : List (BitVec 8)) (b : I2c) :
    Costs (47 * bytes.length) b (sendLoop bytes b).2 := by
  induction bytes generalizing b with
  | nil => exact .refl b
  | cons byte bytes ih =>
    rw [sendLoop, List.length_cons]
    refine (ifOk_costs (waitI2cMasterState_costs _ b) fun b' => ?_).mono
      (show 45 + (2 + 47 * bytes.length) ≤ _ by omega)
    exact (writes_cost _ _ b').trans (ih _)

theorem endSend_costs (b : I2c) : Costs 92 b b.endSend :=
  ((waitI2cMasterState_costs _ b).trans (writes_cost _ _ _)).trans (waitI2cMasterState_costs _ _)

/-- The most a transfer of `n` bytes takes. -/
def sendCost (n : Nat) : Nat := 184 + 47 * n

theorem sendMaster_costs (addr : BitVec 8) (message : List (BitVec 8)) (b : I2c) :
    Costs (sendCost message.length) b (b.sendMaster addr message).2 := by
  have hstart : ∀ b : I2c, Costs 47 b
      ((b.startTransfer addr 0).waitI2cMasterState i2cStatMststTxrdy).2 := fun b =>
    (writes_cost _ _ b).trans (waitI2cMasterState_costs _ _)
  have hall := ifOk_costs (waitI2cMasterState_costs i2cStatMststIdle b) fun b =>
    ifOk_costs (hstart b) fun b =>
    ifOk_costs (sendLoop_costs message b) (k := fun b => (.ok, b.endSend)) fun b => endSend_costs b
  exact hall.mono (show _ ≤ 184 + 47 * message.length by omega)

theorem length_headBytes (m : I2cModbus) : m.headBytes.length = m.sizeHead.toInt.toNat := by
  rw [I2cModbus.headBytes, List.length_map, List.length_range]

theorem length_payloadBytes (payload : Nat → BitVec 8) (m : I2cModbus) :
    (m.payloadBytes payload).length = m.sizeMessage.toInt.toNat := by
  rw [I2cModbus.payloadBytes, List.length_map, List.length_range]

/-- Head, payload and checksum. -/
def messageLength (m : I2cModbus) : Nat := m.sizeHead.toInt.toNat + m.sizeMessage.toInt.toNat + 2

theorem sendMasterModbus_costs (payload : Nat → BitVec 8) (m : I2cModbus) (b : I2c) :
    Costs (sendCost (messageLength m)) b (b.sendMasterModbus payload m).2.2 := by
  have hwait := waitI2cMasterState_costs i2cStatMststIdle b
  rw [sendMasterModbus]
  dsimp only
  split
  · exact hwait.mono (show 45 ≤ 184 + 47 * messageLength m by omega)
  · have hstart : ∀ b : I2c, Costs 47 b
        ((b.startTransfer m.addr 0).waitI2cMasterState i2cStatMststTxrdy).2 := fun b =>
      (writes_cost _ _ b).trans (waitI2cMasterState_costs _ _)
    let message := { m with crc := m.frameCrc payload }
    have hframe : Costs (139 + 47 * messageLength m) (b.waitI2cMasterState i2cStatMststIdle).2
        (sendFrame payload message (b.waitI2cMasterState i2cStatMststIdle).2).2 := by
      have hparts := ifOk_costs (hstart (b.waitI2cMasterState i2cStatMststIdle).2) fun b =>
        ifOk_costs (sendLoop_costs message.headBytes b) fun b =>
        ifOk_costs (sendLoop_costs (message.payloadBytes payload) b) fun b =>
        ifOk_costs (sendLoop_costs (crcBytes message.crc) b)
          (k := fun b => (.ok, b.endSend)) fun b => endSend_costs b
      refine hparts.mono ?_
      rw [length_headBytes, length_payloadBytes, messageLength]
      show 47 + (47 * m.sizeHead.toInt.toNat + (47 * m.sizeMessage.toInt.toNat +
        (47 * 2 + 92))) ≤ _
      omega
    exact (hwait.trans hframe).mono (show _ ≤ 184 + 47 * messageLength m by omega)

/-! ## Reading -/

theorem readLoop_costs (n i : Nat) (b : I2c) (r : Buffer) :
    Costs (47 * n) b (readLoop n i b r).2.1 := by
  induction n generalizing i b r with
  | zero => exact .refl b
  | succ n ih =>
    have hwait := waitI2cMasterState_costs i2cStatMststRxrdy b
    rw [readLoop]
    dsimp only
    split
    · exact hwait.mono (by omega)
    · have hbyte := (record_costs .readMstdat (b.waitI2cMasterState i2cStatMststRxrdy).2).trans
        (record_costs (.mstctl .mstctlContinue) _)
      exact ((hwait.trans hbyte).trans (ih (i + 1) _ _)).mono (by omega)

theorem clearLoop_costs (n : Nat) (b : I2c) : Costs (47 * n) b (clearLoop n b).2 := by
  induction n generalizing b with
  | zero => exact .refl b
  | succ n ih =>
    rw [clearLoop]
    have hbyte : ∀ b : I2c, Costs 2 b (b.readMstdat.2.writeMstctl .mstctlContinue) := fun b =>
      (record_costs .readMstdat b).trans (record_costs (.mstctl .mstctlContinue) _)
    exact (ifOk_costs (waitI2cMasterState_costs _ b) fun b => (hbyte b).trans (ih _)).mono
      (by omega)

theorem readMaster_costs (addr : BitVec 8) (b : I2c) (r : Buffer) :
    Costs 24110 b (b.readMaster addr r).2.1 := by
  have hwait := waitI2cMasterState_costs i2cStatMststIdle b
  have hloop := (writes_cost ((addr.setWidth 32 <<< 1) ||| 1) .mstctlStart _).trans
    (readLoop_costs 0x1FF 0
      ((b.waitI2cMasterState i2cStatMststIdle).2.startTransfer addr 1) r)
  rw [readMaster]
  dsimp only
  split
  · exact hwait.mono (by decide)
  · split
    · exact (hwait.trans hloop).mono (by decide)
    · have hstop := record_costs (.mstctl .mstctlStop) (readLoop 0x1FF 0
        ((b.waitI2cMasterState i2cStatMststIdle).2.startTransfer addr 1) r).2.1
      exact ((hwait.trans hloop).trans (hstop.trans (waitI2cMasterState_costs _ _))).mono
        (by decide)

theorem readClearBufferMaster_costs (addr : BitVec 8) (b : I2c) :
    Costs 24110 b (b.readClearBufferMaster addr).2 := by
  have hloop : ∀ b : I2c, Costs (2 + 47 * 0x1FF) b (clearLoop 0x1FF (b.startTransfer addr 1)).2 :=
    fun b => (writes_cost ((addr.setWidth 32 <<< 1) ||| 1) .mstctlStart b).trans
      (clearLoop_costs 0x1FF _)
  have hend : ∀ b : I2c, Costs 46 b
      ((b.writeMstctl .mstctlStop).waitI2cMasterState i2cStatMststIdle).2 := fun b =>
    (record_costs (.mstctl .mstctlStop) b).trans (waitI2cMasterState_costs _ _)
  have hall := ifOk_costs (waitI2cMasterState_costs i2cStatMststIdle b) fun b =>
    ifOk_costs (k := fun b =>
      (.ok, ((b.writeMstctl .mstctlStop).waitI2cMasterState i2cStatMststIdle).2)) (hloop b) hend
  exact hall.mono (by decide)

/-- Up to 255 the counter gets to the length. -/
theorem readLenghtLoop_costs {len : Nat} (hlen : len ≤ 255) (fuel : Nat) (i : BitVec 8)
    (hi : i.toNat ≤ len) (b : I2c) (r : Buffer) :
    Costs (70 * (len - i.toNat)) b (readLenghtLoop len fuel i b r).2.1 := by
  induction fuel generalizing i b r with
  | zero => exact (Costs.refl b).mono (Nat.zero_le _)
  | succ fuel ih =>
    have hwait := waitI2cMasterRxrdy_costs b
    rw [readLenghtLoop]
    dsimp only
    split
    · rename_i hmore
      have hnext : (i + 1).toNat = i.toNat + 1 := by bv_omega
      split
      · exact hwait.mono (by omega)
      · have hbyte := (record_costs .readMstdat b.waitI2cMasterRxrdy.2).trans
          (record_costs (.mstctl .mstctlContinue) _)
        have hrest := ih (i + 1) (by omega)
        rw [hnext] at hrest
        exact ((hwait.trans hbyte).trans (hrest _ _)).mono (by omega)
    · exact (Costs.refl b).mono (Nat.zero_le _)

theorem endRead_costs (b : I2c) : Costs 115 b b.endRead :=
  ((waitI2cMasterRxrdy_costs b).trans (writes_cost _ _ _)).trans (waitI2cMasterState_costs _ _)

/-- The most a read of `len` bytes takes. -/
def readCost (len : Nat) : Nat := 2164 + 70 * len

theorem readLenghtMaster_costs {len : Nat} (hlen : len ≤ 255) (fuel : Nat) (addr : BitVec 8)
    (b : I2c) (r : Buffer) : Costs (readCost len) b (b.readLenghtMaster fuel addr len r).2.1 := by
  let started := (b.waitI2cMasterState i2cStatMststIdle).2.startTransfer addr 1
  let pending := started.poll (fun s => s.pending) (100 * loopWaitReceive + 2)
  have hwait := waitI2cMasterState_costs i2cStatMststIdle b
  have hstart : Costs 2 (b.waitI2cMasterState i2cStatMststIdle).2 started := writes_cost _ _ _
  have hpoll : Costs 2002 started pending.2 := poll_costs _ _ _
  have hpending := (hwait.trans hstart).trans hpoll
  have hloop : Costs (70 * len) pending.2 (readLenghtLoop len fuel 0 pending.2 r).2.1 :=
    readLenghtLoop_costs hlen fuel 0 (Nat.zero_le _) pending.2 r
  rw [readLenghtMaster]
  dsimp only
  split
  · exact hwait.mono (show _ ≤ 2164 + 70 * len by omega)
  · split
    · exact (hpending.trans (giveUp_costs _)).mono (show _ ≤ 2164 + 70 * len by omega)
    · split
      · exact (hpending.trans hloop).mono (show _ ≤ 2164 + 70 * len by omega)
      · exact ((hpending.trans hloop).trans (endRead_costs _)).mono
          (show _ ≤ 2164 + 70 * len by omega)

end I2c
end Recirculador
