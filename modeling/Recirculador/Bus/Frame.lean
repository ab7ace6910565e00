/-
The frame a message is sent in.

`Transfers k ws` says that `k` counts its time-outs and, if there are none,
returns `i2cStat_OK` after exactly the writes `ws`.  It composes along the early
returns of the send functions, so the writes of `i2cSend_master_modbus` are those
of its parts in a row.
-/
import Recirculador.Bus.Driver

namespace Recirculador

def BusAccess.isWrite : BusAccess → Bool
  | .readStat => false
  | .readMstdat => false
  | .mstdat _ => true
  | .mstctl _ => true

namespace I2c

def writes (b : I2c) : List BusAccess := b.trace.filter BusAccess.isWrite

/-- The writes that send a byte. -/
def sentByte (byte : BitVec 8) : List BusAccess :=
  [.mstdat (byte.setWidth 32), .mstctl .mstctlContinue]

structure Transfers (k : I2c → I2cStat × I2c) (ws : List BusAccess) : Prop where
  mono : ∀ b, b.timeOuts ≤ (k b).2.timeOuts
  sends : ∀ b, (k b).2.timeOuts = b.timeOuts →
    (k b).1 = .ok ∧ (k b).2.writes = b.writes ++ ws

/-! ## Waits -/

theorem writes_record_read {access : BusAccess} (h : access.isWrite = false) (b : I2c) :
    (b.record access).writes = b.writes := by
  simp [writes, record, h]

theorem writes_record_write {access : BusAccess} (h : access.isWrite = true) (b : I2c) :
    (b.record access).writes = b.writes ++ [access] := by
  simp [writes, record, h]

theorem poll_kept (test : Stat → Bool) (n : Nat) (b : I2c) :
    (b.poll test n).2.writes = b.writes ∧ (b.poll test n).2.timeOuts = b.timeOuts := by
  induction n generalizing b with
  | zero => exact ⟨rfl, rfl⟩
  | succ n ih =>
    have hread : b.readStat.2.writes = b.writes := writes_record_read rfl b
    rw [poll]
    split
    · exact ⟨hread, rfl⟩
    · obtain ⟨hwrites, htime⟩ := ih b.readStat.2
      exact ⟨hwrites.trans hread, htime⟩

theorem waitI2cMasterState_transfers (state : BitVec 3) :
    Transfers (waitI2cMasterState state) [] := by
  have hcases : ∀ b : I2c,
      ((b.waitI2cMasterState state).1 = .ok ∧
        (b.waitI2cMasterState state).2.writes = b.writes ∧
        (b.waitI2cMasterState state).2.timeOuts = b.timeOuts) ∨
      (b.waitI2cMasterState state).2.timeOuts = b.timeOuts + 1 := by
    intro b
    obtain ⟨hwrites, htime⟩ := poll_kept (fun s => s.pending) (loopWaitReceive + 2) b
    obtain ⟨hwrites', htime'⟩ := poll_kept (fun s => s.state == state) (loopWaitReceive + 1)
      (b.poll (fun s => s.pending) (loopWaitReceive + 2)).2
    rw [waitI2cMasterState]
    split
    · exact Or.inr (congrArg (fun n => n + 1) htime)
    dsimp only
    split
    · exact Or.inr (congrArg (fun n => n + 1) (htime'.trans htime))
    · exact Or.inl ⟨rfl, hwrites'.trans hwrites, htime'.trans htime⟩
  refine ⟨fun b => ?_, fun b hsame => ?_⟩
  · rcases hcases b with h | h
    · exact Nat.le_of_eq h.2.2.symm
    · omega
  · rcases hcases b with h | h
    · rw [List.append_nil]
      exact ⟨h.1, h.2.1⟩
    · omega

/-! ## Composition -/

namespace Transfers

variable {k k' : I2c → I2cStat × I2c} {ws ws' : List BusAccess}

theorem ifOk (h : Transfers k ws) (h' : Transfers k' ws') :
    Transfers (fun b => I2c.ifOk (k b) k') (ws ++ ws') := by
  refine ⟨fun b => ?_, fun b hsame => ?_⟩
  · have hmono := h.mono b
    have hmono' := h'.mono (k b).2
    dsimp only [I2c.ifOk]
    split
    · omega
    · exact hmono
  · have hmono := h.mono b
    have hmono' := h'.mono (k b).2
    dsimp only [I2c.ifOk] at hsame ⊢
    by_cases hok : (k b).1 = .ok
    · rw [if_pos hok] at hsame ⊢
      obtain ⟨-, hwrites⟩ := h.sends b (by omega)
      obtain ⟨hok', hwrites'⟩ := h'.sends (k b).2 (by omega)
      exact ⟨hok', by rw [hwrites', hwrites, List.append_assoc]⟩
    · rw [if_neg hok] at hsame
      exact absurd (h.sends b hsame).1 hok

/-- Two writes in front. -/
theorem afterWrites (h : Transfers k ws) (value : BitVec 32) (ctl : MstCtl) :
    Transfers (fun b => k ((b.writeMstdat value).writeMstctl ctl))
      (.mstdat value :: .mstctl ctl :: ws) := by
  refine ⟨fun b => h.mono ((b.writeMstdat value).writeMstctl ctl), fun b hsame => ?_⟩
  obtain ⟨hok, hwrites⟩ := h.sends ((b.writeMstdat value).writeMstctl ctl) hsame
  refine ⟨hok, ?_⟩
  rw [hwrites, writeMstctl, writes_record_write rfl, writeMstdat, writes_record_write rfl]
  simp only [List.append_assoc, List.cons_append, List.nil_append]

theorem done : Transfers (fun b => (.ok, b)) [] :=
  ⟨fun _ => Nat.le_refl _, fun b _ => ⟨rfl, (List.append_nil b.writes).symm⟩⟩

/-- A wait whose result is dropped, in front of a part that returns `i2cStat_OK`. -/
theorem dropped {g : I2c → I2c} (h : Transfers k ws) (h' : Transfers (fun b => (.ok, g b)) ws') :
    Transfers (fun b => (.ok, g (k b).2)) (ws ++ ws') := by
  refine ⟨fun b => Nat.le_trans (h.mono b) (h'.mono (k b).2), fun b hsame => ?_⟩
  have hmono := h.mono b
  have hmono' := h'.mono (k b).2
  dsimp only at hsame hmono'
  obtain ⟨-, hwrites⟩ := h.sends b (by omega)
  obtain ⟨-, hwrites'⟩ := h'.sends (k b).2 (by dsimp only; omega)
  refine ⟨rfl, ?_⟩
  dsimp only at hwrites' ⊢
  rw [hwrites', hwrites, List.append_assoc]

end Transfers

theorem sendLoop_transfers (bytes : List (BitVec 8)) :
    Transfers (sendLoop bytes) (bytes.flatMap sentByte) := by
  induction bytes with
  | nil => exact .done
  | cons byte bytes ih =>
    exact (waitI2cMasterState_transfers i2cStatMststTxrdy).ifOk
      (ih.afterWrites (byte.setWidth 32) .mstctlContinue)

theorem endSend_transfers :
    Transfers (fun b => (.ok, b.endSend)) [.mstdat 0, .mstctl .mstctlStop] :=
  (waitI2cMasterState_transfers i2cStatMststTxrdy).dropped
    (((waitI2cMasterState_transfers i2cStatMststIdle).dropped .done).afterWrites 0 .mstctlStop)

theorem startTransfer_transfers (addr : BitVec 8) :
    Transfers (fun b => (b.startTransfer addr 0).waitI2cMasterState i2cStatMststTxrdy)
      [.mstdat (addr.setWidth 32 <<< 1), .mstctl .mstctlStart] := by
  have hbit : addr.setWidth 32 <<< 1 = (addr.setWidth 32 <<< 1) ||| 0 := BitVec.or_zero.symm
  rw [hbit]
  exact (waitI2cMasterState_transfers i2cStatMststTxrdy).afterWrites _ .mstctlStart

/-- The address, the bytes of the frame and the dummy byte of the end. -/
def frameWrites (addr : BitVec 8) (frame : List (BitVec 8)) : List BusAccess :=
  .mstdat (addr.setWidth 32 <<< 1) :: .mstctl .mstctlStart ::
    (frame.flatMap sentByte ++ [.mstdat 0, .mstctl .mstctlStop])

theorem sendFrame_transfers (payload : Nat → BitVec 8) (m : I2cModbus) :
    Transfers (sendFrame payload m) (frameWrites m.addr
      (m.headBytes ++ m.payloadBytes payload ++ crcBytes m.crc)) := by
  have htail := (sendLoop_transfers (crcBytes m.crc)).ifOk endSend_transfers
  have hbody := (sendLoop_transfers (m.payloadBytes payload)).ifOk htail
  have h := (startTransfer_transfers m.addr).ifOk ((sendLoop_transfers m.headBytes).ifOk hbody)
  simp only [List.cons_append, List.nil_append] at h
  simp only [frameWrites, List.flatMap_append, List.append_assoc]
  exact h

/-- A transfer of `i2cSend_master` is a frame without a checksum. -/
theorem sendMaster_transfers (addr : BitVec 8) (message : List (BitVec 8)) :
    Transfers (sendMaster addr message) (frameWrites addr message) :=
  (waitI2cMasterState_transfers i2cStatMststIdle).ifOk
    ((startTransfer_transfers addr).ifOk ((sendLoop_transfers message).ifOk endSend_transfers))

/-! ## The frame and its checksum -/

/-- Widening keeps a size that is not negative. -/
theorem toNat_signExtend {size : BitVec 16} (h : 0 ≤ size.toInt) :
    (size.signExtend 32).toNat = size.toInt.toNat := by
  have hwide : (size.signExtend 32).toInt = size.toInt :=
    BitVec.toInt_signExtend_of_le (by omega)
  have hlt := (size.signExtend 32).isLt
  rw [BitVec.toInt_eq_toNat_cond] at hwide
  split at hwide
  · omega
  · omega

theorem frameCrc_eq {m : I2cModbus} (hhead : 0 ≤ m.sizeHead.toInt) (hsize : 0 ≤ m.sizeMessage.toInt)
    (payload : Nat → BitVec 8) :
    m.frameCrc payload = crcList (m.headBytes ++ m.payloadBytes payload) := by
  rw [I2cModbus.frameCrc, modbusStructCrc16_eq, toNat_signExtend hhead, toNat_signExtend hsize]
  rfl

/-- A head inside the structure is its first bytes. -/
theorem headBytes_eq_take {m : I2cModbus} (h : m.sizeHead.toInt ≤ 17) :
    m.headBytes = m.structBytes.take m.sizeHead.toInt.toNat := by
  have hlen : m.structBytes.length = 17 := rfl
  apply List.ext_getElem
  · rw [I2cModbus.headBytes, List.length_map, List.length_range, List.length_take, hlen]
    omega
  · intro i hi hi'
    have hin : i < m.structBytes.length := by
      rw [List.length_take] at hi'
      omega
    simp only [I2cModbus.headBytes, List.getElem_map, List.getElem_range, List.getElem_take]
    rw [List.getD_eq_getElem?_getD, List.getElem?_eq_getElem hin, Option.getD_some]

/-- The frame of a message and its checksum, as `CHECK_CRC16` has to find them. -/
def frame (payload : Nat → BitVec 8) (m : I2cModbus) : List (BitVec 8) :=
  let bytes := m.structBytes.take m.sizeHead.toInt.toNat ++ m.payloadBytes payload
  let crc := modbusCrc16 (fun i => bytes.getD i 0) bytes.length
  bytes ++ [crc.setWidth 8, (crc >>> 8).setWidth 8]

theorem frame_length_lt {m : I2cModbus} (hhead : m.sizeHead.toInt ≤ 6) (payload : Nat → BitVec 8) :
    (m.structBytes.take m.sizeHead.toInt.toNat ++ m.payloadBytes payload).length + 2 <
      0x100000000 := by
  have hsize : m.sizeMessage.toInt < 32768 := by
    have := BitVec.toInt_lt (x := m.sizeMessage)
    omega
  rw [List.length_append, List.length_take, I2cModbus.payloadBytes, List.length_map,
    List.length_range]
  omega

theorem frame_checked {m : I2cModbus} (hhead : m.sizeHead.toInt ≤ 6) (payload : Nat → BitVec 8) :
    checkCrc16 (fun i => (frame payload m).getD i 0)
      (BitVec.ofNat 32 (frame payload m).length) = true := by
  have hlen : (frame payload m).length =
      (m.structBytes.take m.sizeHead.toInt.toNat ++ m.payloadBytes payload).length + 2 := by
    rw [frame, List.length_append]
    rfl
  rw [hlen]
  exact (checkCrc16_append _ _ (frame_length_lt hhead payload)).mpr (modbusCrc16_list _)

/-- The checksum is stored behind the bytes a head can hold. -/
theorem take_structBytes_crc {n : Nat} (hn : n ≤ 10) (m : I2cModbus) (crc : BitVec 16) :
    ({ m with crc } : I2cModbus).structBytes.take n = m.structBytes.take n := by
  have htake : ∀ l : List (BitVec 8), l.take n = (l.take 10).take n := fun l => by
    rw [List.take_take, Nat.min_eq_left hn]
  rw [htake, htake m.structBytes]
  rfl

/-- The frame does not depend on the checksum the message had. -/
theorem headBytes_crc {m : I2cModbus} (hhead : m.sizeHead.toInt ≤ 6) (crc : BitVec 16) :
    ({ m with crc } : I2cModbus).headBytes = m.headBytes := by
  rw [headBytes_eq_take (m := m) (by omega), ← take_structBytes_crc (by omega) m crc]
  exact headBytes_eq_take (m := { m with crc }) (show m.sizeHead.toInt ≤ 17 by omega)

theorem frameCrc_crc {m : I2cModbus} (hpos : 0 ≤ m.sizeHead.toInt) (hhead : m.sizeHead.toInt ≤ 6)
    (hsize : 0 ≤ m.sizeMessage.toInt) (payload : Nat → BitVec 8) (crc : BitVec 16) :
    ({ m with crc } : I2cModbus).frameCrc payload = m.frameCrc payload := by
  rw [frameCrc_eq hpos hsize, frameCrc_eq (m := { m with crc }) hpos hsize, headBytes_crc hhead]
  rfl

theorem frame_eq {m : I2cModbus} (hpos : 0 ≤ m.sizeHead.toInt) (hhead : m.sizeHead.toInt ≤ 6)
    (hsize : 0 ≤ m.sizeMessage.toInt) (payload : Nat → BitVec 8) :
    frame payload m = m.headBytes ++ m.payloadBytes payload ++ crcBytes (m.frameCrc payload) := by
  rw [frameCrc_eq hpos hsize, headBytes_eq_take (by omega), frame, modbusCrc16_list]
  rfl

theorem sentBytes_eq_frame {m : I2cModbus} (hpos : 0 ≤ m.sizeHead.toInt)
    (hhead : m.sizeHead.toInt ≤ 6) (hsize : 0 ≤ m.sizeMessage.toInt)
    (payload : Nat → BitVec 8) :
    ({ m with crc := m.frameCrc payload } : I2cModbus).headBytes ++
        ({ m with crc := m.frameCrc payload } : I2cModbus).payloadBytes payload ++
        crcBytes (m.frameCrc payload) = frame payload m := by
  rw [headBytes_crc hhead, frame_eq hpos hhead hsize]
  rfl

theorem sendMasterModbus_eq (payload : Nat → BitVec 8) (m : I2cModbus) (b : I2c) :
    ((b.sendMasterModbus payload m).1, (b.sendMasterModbus payload m).2.2) =
      ifOk (b.waitI2cMasterState i2cStatMststIdle)
        (sendFrame payload { m with crc := m.frameCrc payload }) := by
  rw [sendMasterModbus, ifOk]
  by_cases hok : (b.waitI2cMasterState i2cStatMststIdle).1 = .ok
  · rw [if_neg (not_not_intro hok), if_pos hok]
  · rw [if_pos hok, if_neg hok]

/-- If every wait succeeds, `i2cSend_master_modbus` writes the address, the frame
and the dummy byte, and the frame passes `CHECK_CRC16`. -/
theorem sendMasterModbus_frame {m : I2cModbus} (payload : Nat → BitVec 8) {b : I2c}
    (hpos : 1 ≤ m.sizeHead.toInt) (hhead : m.sizeHead.toInt ≤ 6) (hsize : 0 ≤ m.sizeMessage.toInt)
    (hwaits : (b.sendMasterModbus payload m).2.2.timeOuts = b.timeOuts) :
    (b.sendMasterModbus payload m).1 = .ok ∧
      (b.sendMasterModbus payload m).2.2.writes =
        b.writes ++ [.mstdat (m.addr.setWidth 32 <<< 1), .mstctl .mstctlStart] ++
          (frame payload m).flatMap (fun byte =>
            [.mstdat (byte.setWidth 32), .mstctl .mstctlContinue]) ++
          [.mstdat 0, .mstctl .mstctlStop] ∧
      checkCrc16 (fun i => (frame payload m).getD i 0)
        (BitVec.ofNat 32 (frame payload m).length) = true ∧
      ∀ h p : List (BitVec 8),
        modbusStructCrc16 (fun i => h.getD i 0) h.length (fun i => p.getD i 0) p.length =
          modbusCrc16 (fun i => (h ++ p).getD i 0) (h ++ p).length := by
  have hsend := (waitI2cMasterState_transfers i2cStatMststIdle).ifOk
    (sendFrame_transfers payload { m with crc := m.frameCrc payload })
  have heq := sendMasterModbus_eq payload m b
  rw [sentBytes_eq_frame (by omega) hhead hsize] at hsend
  obtain ⟨hok, hwrites⟩ := hsend.sends b (by rw [← heq]; exact hwaits)
  rw [← heq] at hok hwrites
  refine ⟨hok, ?_, frame_checked hhead payload, modbusStructCrc16_list⟩
  rw [hwrites, List.append_assoc, List.append_assoc]
  rfl

/-- A controller that is idle for the first wait and the last and ready to send in
between. -/
def readyBus : I2c where
  stat := fun n => ⟨true, if n < 2 ∨ 60 ≤ n then i2cStatMststIdle else i2cStatMststTxrdy⟩
  mstdat := fun _ => 0
  trace := []
  timeOuts := 0

/-- A write of the first int register. -/
def writeMessage : I2cModbus :=
  { messageDefault with
    code := Modbus.setMultNumReg
    regAddr := 5000
    nReg := 1
    bytes := 4
    addr := sysI2cAddrWiFi
    sizeHead := 6
    sizeMessage := 4 }

def writePayload (i : Nat) : BitVec 8 := BitVec.ofNat 8 (17 * i + 3)

theorem sendMasterModbus_frame_write :
    (readyBus.sendMasterModbus writePayload writeMessage).1 = .ok ∧
      (frame writePayload writeMessage).length = 12 ∧
      checkCrc16 (fun i => (frame writePayload writeMessage).getD i 0)
        (BitVec.ofNat 32 (frame writePayload writeMessage).length) = true := by
  have hframe := sendMasterModbus_frame (m := writeMessage) writePayload (b := readyBus)
    (by decide) (by decide) (by decide) (by decide +kernel)
  exact ⟨hframe.1, rfl, hframe.2.2.1⟩

end I2c

end Recirculador
