/-
The frames of the program, read back.

A slave that follows the format takes the request off the wire again: the checksum is
right, and the registers a frame announces hold what the payload says.  So every message of
a run but the filler that goes out whole and undisturbed tells the slave the registers of
that moment.
-/
import Recirculador.Message.Payload
import Recirculador.Registers.Vector

namespace Recirculador

open SysRegMap Registers

/-! ## The format -/

inductive Request
  | setMultNumReg (regAddr nReg : BitVec 16) (payload : List (BitVec 8))
  | reportSlaveId
  deriving DecidableEq

/-- A frame without its checksum: the code alone, or the head of six bytes and as many
bytes of payload as its last byte says. -/
def decodeBody : List (BitVec 8) → Option Request
  | [code] => if code = Modbus.reportSlaveId then some .reportSlaveId else none
  | code :: addrLow :: addrHigh :: nLow :: nHigh :: bytes :: payload =>
    if code = Modbus.setMultNumReg ∧ payload.length = bytes.toNat then
      some (.setMultNumReg (addrHigh ++ addrLow) (nHigh ++ nLow) payload)
    else none
  | _ => none

def decodeFrame (frame : List (BitVec 8)) : Option Request :=
  if checkCrc16 (fun i => frame.getD i 0) (BitVec.ofNat 32 frame.length) then
    decodeBody (frame.take (frame.length - 2))
  else none

/-- The value a payload has for the `k`-th register it names. -/
def payloadCell (payload : List (BitVec 8)) : Bank → Nat → Int
  | .bool, k => ((payload.getD (k / 8) 0).getLsbD (7 - k % 8)).toInt
  | .short, k => (ByteMemory.load 2 (fun i => payload.getD i 0) (2 * k)).toInt
  | .int, k => (ByteMemory.load 4 (fun i => payload.getD i 0) (4 * k)).toInt

/-- The registers a request names lie in one bank and hold the values of the payload. -/
def Request.Shows (r : Registers) : Request → Prop
  | .setMultNumReg regAddr nReg payload => ∃ (b : Bank) (index : Nat),
    regAddr.toNat = b.offset + index ∧ index + nReg.toNat ≤ 128 ∧ 0 < nReg.toNat ∧
      ∀ k, k < nReg.toNat → payloadCell payload b k = r.cell b (index + k)
  | .reportSlaveId => True

/-! ## Blocks of registers -/

namespace Block

/-- The place of the first register of a block in its bank. -/
def index (b : Block) : Nat := b.regAddr - b.bank.offset

theorem cell_eq {b : Block} (hmem : b ∈ all) {r : Registers} {payload : List (BitVec 8)}
    (hpayload : ∀ i, i < b.size → payload.getD i 0 = r.regVet (b.offset + i)) {k : Nat}
    (hk : k < b.nReg) : payloadCell payload b.bank k = r.cell b.bank (b.index + k) := by
  simp only [all, List.mem_cons, List.not_mem_nil, or_false] at hmem
  have hload : ∀ n off off' : Nat,
      (∀ j, j < n → off + j < b.size ∧ b.offset + (off + j) = off' + j) →
      ByteMemory.load n (fun i => payload.getD i 0) off = ByteMemory.load n r.regVet off' := by
    intro n off off' hin
    refine ByteMemory.load_congr fun j hj => ?_
    obtain ⟨hsize, hplace⟩ := hin j hj
    rw [hpayload (off + j) hsize, hplace]
  rcases hmem with rfl | rfl | rfl | rfl
  · have hbyte := hpayload (k / 8) (by simp only [bools] at hk ⊢; omega)
    have hoffset : bools.offset + k / 8 = k / 8 := Nat.zero_add (k / 8)
    show (((payload.getD (k / 8) 0).getLsbD (7 - k % 8)).toInt : Int) = (r.boolBit (0 + k)).toInt
    rw [hbyte, hoffset, boolBit, Nat.zero_add]
  · show ((ByteMemory.load 2 _ (2 * k)).toInt : Int) = (r.shortRegVet (0 + k)).toInt
    rw [shortRegVet, hload 2 (2 * k) (shortBase + 2 * (0 + k))]
    intro j hj
    simp only [shorts] at hk ⊢
    omega
  · show ((ByteMemory.load 4 _ (4 * k)).toInt : Int) = (r.intRegVet (14 + k)).toInt
    rw [intRegVet, hload 4 (4 * k) (intBase + 4 * (14 + k))]
    intro j hj
    simp only [statics] at hk ⊢
    omega
  · show ((ByteMemory.load 4 _ (4 * k)).toInt : Int) = (r.intRegVet (0 + k)).toInt
    rw [intRegVet, hload 4 (4 * k) (intBase + 4 * (0 + k))]
    intro j hj
    simp only [measures] at hk ⊢
    omega

/-- The place of a block in its bank, in numbers that fit the fields of a message. -/
theorem place {b : Block} (hmem : b ∈ all) :
    b.regAddr = b.bank.offset + b.index ∧ b.index + b.nReg ≤ 128 ∧ 0 < b.nReg ∧
      b.regAddr < 65536 := by
  simp only [all, List.mem_cons, List.not_mem_nil, or_false] at hmem
  rcases hmem with rfl | rfl | rfl | rfl <;> decide

end Block

/-! ## Reading a frame back -/

theorem high_append_low (v : BitVec 16) : (v >>> 8).setWidth 8 ++ v.setWidth 8 = v := by
  apply BitVec.eq_of_getLsbD_eq
  intro i hi
  rw [BitVec.getLsbD_append]
  split
  · rename_i hlow
    simp [hlow]
  · rename_i hhigh
    have hplace : 8 + (i - 8) = i := by omega
    have hbound : i - 8 < 8 := by omega
    simp [hplace, hbound]

theorem decodeFrame_frame {m : I2cModbus} (hhead : m.sizeHead.toInt ≤ 6)
    (payload : Nat → BitVec 8) : decodeFrame (I2c.frame payload m) =
      decodeBody (m.structBytes.take m.sizeHead.toInt.toNat ++ m.payloadBytes payload) := by
  rw [decodeFrame, if_pos (I2c.frame_checked hhead payload)]
  congr 1
  rw [I2c.frame]
  rw [List.length_append, List.length_cons, List.length_singleton, Nat.add_sub_cancel,
    List.take_left]

namespace Built

variable {f : Firmware} {m : I2cModbus}

/-- A frame of the program says what the register file holds. -/
theorem decodeFrame (h : Built f.regVetAddr m) (hcode : m.code ≠ 0) (memory : Nat → BitVec 8) :
    ∃ request, decodeFrame (I2c.frame (fun i =>
      f.deref memory (m.ptrMessage + BitVec.ofNat 32 i)) m) = some request ∧
        request.Shows f.regs := by
  cases h with
  | filler hfiller _ _ => exact absurd hfiller hcode
  | status hstatus hhead hsize =>
    refine ⟨.reportSlaveId, ?_, trivial⟩
    rw [decodeFrame_frame (by rw [hhead]; decide), I2cModbus.payloadBytes, hhead, hsize]
    show decodeBody [m.code] = _
    rw [hstatus]
    rfl
  | block b hmem hb =>
    obtain ⟨hinside, -, hsmall⟩ := Block.inside hmem
    obtain ⟨hplace, hfits, hpos, haddr⟩ := Block.place hmem
    have hsize := hb.size_eq hsmall
    let payload := fun i => f.deref memory (m.ptrMessage + BitVec.ofNat 32 i)
    have hlength : (m.payloadBytes payload).length = m.bytes.toNat := by
      rw [I2cModbus.payloadBytes, List.length_map, List.length_range, hsize, hb.bytes,
        BitVec.toNat_ofNat]
      omega
    have hbytes : ∀ i, i < b.size →
        (m.payloadBytes payload).getD i 0 = f.regs.regVet (b.offset + i) := by
      intro i hi
      have hrange : i < m.sizeMessage.toInt.toNat := by omega
      rw [I2cModbus.payloadBytes, List.getD_eq_getElem?_getD, List.getElem?_map,
        List.getElem?_range hrange]
      exact hb.deref_eq (by omega) memory
    have hregAddr : m.regAddr.toNat = b.regAddr := by
      rw [hb.regAddr, BitVec.toNat_ofNat]
      exact Nat.mod_eq_of_lt haddr
    have hnReg : m.nReg.toNat = b.nReg := by
      rw [hb.nReg, BitVec.toNat_ofNat]
      exact Nat.mod_eq_of_lt (by omega)
    refine ⟨.setMultNumReg m.regAddr m.nReg (m.payloadBytes payload), ?_, b.bank, b.index, ?_⟩
    · rw [decodeFrame_frame (by rw [hb.sizeHead]; decide), hb.sizeHead]
      show decodeBody (m.code :: m.regAddr.setWidth 8 :: (m.regAddr >>> 8).setWidth 8 ::
        m.nReg.setWidth 8 :: (m.nReg >>> 8).setWidth 8 :: m.bytes :: m.payloadBytes payload) = _
      rw [decodeBody, if_pos ⟨hb.code, hlength⟩, high_append_low, high_append_low]
    · rw [hregAddr, hnReg]
      exact ⟨hplace, hfits, hpos, fun k hk => Block.cell_eq hmem hbytes hk⟩

/-- Its sizes are those of a head that is part of the structure. -/
theorem sizes (h : Built f.regVetAddr m) :
    0 ≤ m.sizeHead.toInt ∧ m.sizeHead.toInt ≤ 6 ∧ 0 ≤ m.sizeMessage.toInt := by
  cases h with
  | filler _ hhead hsize =>
    rw [hhead, hsize]
    decide
  | status _ hhead hsize =>
    rw [hhead, hsize]
    decide
  | block b hmem hb =>
    have hsize := hb.size_eq (Block.inside hmem).2.2
    rw [hb.sizeHead, hsize]
    exact ⟨by decide, by decide, Int.natCast_nonneg b.size⟩

end Built

/-! ## Runs -/

namespace Machine

/-- The transfer of the message at the pointer is a frame that reads back as a request and shows
the registers: of a message that is not the filler, if every wait succeeds and no interrupt
comes during the transfer. -/
def SendsRegisters (s : Machine) : Prop :=
  ∀ (memory : Nat → BitVec 8) (b : I2c),
    let m := s.firmware.queue.head
    let sent := b.sendMasterModbus
      (fun i => s.firmware.deref memory (m.ptrMessage + BitVec.ofNat 32 i)) m
    m.code ≠ 0 → sent.2.2.timeOuts = b.timeOuts →
      ∃ frame request, sent.2.2.writes = b.writes ++ I2c.frameWrites m.addr frame ∧
        decodeFrame frame = some request ∧ request.Shows s.firmware.regs

theorem sendsRegisters {s : Machine} (h : s.firmware.Clean) : s.SendsRegisters := by
  intro memory b m sent hcode hwaits
  let payload := fun i => s.firmware.deref memory (m.ptrMessage + BitVec.ofNat 32 i)
  obtain ⟨hpos, hhead, hsize⟩ := h.head.sizes
  obtain ⟨request, hdecode, hshows⟩ := h.head.decodeFrame hcode memory
  have hsend := (I2c.waitI2cMasterState_transfers i2cStatMststIdle).ifOk
    (I2c.sendFrame_transfers payload { m with crc := m.frameCrc payload })
  rw [I2c.sentBytes_eq_frame hpos hhead hsize] at hsend
  have heq := I2c.sendMasterModbus_eq payload m b
  obtain ⟨-, hwrites⟩ := hsend.sends b (by rw [← heq]; exact hwaits)
  rw [← heq] at hwrites
  exact ⟨_, request, hwrites, hdecode, hshows⟩

/-- In every state of every run an undisturbed transfer of the message at the pointer tells the
slaves the registers of that moment. -/
theorem run_sends_registers (f : Firmware) (as : List MachineAction) :
    Run.Always machineStep SendsRegisters (afterInit f) as :=
  (Run.Always.of_invariant machineStep_clean (afterInit_clean f) as).mono fun _ => sendsRegisters

end Machine

end Recirculador
