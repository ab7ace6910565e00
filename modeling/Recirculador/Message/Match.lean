/-
Which replies the handlers take for an answer.

Every reply starts with a function code, and a reply that carries registers goes on
with their number of bytes.  The handlers that read registers look at neither: a
reply of the right length and checksum is an answer to them, and that of the bools
writes what it has even if it then finds too few of them.  The handler that writes
registers to a slave compares the reply with the payload, not with the header.
-/
import Recirculador.Bus.Driver
import Recirculador.Common.PointWrites
import Recirculador.Message.Reply

namespace Recirculador

open SysRegMap Registers

/-! ## Requests and replies -/

/-- A request for registers is at the pointer. -/
def requestFirmware (code : BitVec 8) (addr nReg : Nat) : Firmware :=
  { bootFirmware with
    queue := bootQueue.setMessage bootQueue.ptrQueue
      { messageDefault with
        code, regAddr := BitVec.ofNat 16 addr, nReg := BitVec.ofNat 16 nReg
        addr := sysI2cAddrWiFi } }

/-- The slave sends `bytes` and their checksum. -/
def answering (bytes : List (BitVec 8)) : Exchange :=
  { noAnswer with reply := some fun i => (bytes ++ crcBytes (crcList bytes)).getD i 0 }

/-! ## Reading registers -/

inductive ReadHandler
  | genericReadReg
  | getBoolReg
  | rwMultRegisters

/-- Eight bools a byte, the last byte perhaps not full. -/
def boolBytes (nReg : Int) : Int := nReg.tdiv 8 + if nReg.tmod 8 ≠ 0 then 1 else 0

namespace ReadHandler

def run : ReadHandler → Exchange → Firmware → Int × Firmware
  | .genericReadReg => Recirculador.genericReadReg
  | .getBoolReg => Recirculador.getBoolReg
  | .rwMultRegisters => Recirculador.rwMultRegisters

/-- The data bytes a request implies. -/
def dataBytes (m : I2cModbus) : ReadHandler → Int
  | .genericReadReg => (getRegBytes m.regAddr.toInt).toInt * m.nReg.toInt
  | .getBoolReg => boolBytes m.nReg.toInt
  | .rwMultRegisters => (getRegBytes m.regAddr.toInt).toInt * m.nReg.toInt

/-- `sizeReply`, with the widths of the source. -/
def sizeReply (m : I2cModbus) : ReadHandler → Int
  | .genericReadReg => 4 + (getRegBytes m.regAddr.toInt * m.nReg.signExtend 32).toInt
  | .getBoolReg => 4 + boolBytes m.nReg.toInt
  | .rwMultRegisters => 4 + ((getRegBytes m.regAddr.toInt).setWidth 16 * m.nReg).toInt

/-- What a handler asks besides the checksum. -/
def Admits (m : I2cModbus) (reply : Nat → BitVec 8) : ReadHandler → Prop
  | .genericReadReg => 1 ≤ (getRegBytes m.regAddr.toInt * m.nReg.signExtend 32).toInt
  | .getBoolReg => 1 ≤ m.nReg.toInt ∧ m.nReg.toInt ≤ 8 * (reply 1).toNat
  | .rwMultRegisters => 0 < ((getRegBytes m.regAddr.toInt).setWidth 16).toInt

instance (m : I2cModbus) (reply : Nat → BitVec 8) :
    (h : ReadHandler) → Decidable (h.Admits m reply)
  | .genericReadReg => inferInstanceAs (Decidable (_ ≤ _))
  | .getBoolReg => inferInstanceAs (Decidable (_ ∧ _))
  | .rwMultRegisters => inferInstanceAs (Decidable (_ < _))

/-- The reply has the function code and the byte count of the request. -/
def Answers (m : I2cModbus) (reply : Nat → BitVec 8) (h : ReadHandler) : Prop :=
  reply 0 = m.code ∧ ((reply 1).toNat : Int) = h.dataBytes m

instance (m : I2cModbus) (reply : Nat → BitVec 8) (h : ReadHandler) :
    Decidable (h.Answers m reply) := inferInstanceAs (Decidable (_ ∧ _))

/-- There are registers the handler would not leave as they are. -/
def Writes (e : Exchange) (f : Firmware) (h : ReadHandler) : Prop :=
  ∃ regs, (h.run e { f with regs }).2.regs ≠ regs

/-- What the handler writes to the registers or reports as done is an answer. -/
def Matched (reply : Nat → BitVec 8) (e : Exchange) (f : Firmware) (h : ReadHandler) : Prop :=
  (h.run e f).1 = replyOK ∨ h.Writes e f → h.Answers f.queue.head reply

/-- A reply the handler turns down by itself before any of it gets to a register.  The
bits of a reply with too few of them get there if their addresses are in the map. -/
def TurnsDown (m : I2cModbus) (reply : Nat → BitVec 8) (h : ReadHandler) : Prop :=
  ¬ h.Admits m reply ∧ (h = .getBoolReg → ∀ i < 8 * (reply 1).toNat,
    getIndex (m.regAddr.signExtend 32 + BitVec.ofNat 32 i).toNat = none)

end ReadHandler

/-- The loops end well if there is a bit for every register. -/
theorem getBoolRegLoop_replyOK (reply : Nat → BitVec 8) (bits : List Nat) (nReg : Int)
    (addrAux : BitVec 32) (r : Registers) :
    (getBoolRegLoop reply bits nReg addrAux r).1 = replyOK ↔ 1 ≤ nReg ∧ nReg ≤ bits.length := by
  induction bits generalizing nReg addrAux r with
  | nil =>
    refine iff_of_false Int.zero_ne_one ?_
    show ¬ (1 ≤ nReg ∧ nReg ≤ (0 : Nat))
    omega
  | cons bit bits ih =>
    rw [getBoolRegLoop, List.length_cons]
    by_cases hlast : nReg - 1 = 0
    · rw [if_pos hlast]
      exact iff_of_true rfl (by omega)
    · rw [if_neg hlast, ih]
      omega

/-! ## The bits of a reply -/

def bitValue (reply : Nat → BitVec 8) (bit : Nat) : Bool :=
  decide (reply (2 + bit / 8) &&& (0b10000000#8 >>> (bit % 8)) ≠ 0)

/-- The registers that bits of a reply go to, with their values. -/
def bitWrites (reply : Nat → BitVec 8) : List Nat → BitVec 32 → List (Nat × Bool)
  | [], _ => []
  | bit :: bits, addrAux =>
    let writes := bitWrites reply bits (addrAux + 1)
    match getIndex addrAux.toNat with
    | none => writes
    | some k => (k, bitValue reply bit) :: writes

/-- The writes find the registers as they leave them.  A bit may be written twice,
so the flag asks for more than the registers do. -/
structure Harmless (ws : List (Nat × Bool)) (r : Registers) : Prop where
  last : ∀ k v, PointWrites.last ws k = some v → r.boolBit k = v
  flag : r.Pending .bool ∨ PointWrites.Idle r.boolBit ws

theorem regVet_eq_iff (r r' : Registers) :
    r'.regVet = r.regVet ↔ ∀ k, r'.boolBit k = r.boolBit k := by
  constructor
  · intro h k
    rw [boolBit, boolBit, h]
  · intro h
    funext a
    apply BitVec.eq_of_getLsbD_eq
    intro i hi
    have hbit := h (8 * a + (7 - i))
    rw [boolBit, boolBit, show (8 * a + (7 - i)) / 8 = a by omega,
      show 7 - (8 * a + (7 - i)) % 8 = i by omega] at hbit
    exact hbit

theorem registers_eq_iff (r r' : Registers) :
    r' = r ↔ r'.regVet = r.regVet ∧ r'.changeFlag = r.changeFlag := by
  constructor
  · rintro rfl
    exact ⟨rfl, rfl⟩
  · intro h
    cases r
    cases r'
    cases h.1
    cases h.2
    rfl

theorem boolBit_regWriteBool {addr k : Nat} (h : getIndex addr = some k) (value : Bool)
    (r : Registers) :
    (regWriteBool value addr r).boolBit = PointWrites.write r.boolBit (k, value) :=
  funext fun j => regWriteBool_boolBit h value r j

/-- The change flag after some writes. -/
def flagAfter (changed : Bool) (r : Registers) : BitVec 8 :=
  if changed then r.changeFlag ||| Bank.bool.changeBit else r.changeFlag

/-- A reply with too few bits is written to its end. -/
theorem getBoolRegLoop_short (reply : Nat → BitVec 8) (bits : List Nat) {nReg : Int}
    (hshort : ¬ (1 ≤ nReg ∧ nReg ≤ bits.length)) (addrAux : BitVec 32) (r : Registers) :
    let result := getBoolRegLoop reply bits nReg addrAux r
    let ws := bitWrites reply bits addrAux
    result.1 = replyFail ∧ result.2.boolBit = PointWrites.run r.boolBit ws ∧
      result.2.changeFlag = flagAfter (PointWrites.changes r.boolBit ws) r := by
  induction bits generalizing nReg addrAux r with
  | nil => exact ⟨rfl, rfl, rfl⟩
  | cons bit bits ih =>
    rw [List.length_cons] at hshort
    have hmore : ¬ nReg - 1 = 0 := by omega
    have hstep : getBoolRegLoop reply (bit :: bits) nReg addrAux r =
        getBoolRegLoop reply bits (nReg - 1) (addrAux + 1)
          (regWriteBool (bitValue reply bit) addrAux.toNat r) := if_neg hmore
    have hshort' : ¬ (1 ≤ nReg - 1 ∧ nReg - 1 ≤ bits.length) := by omega
    obtain ⟨hfail, hbits, hflag⟩ := ih hshort' (addrAux + 1)
      (regWriteBool (bitValue reply bit) addrAux.toNat r)
    rw [hstep, bitWrites]
    dsimp only
    cases hindex : getIndex addrAux.toNat with
    | none =>
      have hkeep : regWriteBool (bitValue reply bit) addrAux.toNat r = r := by
        rw [regWriteBool, hindex]
      rw [hkeep] at hfail hbits hflag ⊢
      exact ⟨hfail, hbits, hflag⟩
    | some k =>
      rw [boolBit_regWriteBool hindex] at hbits hflag
      refine ⟨hfail, hbits, hflag.trans ?_⟩
      rw [flagAfter, flagAfter, regWriteBool_changeFlag hindex, PointWrites.changes]
      by_cases hsame : r.boolBit k = bitValue reply bit
      · rw [if_pos hsame, decide_eq_false (not_not_intro hsame), Bool.false_or]
      · rw [if_neg hsame, decide_eq_true hsame, Bool.true_or, if_pos rfl, BitVec.or_assoc,
          BitVec.or_self, ite_self]

/-- The flag of the bools is in place after some writes exactly if it was set or
nothing changed. -/
theorem flagAfter_eq_iff (changed : Bool) (r : Registers) :
    flagAfter changed r = r.changeFlag ↔ r.Pending .bool ∨ changed = false := by
  cases changed with
  | false => exact iff_of_true rfl (Or.inr rfl)
  | true =>
    have hraise : r.changeFlag ||| Bank.bool.changeBit = r.changeFlag ↔ r.Pending .bool := by
      rw [pending_iff]
      constructor
      · intro h
        rw [← h, BitVec.getLsbD_or, getLsbD_changeBit]
        exact Bool.or_true _
      · intro h
        apply BitVec.eq_of_getLsbD_eq
        intro i hi
        rw [BitVec.getLsbD_or]
        by_cases hpos : i = Bank.bool.changePos
        · rw [hpos, h]
          rfl
        · have hbit : Bank.bool.changeBit.getLsbD i = false := by
            have h : ∀ j : Fin 8, j.val ≠ Bank.bool.changePos →
                Bank.bool.changeBit.getLsbD j.val = false := by decide
            exact h ⟨i, hi⟩ hpos
          rw [hbit, Bool.or_false]
    exact hraise.trans ⟨Or.inl, fun h => h.resolve_right Bool.noConfusion⟩

/-- Registers written from `r` on and the queue are those of before. -/
theorem written_kept_iff {r r' : Registers} {ws : List (Nat × Bool)}
    (hbits : r'.boolBit = PointWrites.run r.boolBit ws)
    (hflag : r'.changeFlag = flagAfter (PointWrites.changes r.boolBit ws) r) :
    r'.regVet = r.regVet ∧ r'.changeFlag = r.changeFlag ↔ Harmless ws r := by
  rw [regVet_eq_iff, hbits, hflag, PointWrites.run_eq_self_iff, flagAfter_eq_iff,
    PointWrites.changes_eq_false_iff]
  exact ⟨fun h => ⟨h.1, h.2⟩, fun h => ⟨h.last, h.flag⟩⟩

/-- No bit goes to a register. -/
theorem bitWrites_eq_nil_iff (reply : Nat → BitVec 8) (bits : List Nat) (addrAux : BitVec 32) :
    bitWrites reply bits addrAux = [] ↔
      ∀ i < bits.length, getIndex (addrAux + BitVec.ofNat 32 i).toNat = none := by
  induction bits generalizing addrAux with
  | nil => exact iff_of_true rfl fun i hi => absurd hi (Nat.not_lt_zero i)
  | cons bit bits ih =>
    have hfirst : addrAux + BitVec.ofNat 32 0 = addrAux := BitVec.add_zero addrAux
    have hnext : ∀ i, addrAux + 1 + BitVec.ofNat 32 i = addrAux + BitVec.ofNat 32 (i + 1) := by
      intro i
      rw [BitVec.ofNat_add, BitVec.add_assoc, BitVec.add_comm (BitVec.ofNat 32 i)]
      rfl
    rw [bitWrites, List.length_cons]
    cases hindex : getIndex addrAux.toNat with
    | none =>
      refine (ih (addrAux + 1)).trans ⟨fun h i hi => ?_, fun h i hi => ?_⟩
      · cases i with
        | zero => rw [hfirst, hindex]
        | succ i => rw [← hnext i, h i (Nat.lt_of_succ_lt_succ hi)]
      · rw [hnext i]
        exact h (i + 1) (Nat.succ_lt_succ hi)
    | some k =>
      refine iff_of_false (List.cons_ne_nil _ _) fun h => ?_
      have hnone := h 0 (Nat.succ_pos _)
      rw [hfirst, hindex] at hnone
      exact nomatch hnone

/-- Registers all of whose bools are the same. -/
def uniformBools (value : Bool) : Registers := ⟨fun _ => if value then 0xFF else 0, 0⟩

theorem boolBit_uniformBools (value : Bool) (k : Nat) : (uniformBools value).boolBit k = value := by
  have hbit : ∀ i : Fin 8, ((if value then 0xFF else 0 : BitVec 8)).getLsbD i = value := by
    cases value <;> decide
  exact hbit ⟨7 - k % 8, by omega⟩

/-- Some registers suffer from any writes. -/
theorem exists_not_harmless_iff (ws : List (Nat × Bool)) :
    (∃ r, ¬ Harmless ws r) ↔ ws ≠ [] := by
  cases ws with
  | nil =>
    refine iff_of_false (fun h => ?_) (not_not_intro rfl)
    obtain ⟨r, hharm⟩ := h
    exact hharm ⟨(fun _ _ hlast => nomatch hlast), Or.inr fun _ hw => nomatch hw⟩
  | cons w ws =>
    refine iff_of_true ?_ (List.cons_ne_nil _ _)
    have hlast : ∃ v, PointWrites.last (w :: ws) w.1 = some v := by
      rw [PointWrites.last, if_pos rfl]
      cases PointWrites.last ws w.1 with
      | none => exact ⟨w.2, rfl⟩
      | some v => exact ⟨v, rfl⟩
    obtain ⟨v, hv⟩ := hlast
    refine ⟨uniformBools (!v), fun hharmless => ?_⟩
    have hsame := hharmless.last w.1 v hv
    rw [boolBit_uniformBools] at hsame
    exact (Bool.not_eq_self v).mp hsame

namespace ReadHandler

variable {e : Exchange} {f : Firmware} {reply : Nat → BitVec 8}

theorem genericReadReg_replyOK
    (hread : e.delivered (genericReadReg.sizeReply f.queue.head) = some reply)
    (hcrc : checkCrc16 reply (BitVec.ofInt 32 (genericReadReg.sizeReply f.queue.head)) = true) :
    (Recirculador.genericReadReg e f).1 = replyOK ↔
      genericReadReg.Admits f.queue.head reply := by
  rw [sizeReply] at hread
  unfold Recirculador.genericReadReg
  dsimp only [i2cReadLenghtMaster]
  by_cases hnone : (getRegBytes f.queue.head.regAddr.toInt *
      f.queue.head.nReg.signExtend 32).toInt < 1
  · rw [if_pos hnone]
    exact iff_of_false Int.zero_ne_one (Int.not_le.mpr hnone)
  · rw [if_neg hnone, hread]
    dsimp only
    exact iff_of_true (congrArg Prod.fst (if_pos hcrc)) (Int.not_lt.mp hnone)

/-- `sizeReply` the way the source counts it. -/
theorem getBoolReg_sizeReply (m : I2cModbus) :
    (if m.nReg.toInt.tmod 8 ≠ 0 then 4 + m.nReg.toInt.tdiv 8 + 1 else 4 + m.nReg.toInt.tdiv 8) =
      getBoolReg.sizeReply m := by
  rw [sizeReply, boolBytes]
  split <;> omega

theorem getBoolReg_unread (hread : e.delivered (getBoolReg.sizeReply f.queue.head) = none) :
    Recirculador.getBoolReg e f = (replyFail,
      f.record (.readLenght f.queue.head.addr (getBoolReg.sizeReply f.queue.head))) := by
  simp only [Recirculador.getBoolReg, i2cReadLenghtMaster, getBoolReg_sizeReply, hread]

/-- A checked reply goes through the loops. -/
theorem getBoolReg_checked
    (hread : e.delivered (getBoolReg.sizeReply f.queue.head) = some reply)
    (hcrc : checkCrc16 reply (BitVec.ofInt 32 (getBoolReg.sizeReply f.queue.head)) = true) :
    let result := getBoolRegLoop reply (List.range (8 * (reply 1).toNat)) f.queue.head.nReg.toInt
      (f.queue.head.regAddr.signExtend 32) f.regs
    Recirculador.getBoolReg e f = (result.1,
      { f.record (.readLenght f.queue.head.addr (getBoolReg.sizeReply f.queue.head)) with
        regs := result.2 }) := by
  simp only [Recirculador.getBoolReg, i2cReadLenghtMaster, getBoolReg_sizeReply, hread]
  exact if_pos hcrc

theorem getBoolReg_replyOK
    (hread : e.delivered (getBoolReg.sizeReply f.queue.head) = some reply)
    (hcrc : checkCrc16 reply (BitVec.ofInt 32 (getBoolReg.sizeReply f.queue.head)) = true) :
    (Recirculador.getBoolReg e f).1 = replyOK ↔ getBoolReg.Admits f.queue.head reply := by
  rw [getBoolReg_checked hread hcrc]
  refine (getBoolRegLoop_replyOK _ _ _ _ _).trans (and_congr Iff.rfl ?_)
  rw [List.length_range]
  omega

/-- A checked reply with too few bits fails, and leaves the registers alone exactly if
these are harmless. -/
theorem getBoolReg_short
    (hread : e.delivered (getBoolReg.sizeReply f.queue.head) = some reply)
    (hcrc : checkCrc16 reply (BitVec.ofInt 32 (getBoolReg.sizeReply f.queue.head)) = true)
    (hadmits : ¬ getBoolReg.Admits f.queue.head reply) :
    (Recirculador.getBoolReg e f).1 = replyFail ∧
      ((Recirculador.getBoolReg e f).2.regs.regVet = f.regs.regVet ∧
        (Recirculador.getBoolReg e f).2.regs.changeFlag = f.regs.changeFlag ↔
          Harmless (bitWrites reply (List.range (8 * (reply 1).toNat))
            (f.queue.head.regAddr.signExtend 32)) f.regs) := by
  have hshort : ¬ (1 ≤ f.queue.head.nReg.toInt ∧
      f.queue.head.nReg.toInt ≤ (List.range (8 * (reply 1).toNat)).length) := by
    rw [List.length_range]
    refine fun h => hadmits ⟨h.1, ?_⟩
    have hle := h.2
    omega
  obtain ⟨hfail, hbits, hflag⟩ := getBoolRegLoop_short reply _ hshort
    (f.queue.head.regAddr.signExtend 32) f.regs
  rw [getBoolReg_checked hread hcrc]
  exact ⟨hfail, written_kept_iff hbits hflag⟩

theorem rwMultRegisters_replyOK
    (hread : e.delivered (rwMultRegisters.sizeReply f.queue.head) = some reply)
    (hcrc : checkCrc16 reply (BitVec.ofInt 32 (rwMultRegisters.sizeReply f.queue.head)) = true) :
    (Recirculador.rwMultRegisters e f).1 = replyOK ↔
      rwMultRegisters.Admits f.queue.head reply := by
  rw [sizeReply] at hread
  unfold Recirculador.rwMultRegisters
  dsimp only [i2cReadLenghtMaster]
  by_cases hsome : ((getRegBytes f.queue.head.regAddr.toInt).setWidth 16).toInt > 0
  · rw [if_pos hsome, hread]
    dsimp only
    exact iff_of_true (congrArg Prod.fst (if_pos hcrc)) hsome
  · rw [if_neg hsome]
    exact iff_of_false Int.zero_ne_one hsome

/-- A reply with the right checksum is accepted whatever it answers. -/
theorem run_replyOK (h : ReadHandler)
    (hread : e.delivered (h.sizeReply f.queue.head) = some reply)
    (hcrc : checkCrc16 reply (BitVec.ofInt 32 (h.sizeReply f.queue.head)) = true) :
    (h.run e f).1 = replyOK ↔ h.Admits f.queue.head reply := by
  cases h with
  | genericReadReg => exact genericReadReg_replyOK hread hcrc
  | getBoolReg => exact getBoolReg_replyOK hread hcrc
  | rwMultRegisters => exact rwMultRegisters_replyOK hread hcrc

/-- A read that fails ends the handler. -/
theorem run_unread (h : ReadHandler) (hread : e.delivered (h.sizeReply f.queue.head) = none) :
    (h.run e f).1 = replyFail ∧ (h.run e f).2.regs = f.regs := by
  cases h with
  | genericReadReg =>
    rw [sizeReply] at hread
    simp only [run, Recirculador.genericReadReg, i2cReadLenghtMaster, hread]
    split <;> exact ⟨rfl, rfl⟩
  | getBoolReg =>
    rw [run, getBoolReg_unread hread]
    exact ⟨rfl, rfl⟩
  | rwMultRegisters =>
    rw [sizeReply] at hread
    simp only [run, Recirculador.rwMultRegisters, i2cReadLenghtMaster, hread]
    split <;> exact ⟨rfl, rfl⟩

/-- The end of the handlers of numbers: they check before they write. -/
theorem checkedReply_of_fail {read : Option (Nat → BitVec 8)} {check : (Nat → BitVec 8) → Bool}
    {k : (Nat → BitVec 8) → Firmware} {g : Firmware} :
    let result := match read with
      | none => (replyFail, g)
      | some reply => if check reply then (replyOK, k reply) else (replyFail, g)
    result.1 ≠ replyOK → result.2 = g := by
  intro result hfail
  cases read with
  | none => rfl
  | some reply =>
    by_cases hcheck : check reply = true
    · exact absurd (congrArg Prod.fst (if_pos hcheck)) hfail
    · exact congrArg Prod.snd (if_neg hcheck)

theorem run_regs_of_fail (h : ReadHandler) (hbool : h ≠ .getBoolReg)
    (hfail : (h.run e f).1 ≠ replyOK) : (h.run e f).2.regs = f.regs := by
  cases h with
  | genericReadReg =>
    revert hfail
    simp only [run, Recirculador.genericReadReg, i2cReadLenghtMaster]
    split
    · exact fun _ => rfl
    · intro hfail
      have hregs := congrArg Firmware.regs (checkedReply_of_fail hfail)
      exact hregs
  | getBoolReg => exact absurd rfl hbool
  | rwMultRegisters =>
    revert hfail
    simp only [run, Recirculador.rwMultRegisters, i2cReadLenghtMaster]
    split
    · intro hfail
      have hregs := congrArg Firmware.regs (checkedReply_of_fail hfail)
      exact hregs
    · exact fun _ => rfl

/-- A checked reply is turned down in time exactly if it is neither reported nor written. -/
theorem turnsDown_iff (h : ReadHandler)
    (hread : e.delivered (h.sizeReply f.queue.head) = some reply)
    (hcrc : checkCrc16 reply (BitVec.ofInt 32 (h.sizeReply f.queue.head)) = true) :
    h.TurnsDown f.queue.head reply ↔ (h.run e f).1 ≠ replyOK ∧ ¬ h.Writes e f := by
  rw [TurnsDown, ← run_replyOK h hread hcrc]
  refine and_congr_right fun hfail => ?_
  by_cases hbool : h = .getBoolReg
  · subst hbool
    have hkept : ∀ regs, (Recirculador.getBoolReg e { f with regs }).2.regs = regs ↔
        Harmless (bitWrites reply (List.range (8 * (reply 1).toNat))
          (f.queue.head.regAddr.signExtend 32)) regs := by
      intro regs
      have hadmits := mt (getBoolReg_replyOK hread hcrc).mpr hfail
      have hshort := getBoolReg_short (f := { f with regs }) hread hcrc hadmits
      exact (registers_eq_iff regs _).trans hshort.2
    have hwrites : getBoolReg.Writes e f ↔
        ∃ regs, ¬ Harmless (bitWrites reply (List.range (8 * (reply 1).toNat))
          (f.queue.head.regAddr.signExtend 32)) regs :=
      exists_congr fun regs => not_congr (hkept regs)
    rw [hwrites, exists_not_harmless_iff, Decidable.not_not, bitWrites_eq_nil_iff,
      List.length_range]
    exact forall_prop_of_true rfl
  · refine iff_of_true (fun h => absurd h hbool) fun hwrites => ?_
    obtain ⟨regs, hne⟩ := hwrites
    refine hne (run_regs_of_fail (f := { f with regs }) h hbool fun hok => hfail ?_)
    exact (run_replyOK h hread hcrc).mpr ((run_replyOK (f := { f with regs }) h hread hcrc).mp hok)

/-- Only answers get to the registers or are reported if the reply is one, is longer
than the driver can read or is turned down in time. -/
theorem run_matched_iff (h : ReadHandler) (hreply : e.reply = some reply)
    (hcrc : checkCrc16 reply (BitVec.ofInt 32 (h.sizeReply f.queue.head)) = true) :
    h.Matched reply e f ↔ 255 < h.sizeReply f.queue.head ∨ h.Answers f.queue.head reply ∨
      h.TurnsDown f.queue.head reply := by
  by_cases hlong : 255 < h.sizeReply f.queue.head
  · refine iff_of_true ?_ (Or.inl hlong)
    have hnone := e.delivered_of_lt hlong
    rintro (hok | ⟨regs, hwrites⟩)
    · exact absurd ((run_unread h hnone).1.symm.trans hok) Int.zero_ne_one
    · exact absurd (run_unread (f := { f with regs }) h hnone).2 hwrites
  · have hread := (e.delivered_of_le (Int.not_lt.mp hlong)).trans hreply
    rw [Matched, or_iff_right hlong, turnsDown_iff h hread hcrc]
    by_cases hanswers : h.Answers f.queue.head reply
    · exact iff_of_true (fun _ => hanswers) (Or.inl hanswers)
    · rw [or_iff_right hanswers]
      constructor
      · intro hmatched
        exact ⟨fun hok => hanswers (hmatched (Or.inl hok)),
          fun hwrites => hanswers (hmatched (Or.inr hwrites))⟩
      · intro hneither hsome
        exact absurd hsome (not_or_intro hneither.1 hneither.2)

/-- The stale acknowledgement of four registers written answers the request for one. -/
theorem run_unmatched :
    ¬ ∀ (h : ReadHandler) (e : Exchange) (f : Firmware) (reply : Nat → BitVec 8),
      e.reply = some reply →
      checkCrc16 reply (BitVec.ofInt 32 (h.sizeReply f.queue.head)) = true →
      h.Matched reply e f := by
  intro hall
  have hmatched := hall genericReadReg (answering [0x10, 0x88, 0x13, 0x04, 0x00, 0x00])
    (requestFirmware Modbus.getNumReg s1Temp 1) _ rfl (by decide +kernel) (Or.inl rfl)
  exact absurd hmatched (by decide +kernel)

/-- The answer to the same request. -/
theorem run_matched_s1Temp :
    genericReadReg.Matched (fun i => ([0x03, 0x04, 0xE8, 0x03, 0x00, 0x00] ++
        crcBytes (crcList [0x03, 0x04, 0xE8, 0x03, 0x00, 0x00])).getD i 0)
      (answering [0x03, 0x04, 0xE8, 0x03, 0x00, 0x00])
      (requestFirmware Modbus.getNumReg s1Temp 1) :=
  (run_matched_iff genericReadReg rfl (by decide +kernel)).mpr
    (Or.inr (Or.inl (by decide +kernel)))

end ReadHandler

/-! ## Acknowledging a write -/

/-- Code, address and number of registers of the header. -/
def Acknowledges (m : I2cModbus) (reply : Nat → BitVec 8) : Prop :=
  ∀ i, i < 5 → reply i = m.structBytes.getD i 0

instance (m : I2cModbus) (reply : Nat → BitVec 8) : Decidable (Acknowledges m reply) :=
  inferInstanceAs (Decidable (∀ i, i < 5 → _))

/-- The byte behind the message's pointer. -/
def payloadByte (e : Exchange) (f : Firmware) (i : Nat) : BitVec 8 :=
  f.deref e.memory (f.queue.head.ptrMessage + BitVec.ofNat 32 i)

variable {e : Exchange} {f : Firmware} {reply : Nat → BitVec 8}

theorem echoes_iff (e : Exchange) (reply : Nat → BitVec 8) (len : Nat) (f : Firmware) :
    echoes e reply len f = true ↔ ∀ i, i < len → payloadByte e f i = reply i := by
  rw [echoes, List.all_eq_true]
  constructor
  · intro h i hi
    exact eq_of_beq (h i (List.mem_range.mpr hi))
  · intro h i hi
    exact beq_iff_eq.mpr (h i (List.mem_range.mp hi))

theorem fixedReply_checked {len : Nat} (hlen : len ≤ 255) (hreply : e.reply = some reply)
    (hcrc : checkCrc16 reply (BitVec.ofNat 32 len) = true)
    (k : (Nat → BitVec 8) → Firmware → Int × Firmware) (f : Firmware) :
    fixedReply len k e f = k reply (f.record (.readLenght f.queue.head.addr len)) := by
  have hread := (e.delivered_of_le (Int.ofNat_le.mpr hlen)).trans hreply
  simp only [fixedReply, i2cReadLenghtMaster, hread]
  exact if_pos hcrc

/-- The reply to a write is compared with the payload. -/
theorem handleReply_replyOK
    (hcode : f.queue.head.code = Modbus.setMultBoolReg ∨ f.queue.head.code = Modbus.setMultNumReg)
    (hreply : e.reply = some reply) (hcrc : checkCrc16 reply 7 = true) (statusAux : Int) :
    (handleReply e statusAux f).1 = replyOK ↔ ∀ i, i < 5 → payloadByte e f i = reply i := by
  have hhandler : handleReply e statusAux f = genericSetReg e f := by
    unfold handleReply
    rcases hcode with hcode | hcode <;> rw [hcode] <;> rfl
  have hsize : (if f.queue.head.code = Modbus.diagnostics then 5 else 7) = 7 := by
    rcases hcode with hcode | hcode <;> rw [hcode] <;> rfl
  have hresult : (genericSetReg e f).1 = if echoes e reply 5 f then replyOK else replyFail := by
    simp only [genericSetReg, hsize]
    exact congrArg Prod.fst (fixedReply_checked (by decide) hreply hcrc _ f)
  rw [hhandler, hresult, ← echoes_iff e reply 5 f]
  cases echoes e reply 5 f with
  | false => exact iff_of_false Int.zero_ne_one Bool.false_ne_true
  | true => exact iff_of_true rfl rfl

/-- A write is acknowledged by its header exactly if the payload starts with the
header or the reply is neither of them. -/
theorem handleReply_acknowledged_iff
    (hcode : f.queue.head.code = Modbus.setMultBoolReg ∨ f.queue.head.code = Modbus.setMultNumReg)
    (hreply : e.reply = some reply) (hcrc : checkCrc16 reply 7 = true) (statusAux : Int) :
    ((handleReply e statusAux f).1 = replyOK ↔ Acknowledges f.queue.head reply) ↔
      Acknowledges f.queue.head (payloadByte e f) ∨
        ¬ Acknowledges f.queue.head reply ∧ ¬ ∀ i, i < 5 → payloadByte e f i = reply i := by
  rw [handleReply_replyOK hcode hreply hcrc]
  constructor
  · intro hiff
    by_cases hack : Acknowledges f.queue.head reply
    · exact Or.inl fun i hi => (hiff.mpr hack i hi).trans (hack i hi)
    · exact Or.inr ⟨hack, fun hecho => hack (hiff.mp hecho)⟩
  · intro h
    obtain hheader | ⟨hack, hecho⟩ := h
    · constructor
      · exact fun hecho i hi => (hecho i hi).symm.trans (hheader i hi)
      · exact fun hack i hi => (hheader i hi).trans (hack i hi).symm
    · exact iff_of_false hecho hack

/-- The acknowledgement of the bool bank, whose payload is not its header. -/
theorem handleReply_unacknowledged :
    ¬ ∀ (e : Exchange) (f : Firmware) (reply : Nat → BitVec 8) (statusAux : Int),
      f.queue.head.code = Modbus.setMultBoolReg ∨ f.queue.head.code = Modbus.setMultNumReg →
      e.reply = some reply → checkCrc16 reply 7 = true →
      ((handleReply e statusAux f).1 = replyOK ↔ Acknowledges f.queue.head reply) := by
  intro hall
  have hiff := hall (answering [0x10, 0xE8, 0x03, 0x03, 0x00]) boolFirmware _ 1
    (Or.inr rfl) rfl (by decide +kernel)
  exact absurd (hiff.mpr (by decide +kernel)) (by decide +kernel)

/-- A reply that is neither the header nor the payload. -/
theorem handleReply_acknowledged_other :
    (handleReply (answering [0x90, 0x01, 0x00, 0x00, 0x00]) 1 boolFirmware).1 =
        replyOK ↔
      Acknowledges boolFirmware.queue.head (fun i => ([0x90, 0x01, 0x00, 0x00, 0x00] ++
        crcBytes (crcList [0x90, 0x01, 0x00, 0x00, 0x00])).getD i 0) :=
  (handleReply_acknowledged_iff (Or.inr rfl) rfl (by decide +kernel) 1).mpr
    (Or.inr ⟨by decide +kernel, by decide +kernel⟩)

end Recirculador
