/-
The reply buffers of the handlers.

`_Get_Event_Log`, `_Read_File_Record` and `_Get_Bool_Reg` are taken here with the bus
and their local array.  The first two read until the slave stops into 0xFF bytes,
twice as many as that if the slave goes on, and look at the length it reports only
then.  The third sizes its array by the request and stays inside.
-/
import Recirculador.Bus.Endless
import Recirculador.Message.Match

namespace Recirculador

open SysRegMap Registers

/-- Inside the buffer throughout, with every length checked between 2 and its size. -/
structure Buffer.Contained (size : Nat) (r : Buffer) : Prop where
  within : r.Within size
  checks : ∀ len ∈ r.checks, 2 ≤ len.toNat ∧ len.toNat ≤ size

/-- A handler while it runs: no status yet, or done. -/
structure Handling where
  status : Option Int
  regs : Registers
  bus : I2c
  buffer : Buffer

/-! ## The handlers with their buffers -/

/-- `_Get_Event_Log` and `_Read_File_Record`; `n` bytes are copied from a good reply. -/
def openReplyOn (sizeReply : BitVec 8 → Nat) (n : Nat) (addr : BitVec 8) (b : I2c)
    (stack : Nat → BitVec 8) (regs : Registers) : Handling :=
  let read := b.readMaster addr (.fresh stack)
  if read.1 ≠ .ok then { status := some replyFail, regs, bus := read.2.1, buffer := read.2.2 }
  else
    let count := read.2.2.load 1
    let check := count.2.checkCrc16 (BitVec.ofNat 32 (sizeReply count.1))
    if check.1 then
      { status := some replyOK, regs, bus := read.2.1, buffer := check.2.copy 1 n }
    else { status := some replyFail, regs, bus := read.2.1, buffer := check.2 }

/-- The loops of `_Get_Bool_Reg`.  The byte count is looked at before each byte. -/
def getBoolRegLoopOn : List Nat → Int → BitVec 32 → Registers → Buffer → Int × Registers × Buffer
  | [], _, _, r, buffer => (replyFail, r, (buffer.load 1).2)
  | bit :: bits, nReg, addrAux, r, buffer =>
    let buffer := if bit % 8 = 0 then (buffer.load 1).2 else buffer
    let byte := buffer.load (2 + bit / 8)
    let value := decide (byte.1 &&& (0b10000000#8 >>> (bit % 8)) ≠ 0)
    let r := regWriteBool value addrAux.toNat r
    if nReg - 1 = 0 then (replyOK, r, byte.2)
    else getBoolRegLoopOn bits (nReg - 1) (addrAux + 1) r byte.2

def getBoolRegOn (fuel : Nat) (m : I2cModbus) (b : I2c) (stack : Nat → BitVec 8)
    (regs : Registers) : Handling :=
  let nReg := m.nReg.toInt
  let sizeReply := 4 + nReg.tdiv 8
  let sizeReply := if nReg.tmod 8 ≠ 0 then sizeReply + 1 else sizeReply
  let read := b.readLenghtMaster fuel m.addr sizeReply (.fresh stack)
  match read.1 with
  | none => { status := none, regs, bus := read.2.1, buffer := read.2.2 }
  | some stat =>
    if stat ≠ .ok then { status := some replyFail, regs, bus := read.2.1, buffer := read.2.2 }
    else
      let check := read.2.2.checkCrc16 (BitVec.ofInt 32 sizeReply)
      if check.1 then
        let result := getBoolRegLoopOn (List.range (8 * (check.2.bytes 1).toNat)) nReg
          (m.regAddr.signExtend 32) regs check.2
        { status := some result.1, regs := result.2.1, bus := read.2.1, buffer := result.2.2 }
      else { status := some replyFail, regs, bus := read.2.1, buffer := check.2 }

inductive BufferHandler
  | getEventLog
  | readFileRecord
  | getBoolReg

namespace BufferHandler

def bufferSize (m : I2cModbus) : BufferHandler → Nat
  | .getEventLog => 0xFF
  | .readFileRecord => 0xFF
  | .getBoolReg => (ReadHandler.getBoolReg.sizeReply m).toNat

/-- The handler on a bus and on a stack that holds what the array starts with. -/
def run (fuel : Nat) (m : I2cModbus) (b : I2c) (stack : Nat → BitVec 8) (regs : Registers) :
    BufferHandler → Handling
  | .getEventLog => openReplyOn (fun n => n.toNat * 2 + 4) 2 m.addr b stack regs
  | .readFileRecord => openReplyOn (fun n => n.toNat) 0 m.addr b stack regs
  | .getBoolReg => getBoolRegOn fuel m b stack regs

end BufferHandler

/-! ## The buffer of 0xFF bytes -/

/-- A reply that is read to the end is past the buffer before its length is looked at,
so stopping the slave in time is all there is to staying inside. -/
theorem openReplyOn_contained_iff (sizeReply : BitVec 8 → Nat) (n : Nat) (addr : BitVec 8)
    (b : I2c) (stack : Nat → BitVec 8) (regs : Registers) :
    (openReplyOn sizeReply n addr b stack regs).buffer.Contained 0xFF ↔
      b.supplies addr 0x100 = false := by
  obtain ⟨hwithin, hchecks, hok⟩ := I2c.readMaster_spec addr b stack
  rw [openReplyOn]
  dsimp only
  by_cases hall : (b.readMaster addr (.fresh stack)).1 = .ok
  · rw [if_neg (not_not_intro hall)]
    refine iff_of_false (fun hcontained => ?_) (by rw [hok hall]; exact Bool.noConfusion)
    have hout : ¬ (b.readMaster addr (.fresh stack)).2.2.Within 0xFF := by
      rw [hwithin, hok hall]
      exact Bool.noConfusion
    have hlater := hcontained.within
    split at hlater
    · exact hout (Buffer.within_load.mp (Buffer.within_append.mp
        (Buffer.within_append.mp hlater).1).1).1
    · exact hout (Buffer.within_load.mp (Buffer.within_append.mp hlater).1).1
  · rw [if_pos hall]
    refine ⟨fun h => hwithin.mp h.within, fun h => ⟨hwithin.mpr h, fun len hlen => ?_⟩⟩
    rw [hchecks] at hlen
    exact nomatch hlen

/-! ## The buffer of the bools -/

/-- With `n` of `count` bits done, the loops stay at the bytes that hold the others. -/
theorem getBoolRegLoopOn_contained {size count : Nat} (hsize : 2 + (count - 1) / 8 < size)
    {n : Nat} (hn : n < count) (k : Nat) (addrAux : BitVec 32) (r : Registers) {buffer : Buffer}
    (h : buffer.Contained size) :
    (getBoolRegLoopOn (List.range' n k) ((count - n : Nat) : Int) addrAux r
      buffer).2.2.Contained size := by
  have hload : ∀ {i : Nat} {buffer : Buffer}, i < size → buffer.Contained size →
      (buffer.load i).2.Contained size := fun hi h =>
    ⟨Buffer.within_load.mpr ⟨h.within, hi⟩, h.checks⟩
  induction k generalizing n addrAux r buffer with
  | zero => exact hload (by omega) h
  | succ k ih =>
    rw [List.range'_succ, getBoolRegLoopOn]
    have hbyte : 2 + n / 8 < size := by omega
    have hfirst : (if n % 8 = 0 then (buffer.load 1).2 else buffer).Contained size := by
      split
      · exact hload (by omega) h
      · exact h
    by_cases hlast : ((count - n : Nat) : Int) - 1 = 0
    · rw [if_pos hlast]
      exact hload hbyte hfirst
    · have hrest : ((count - n : Nat) : Int) - 1 = ((count - (n + 1) : Nat) : Int) := by omega
      rw [if_neg hlast, hrest]
      exact ih (by omega) _ _ (hload hbyte hfirst)

/-- The loops with a buffer do what the loops on its bytes do. -/
theorem getBoolRegLoopOn_eq (bits : List Nat) (nReg : Int) (addrAux : BitVec 32) (r : Registers)
    (buffer : Buffer) :
    ((getBoolRegLoopOn bits nReg addrAux r buffer).1,
      (getBoolRegLoopOn bits nReg addrAux r buffer).2.1) =
      getBoolRegLoop buffer.bytes bits nReg addrAux r := by
  induction bits generalizing nReg addrAux r buffer with
  | nil => rfl
  | cons bit bits ih =>
    have hsame : (if bit % 8 = 0 then (buffer.load 1).2 else buffer).bytes = buffer.bytes := by
      split <;> rfl
    rw [getBoolRegLoopOn, getBoolRegLoop]
    generalize (if bit % 8 = 0 then (buffer.load 1).2 else buffer) = first at hsame ⊢
    obtain ⟨bytes, accesses, checks⟩ := first
    have hsame : bytes = buffer.bytes := hsame
    subst hsame
    by_cases hlast : nReg - 1 = 0
    · rw [if_pos hlast, if_pos hlast]
      rfl
    · rw [if_neg hlast, if_neg hlast, ih]
      rfl

theorem boolBytes_bounds {nReg : Int} (h : 0 ≤ nReg) :
    nReg ≤ 8 * boolBytes nReg ∧ 8 * boolBytes nReg < nReg + 8 := by
  rw [boolBytes, Int.tdiv_eq_ediv_of_nonneg h, Int.tmod_eq_emod_of_nonneg h]
  split <;> omega

theorem Buffer.Contained.checkCrc16 {size : Nat} {r : Buffer} (h : r.Contained size)
    {len : BitVec 32} (hmin : 2 ≤ len.toNat) (hmax : len.toNat ≤ size) :
    (r.checkCrc16 len).2.Contained size := by
  have hone : (len - 1).toNat = len.toNat - 1 := by bv_omega
  have htwo : (len - 2).toNat = len.toNat - 2 := by bv_omega
  refine ⟨Buffer.within_append.mpr ⟨h.within, fun i hi => ?_⟩, fun len' hlen => ?_⟩
  · rw [hone, htwo, List.mem_cons, List.mem_cons, List.mem_range] at hi
    omega
  · rcases List.mem_append.mp hlen with hold | hnew
    · exact h.checks len' hold
    · rw [List.mem_singleton.mp hnew]
      exact ⟨hmin, hmax⟩

/-- The array of the bools has room for what the request can bring. -/
theorem getBoolRegOn_contained {m : I2cModbus} (hreg : 1 ≤ m.nReg.toInt) (fuel : Nat) (b : I2c)
    (stack : Nat → BitVec 8) (regs : Registers) :
    (getBoolRegOn fuel m b stack regs).buffer.Contained
      (ReadHandler.getBoolReg.sizeReply m).toNat := by
  have hsize := ReadHandler.getBoolReg_sizeReply m
  obtain ⟨hmin, hmax⟩ := boolBytes_bounds (show 0 ≤ m.nReg.toInt by omega)
  have hlen : ReadHandler.getBoolReg.sizeReply m = 4 + boolBytes m.nReg.toInt := rfl
  have hsmall := BitVec.toInt_lt (x := m.nReg)
  have hnat : (BitVec.ofInt 32 (ReadHandler.getBoolReg.sizeReply m)).toNat =
      (ReadHandler.getBoolReg.sizeReply m).toNat := by
    rw [BitVec.toNat_ofInt]
    omega
  have hfits : ReadHandler.getBoolReg.sizeReply m ≤
      ((ReadHandler.getBoolReg.sizeReply m).toNat : Int) := by omega
  have hfresh : (Buffer.fresh stack).Within (ReadHandler.getBoolReg.sizeReply m).toNat :=
    fun i hi => nomatch hi
  have hread := I2c.readLenghtMaster_within hfits fuel m.addr b hfresh
  have hcontained : (b.readLenghtMaster fuel m.addr (ReadHandler.getBoolReg.sizeReply m)
      (.fresh stack)).2.2.Contained (ReadHandler.getBoolReg.sizeReply m).toNat := by
    refine ⟨hread.1, fun len hlen => ?_⟩
    rw [hread.2] at hlen
    exact nomatch hlen
  simp only [getBoolRegOn, hsize]
  generalize b.readLenghtMaster fuel m.addr (ReadHandler.getBoolReg.sizeReply m)
    (.fresh stack) = read at hcontained ⊢
  obtain ⟨status, bus, buffer⟩ := read
  cases status with
  | none => exact hcontained
  | some stat =>
    have hwhole : (BitVec.ofInt 32 (ReadHandler.getBoolReg.sizeReply m)).toNat ≤
        (ReadHandler.getBoolReg.sizeReply m).toNat := Nat.le_of_eq hnat
    have hcheck := hcontained.checkCrc16 (by omega) hwhole
    have hlast : 2 + (m.nReg.toInt.toNat - 1) / 8 < (ReadHandler.getBoolReg.sizeReply m).toNat := by
      omega
    have hfirst : 0 < m.nReg.toInt.toNat := by omega
    have hloop := getBoolRegLoopOn_contained hlast hfirst (8 * (buffer.bytes 1).toNat)
      (m.regAddr.signExtend 32) regs hcheck
    have hcount : ((m.nReg.toInt.toNat - 0 : Nat) : Int) = m.nReg.toInt := by omega
    rw [hcount, ← List.range_eq_range'] at hloop
    dsimp only
    split
    · exact hcontained
    split
    · exact hloop
    · exact hcheck

/-! ## Every handler -/

namespace BufferHandler

/-- A reply stays inside its buffer unless it is read until the slave stops and the
slave does not stop within 0xFF bytes. -/
theorem run_contained_iff (h : BufferHandler) {m : I2cModbus} (hreg : 1 ≤ m.nReg.toInt)
    (fuel : Nat) (b : I2c) (stack : Nat → BitVec 8) (regs : Registers) :
    (h.run fuel m b stack regs).buffer.Contained (h.bufferSize m) ↔
      h = getBoolReg ∨ b.supplies m.addr 0x100 = false := by
  cases h with
  | getEventLog =>
    rw [run, bufferSize, openReplyOn_contained_iff]
    exact (or_iff_right BufferHandler.noConfusion).symm
  | readFileRecord =>
    rw [run, bufferSize, openReplyOn_contained_iff]
    exact (or_iff_right BufferHandler.noConfusion).symm
  | getBoolReg => exact iff_of_true (getBoolRegOn_contained hreg fuel b stack regs) (Or.inl rfl)

/-- A free bus and a slave that sends `n` bytes, each taken in four accesses. -/
def slaveBus (n : Nat) : I2c where
  stat := fun i =>
    { pending := true
      state := if 2 ≤ i ∧ i < 4 + 4 * n then i2cStatMststRxrdy else i2cStatMststIdle }
  mstdat := fun _ => 0
  trace := []
  timeOuts := 0

def logRequest : I2cModbus :=
  { messageDefault with code := Modbus.getEventLog, nReg := 1, addr := sysI2cAddrWiFi }

theorem slaveBus_supplies (n : Nat) : (slaveBus n).supplies sysI2cAddrWiFi n = true := by
  have hidle : (slaveBus n).waitI2cMasterState i2cStatMststIdle =
      (.ok, ((slaveBus n).record .readStat).record .readStat) := by
    rfl
  rw [I2c.supplies, hidle]
  refine I2c.offers_of_ready fun i hlow hhigh => ?_
  have hlow : 4 ≤ i := hlow
  have hhigh : i < 4 + 4 * n := hhigh
  exact congrArg (fun state => (⟨true, state⟩ : Stat)) (if_pos ⟨by omega, hhigh⟩)

/-- A slave that sends 0x100 bytes. -/
theorem run_leaves :
    ¬ ∀ (h : BufferHandler) (m : I2cModbus) (fuel : Nat) (b : I2c) (stack : Nat → BitVec 8)
      (regs : Registers), 1 ≤ m.nReg.toInt →
      (h.run fuel m b stack regs).buffer.Contained (h.bufferSize m) := by
  intro hall
  have hcontained := hall getEventLog logRequest 0 (slaveBus 0x100) (fun _ => 0)
    bootFirmware.regs (by decide)
  rw [run, bufferSize, openReplyOn_contained_iff] at hcontained
  exact absurd (hcontained.symm.trans (slaveBus_supplies 0x100)) Bool.noConfusion

/-- A slave that sends an event log of one event. -/
theorem run_contained_log :
    (getEventLog.run 0 logRequest (slaveBus 6) (fun _ => 0) bootFirmware.regs).buffer.Contained
      (getEventLog.bufferSize logRequest) :=
  (run_contained_iff getEventLog (by decide) 0 _ _ _).mpr (Or.inr (by decide +kernel))

end BufferHandler

/-! ## The handlers on a bus are those of an exchange -/

/-- The exchange holds the bytes read. -/
theorem openReplyOn_openReply {e : Exchange} {f : Firmware} {b : I2c} {stack : Nat → BitVec 8}
    (hreply : e.reply = if (b.readMaster f.queue.head.addr (.fresh stack)).1 = .ok then
      some (b.readMaster f.queue.head.addr (.fresh stack)).2.2.bytes else none)
    (sizeReply : BitVec 8 → Nat) (n : Nat) :
    let handling := openReplyOn sizeReply n f.queue.head.addr b stack f.regs
    handling.status = some (openReply sizeReply e f).1 ∧
      handling.regs = (openReply sizeReply e f).2.regs := by
  simp only [openReplyOn, openReply, i2cReadMaster, hreply]
  generalize b.readMaster f.queue.head.addr (.fresh stack) = read
  by_cases hok : read.1 = .ok
  · rw [if_neg (not_not_intro hok), if_pos hok]
    have hsame : ((read.2.2.load 1).2.checkCrc16
        (BitVec.ofNat 32 (sizeReply (read.2.2.load 1).1))).1 =
        checkCrc16 read.2.2.bytes (BitVec.ofNat 32 (sizeReply (read.2.2.bytes 1))) := rfl
    rw [hsame]
    dsimp only
    by_cases hcrc :
        checkCrc16 read.2.2.bytes (BitVec.ofNat 32 (sizeReply (read.2.2.bytes 1))) = true
    · rw [if_pos hcrc, if_pos hcrc]
      exact ⟨rfl, rfl⟩
    · rw [if_neg hcrc, if_neg hcrc]
      exact ⟨rfl, rfl⟩
  · rw [if_pos hok, if_neg hok]
    exact ⟨rfl, rfl⟩

/-- An exchange of the driver delivers all it holds: past 255 bytes the loop does not end
well. -/
theorem delivered_of_read {e : Exchange} {b : I2c} {fuel : Nat} {addr : BitVec 8} {len : Int}
    {r : Buffer} {stat : I2cStat} {bus : I2c} {buffer : Buffer}
    (hread : b.readLenghtMaster fuel addr len r = (some stat, bus, buffer))
    (hreply : e.reply = if stat = .ok then some buffer.bytes else none) :
    e.delivered len = if stat = .ok then some buffer.bytes else none := by
  by_cases hlen : len ≤ 255
  · exact (e.delivered_of_le hlen).trans hreply
  · have hne : stat ≠ .ok := by
      rintro rfl
      exact I2c.readLenghtMaster_ne_ok (Int.not_le.mp hlen) fuel addr b r (congrArg Prod.fst hread)
    rw [e.delivered_of_lt (Int.not_le.mp hlen), if_neg hne]

theorem getBoolRegOn_getBoolReg {e : Exchange} {f : Firmware} {b : I2c} {fuel : Nat}
    {stack : Nat → BitVec 8} {stat : I2cStat} {bus : I2c} {buffer : Buffer}
    (hread : b.readLenghtMaster fuel f.queue.head.addr
      (ReadHandler.getBoolReg.sizeReply f.queue.head) (.fresh stack) = (some stat, bus, buffer))
    (hreply : e.reply = if stat = .ok then some buffer.bytes else none) :
    let handling := getBoolRegOn fuel f.queue.head b stack f.regs
    handling.status = some (getBoolReg e f).1 ∧ handling.regs = (getBoolReg e f).2.regs := by
  have hsize := ReadHandler.getBoolReg_sizeReply f.queue.head
  have hdelivered := delivered_of_read hread hreply
  simp only [getBoolRegOn, hsize, hread]
  by_cases hok : stat = .ok
  · rw [if_pos hok] at hdelivered
    rw [if_neg (not_not_intro hok)]
    by_cases hcrc : checkCrc16 buffer.bytes
        (BitVec.ofInt 32 (ReadHandler.getBoolReg.sizeReply f.queue.head)) = true
    · have hloop := getBoolRegLoopOn_eq (List.range (8 * (buffer.bytes 1).toNat))
        f.queue.head.nReg.toInt (f.queue.head.regAddr.signExtend 32) f.regs
        (buffer.checkCrc16 (BitVec.ofInt 32 (ReadHandler.getBoolReg.sizeReply f.queue.head))).2
      rw [ReadHandler.getBoolReg_checked hdelivered hcrc]
      have hcheck : (buffer.checkCrc16
          (BitVec.ofInt 32 (ReadHandler.getBoolReg.sizeReply f.queue.head))).1 = true := hcrc
      rw [if_pos hcheck]
      exact ⟨congrArg (fun result => some result.1) hloop, congrArg Prod.snd hloop⟩
    · have hcheck : ¬ (buffer.checkCrc16
          (BitVec.ofInt 32 (ReadHandler.getBoolReg.sizeReply f.queue.head))).1 = true := hcrc
      have hfail : getBoolReg e f = (replyFail, f.record (.readLenght f.queue.head.addr
          (ReadHandler.getBoolReg.sizeReply f.queue.head))) := by
        simp only [getBoolReg, i2cReadLenghtMaster, hsize, hdelivered]
        exact if_neg hcrc
      rw [if_neg hcheck, hfail]
      exact ⟨rfl, rfl⟩
  · rw [if_neg hok] at hdelivered
    rw [if_pos hok, ReadHandler.getBoolReg_unread hdelivered]
    exact ⟨rfl, rfl⟩

end Recirculador
