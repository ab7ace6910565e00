/-
Reading on the I2C bus.

`i2cRead_master` and `i2cReadLenght_master` store the bytes of the slave in a buffer
of the caller, and the buffer notes what is done to it.  `i2cRead_master` reads until
the slave stops, for at most 0x1FF bytes, and `i2cReadClearBuffer_master` does the same
without a buffer.  `i2cReadLenght_master` reads a given number of bytes but counts
them in an `unsigned char`: past 255 bytes it goes on for as long as the slave does.
Its loop takes fuel, and a status of `none` says that it is still running.
-/
import Recirculador.Bus.Driver

namespace Recirculador

/-! ## Buffers -/

/-- A local array of bytes and the indices it was used at. -/
structure Buffer where
  bytes : Nat → BitVec 8
  accesses : List Nat
  /-- The lengths `CHECK_CRC16` was called with. -/
  checks : List (BitVec 32)

namespace Buffer

/-- A local array before its first use. -/
def fresh (bytes : Nat → BitVec 8) : Buffer := { bytes, accesses := [], checks := [] }

def store (i : Nat) (value : BitVec 8) (r : Buffer) : Buffer :=
  { r with bytes := fun j => if j = i then value else r.bytes j, accesses := r.accesses ++ [i] }

def load (i : Nat) (r : Buffer) : BitVec 8 × Buffer :=
  (r.bytes i, { r with accesses := r.accesses ++ [i] })

/-- `memcpy` out of the buffer. -/
def copy (start n : Nat) (r : Buffer) : Buffer :=
  { r with accesses := r.accesses ++ List.range' start n }

/-- `CHECK_CRC16`: the last byte, the one before it, and the `len - 2` others. -/
def checkCrc16 (len : BitVec 32) (r : Buffer) : Bool × Buffer :=
  (Recirculador.checkCrc16 r.bytes len,
    { r with
      accesses := r.accesses ++
        ((len - 1).toNat :: (len - 2).toNat :: List.range (len - 2).toNat)
      checks := r.checks ++ [len] })

end Buffer

namespace I2c

/-! ## The read functions -/

/-- The loop of `i2cRead_master` from index `i` on, `n` turns to go. -/
def readLoop : Nat → Nat → I2c → Buffer → I2cStat × I2c × Buffer
  | 0, _, b, r => (.ok, b, r)
  | n + 1, i, b, r =>
    let wait := b.waitI2cMasterState i2cStatMststRxrdy
    if wait.1 ≠ .ok then (wait.1, wait.2, r)
    else
      let byte := wait.2.readMstdat
      readLoop n (i + 1) (byte.2.writeMstctl .mstctlContinue) (r.store i byte.1)

def readMaster (addr : BitVec 8) (b : I2c) (r : Buffer) : I2cStat × I2c × Buffer :=
  let wait := b.waitI2cMasterState i2cStatMststIdle
  if wait.1 ≠ .ok then (wait.1, wait.2, r)
  else
    let read := readLoop 0x1FF 0 (wait.2.startTransfer addr 1) r
    if read.1 ≠ .ok then read
    else
      (.ok, ((read.2.1.writeMstctl .mstctlStop).waitI2cMasterState i2cStatMststIdle).2, read.2.2)

/-- The loop of `i2cReadClearBuffer_master`, `n` turns to go. -/
def clearLoop : Nat → I2c → I2cStat × I2c
  | 0, b => (.ok, b)
  | n + 1, b =>
    ifOk (b.waitI2cMasterState i2cStatMststRxrdy) fun b =>
      clearLoop n (b.readMstdat.2.writeMstctl .mstctlContinue)

/-- `i2cReadClearBuffer_master`: the bytes are read and dropped. -/
def readClearBufferMaster (addr : BitVec 8) (b : I2c) : I2cStat × I2c :=
  ifOk (b.waitI2cMasterState i2cStatMststIdle) fun b =>
  ifOk (clearLoop 0x1FF (b.startTransfer addr 1)) fun b =>
    (.ok, ((b.writeMstctl .mstctlStop).waitI2cMasterState i2cStatMststIdle).2)

/-- The loop of `i2cReadLenght_master` from `i` on. -/
def readLenghtLoop (len : Int) : Nat → BitVec 8 → I2c → Buffer → Option I2cStat × I2c × Buffer
  | 0, _, b, r => (none, b, r)
  | fuel + 1, i, b, r =>
    if (i.toNat : Int) < len then
      let wait := b.waitI2cMasterRxrdy
      if wait.1 ≠ .ok then (some wait.1, wait.2, r)
      else
        let byte := wait.2.readMstdat
        readLenghtLoop len fuel (i + 1) (byte.2.writeMstctl .mstctlContinue)
          (r.store i.toNat byte.1)
    else (some .ok, b, r)

/-- The end of `i2cReadLenght_master`.  The results of its waits are dropped. -/
def endRead (b : I2c) : I2c :=
  let b := (b.waitI2cMasterRxrdy).2
  let b := (b.writeMstdat 0).writeMstctl .mstctlStop
  (b.waitI2cMasterState i2cStatMststIdle).2

def readLenghtMaster (fuel : Nat) (addr : BitVec 8) (len : Int) (b : I2c) (r : Buffer) :
    Option I2cStat × I2c × Buffer :=
  let wait := b.waitI2cMasterState i2cStatMststIdle
  if wait.1 ≠ .ok then (some wait.1, wait.2, r)
  else
    let pending := (wait.2.startTransfer addr 1).poll (fun s => s.pending)
      (100 * loopWaitReceive + 2)
    if pending.1 = false then (some .timeOut, pending.2.giveUp, r)
    else
      let read := readLenghtLoop len fuel 0 pending.2 r
      if read.1 ≠ some .ok then read else (some .ok, read.2.1.endRead, read.2.2)

/-! ## What a slave supplies -/

/-- The controller after a byte was waited for and taken. -/
def takeByte (b : I2c) : I2c :=
  (b.waitI2cMasterState i2cStatMststRxrdy).2.readMstdat.2.writeMstctl .mstctlContinue

/-- `n` bytes come in time, one after the other. -/
def offers : Nat → I2c → Bool
  | 0, _ => true
  | n + 1, b => (b.waitI2cMasterState i2cStatMststRxrdy).1 == .ok && offers n b.takeByte

/-- The slave at `addr`, addressed on a free bus, sends `n` bytes in time. -/
def supplies (addr : BitVec 8) (n : Nat) (b : I2c) : Bool :=
  let wait := b.waitI2cMasterState i2cStatMststIdle
  wait.1 == .ok && offers n (wait.2.startTransfer addr 1)

end I2c

/-! ## Staying inside -/

def Buffer.Within (size : Nat) (r : Buffer) : Prop := ∀ i ∈ r.accesses, i < size

namespace Buffer

theorem within_append {size : Nat} {r : Buffer} {more : List Nat} {bytes : Nat → BitVec 8}
    {checks : List (BitVec 32)} :
    Within size { bytes, accesses := r.accesses ++ more, checks } ↔
      Within size r ∧ ∀ i ∈ more, i < size :=
  List.forall_mem_append

theorem within_store {size i : Nat} {value : BitVec 8} {r : Buffer} :
    Within size (r.store i value) ↔ Within size r ∧ i < size := by
  rw [store, within_append, List.forall_mem_singleton]

theorem within_load {size i : Nat} {r : Buffer} :
    Within size (r.load i).2 ↔ Within size r ∧ i < size := by
  rw [load, within_append, List.forall_mem_singleton]

end Buffer

namespace I2c

/-- How many of `n` bytes come in time. -/
def taken : Nat → I2c → Nat
  | 0, _ => 0
  | n + 1, b =>
    if (b.waitI2cMasterState i2cStatMststRxrdy).1 = .ok then taken n b.takeByte + 1 else 0

theorem offers_iff_taken {k n : Nat} (hk : k ≤ n) (b : I2c) :
    offers k b = true ↔ k ≤ taken n b := by
  induction n generalizing k b with
  | zero =>
    have hzero : k = 0 := Nat.le_zero.mp hk
    subst hzero
    exact iff_of_true rfl (Nat.zero_le _)
  | succ n ih =>
    cases k with
    | zero => exact iff_of_true rfl (Nat.zero_le _)
    | succ k =>
      rw [offers, taken, Bool.and_eq_true, beq_iff_eq]
      by_cases hwait : (b.waitI2cMasterState i2cStatMststRxrdy).1 = .ok
      · rw [if_pos hwait, ih (Nat.le_of_succ_le_succ hk), Nat.add_le_add_iff_right]
        exact and_iff_right hwait
      · rw [if_neg hwait]
        exact iff_of_false (fun h => hwait h.1) (by omega)

theorem readStat_ready {b : I2c} {shown : Stat} (h : b.stat b.trace.length = shown) :
    b.readStat = (shown, b.record .readStat) := by
  rw [readStat, h]

/-- A controller that shows a received byte whenever it is looked at. -/
theorem offers_of_ready {n : Nat} {b : I2c}
    (h : ∀ i, b.trace.length ≤ i → i < b.trace.length + 4 * n →
      b.stat i = { pending := true, state := i2cStatMststRxrdy }) : offers n b = true := by
  induction n generalizing b with
  | zero => rfl
  | succ n ih =>
    have hpending := readStat_ready (h b.trace.length (Nat.le_refl _) (by omega))
    have hlen : (b.record .readStat).trace.length = b.trace.length + 1 := List.length_append
    have hstate := readStat_ready (b := b.record .readStat)
      (h (b.record .readStat).trace.length (by omega) (by omega))
    have hwait : b.waitI2cMasterState i2cStatMststRxrdy =
        (.ok, (b.record .readStat).record .readStat) := by
      simp only [waitI2cMasterState, poll, hpending, hstate, if_true, beq_self_eq_true,
        Bool.true_eq_false, if_false]
    have htake : b.takeByte.trace.length = b.trace.length + 4 := by
      simp only [takeByte, hwait, readMstdat, writeMstctl, record, List.length_append,
        List.length_singleton]
    have hsame : b.takeByte.stat = b.stat := by
      simp only [takeByte, hwait, readMstdat, writeMstctl, record]
    rw [offers, hwait, ih]
    · rfl
    · intro i hlow hhigh
      rw [hsame]
      exact h i (by omega) (by omega)

/-- The loop stores what comes in time at one index after the other. -/
theorem readLoop_spec (n i : Nat) (b : I2c) (r : Buffer) :
    (readLoop n i b r).2.2.accesses = r.accesses ++ List.range' i (taken n b) ∧
      (readLoop n i b r).2.2.checks = r.checks ∧
      ((readLoop n i b r).1 = .ok ↔ taken n b = n) := by
  induction n generalizing i b r with
  | zero => exact ⟨(List.append_nil _).symm, rfl, iff_of_true rfl rfl⟩
  | succ n ih =>
    rw [readLoop, taken]
    dsimp only
    by_cases hwait : (b.waitI2cMasterState i2cStatMststRxrdy).1 = .ok
    · rw [if_neg (not_not_intro hwait), if_pos hwait]
      obtain ⟨haccesses, hchecks, hok⟩ := ih (i + 1) b.takeByte
        (r.store i (b.waitI2cMasterState i2cStatMststRxrdy).2.readMstdat.1)
      refine ⟨haccesses.trans ?_, hchecks, hok.trans Nat.succ_inj.symm⟩
      rw [List.range'_succ, Buffer.store, List.append_assoc]
      rfl
    · rw [if_pos hwait, if_neg hwait]
      exact ⟨(List.append_nil _).symm, rfl, iff_of_false hwait (by omega)⟩

/-- Reading until the slave stops stays inside 0xFF bytes exactly if the slave stops
before one more. -/
theorem readMaster_spec (addr : BitVec 8) (b : I2c) (bytes : Nat → BitVec 8) :
    let read := b.readMaster addr (Buffer.fresh bytes)
    (read.2.2.Within 0xFF ↔ b.supplies addr 0x100 = false) ∧ read.2.2.checks = [] ∧
      (read.1 = .ok → b.supplies addr 0x100 = true) := by
  have hempty : Buffer.Within 0xFF (Buffer.fresh bytes) := fun i hi => nomatch hi
  rw [readMaster, supplies]
  dsimp only
  by_cases hidle : (b.waitI2cMasterState i2cStatMststIdle).1 = .ok
  · rw [if_neg (not_not_intro hidle), hidle, beq_self_eq_true, Bool.true_and]
    generalize (b.waitI2cMasterState i2cStatMststIdle).2.startTransfer addr 1 = b'
    obtain ⟨haccesses, hchecks, hok⟩ := readLoop_spec 0x1FF 0 b' (Buffer.fresh bytes)
    have hoffers : offers 0x100 b' = true ↔ 0x100 ≤ taken 0x1FF b' :=
      offers_iff_taken (by decide) b'
    have hwithin : (readLoop 0x1FF 0 b' (Buffer.fresh bytes)).2.2.Within 0xFF ↔
        offers 0x100 b' = false := by
      rw [← Bool.not_eq_true, hoffers, Buffer.Within, haccesses, List.forall_mem_append]
      constructor
      · intro h hmany
        exact absurd (h.2 0xFF (List.mem_range'_1.mpr ⟨Nat.zero_le _, by omega⟩)) (by decide)
      · intro h
        refine ⟨hempty, fun i hi => ?_⟩
        have hlt := (List.mem_range'_1.mp hi).2
        omega
    by_cases hall : (readLoop 0x1FF 0 b' (Buffer.fresh bytes)).1 = .ok
    · rw [if_neg (not_not_intro hall)]
      have htaken := hok.mp hall
      exact ⟨hwithin, hchecks, fun _ => hoffers.mpr (by omega)⟩
    · rw [if_pos hall]
      exact ⟨hwithin, hchecks, fun h => absurd h hall⟩
  · rw [if_pos hidle, beq_eq_false_iff_ne.mpr hidle, Bool.false_and]
    exact ⟨iff_of_true hempty rfl, rfl, fun h => absurd h hidle⟩

/-- Reading a number of bytes stays inside them, however long it takes. -/
theorem readLenghtLoop_within {size : Nat} {len : Int} (hlen : len ≤ size) (fuel : Nat)
    (i : BitVec 8) (b : I2c) {r : Buffer} (hr : r.Within size) :
    (readLenghtLoop len fuel i b r).2.2.Within size ∧
      (readLenghtLoop len fuel i b r).2.2.checks = r.checks := by
  induction fuel generalizing i b r with
  | zero => exact ⟨hr, rfl⟩
  | succ fuel ih =>
    rw [readLenghtLoop]
    dsimp only
    by_cases hi : (i.toNat : Int) < len
    · rw [if_pos hi]
      split
      · exact ⟨hr, rfl⟩
      · exact ih (i + 1) _ (Buffer.within_store.mpr ⟨hr, by omega⟩)
    · rw [if_neg hi]
      exact ⟨hr, rfl⟩

theorem readLenghtMaster_within {size : Nat} {len : Int} (hlen : len ≤ size) (fuel : Nat)
    (addr : BitVec 8) (b : I2c) {r : Buffer} (hr : r.Within size) :
    (b.readLenghtMaster fuel addr len r).2.2.Within size ∧
      (b.readLenghtMaster fuel addr len r).2.2.checks = r.checks := by
  rw [readLenghtMaster]
  dsimp only
  split
  · exact ⟨hr, rfl⟩
  split
  · exact ⟨hr, rfl⟩
  have hloop := readLenghtLoop_within hlen fuel 0 (((b.waitI2cMasterState
    i2cStatMststIdle).2.startTransfer addr 1).poll (fun s => s.pending)
    (100 * loopWaitReceive + 2)).2 hr
  split
  · exact hloop
  · exact hloop

end I2c

/-! ## What a failed read leaves in the buffer -/

namespace Buffer

/-- The buffer after bytes were stored from index `i` on. -/
def fill : Nat → List (BitVec 8) → Buffer → Buffer
  | _, [], r => r
  | i, byte :: received, r => fill (i + 1) received (r.store i byte)

theorem fill_bytes (i : Nat) (received : List (BitVec 8)) (r : Buffer) (j : Nat) :
    (fill i received r).bytes j =
      if j < i then r.bytes j else received.getD (j - i) (r.bytes j) := by
  induction received generalizing i r with
  | nil => rw [fill, List.getD_nil, ite_self]
  | cons byte received ih =>
    rw [fill, ih]
    rcases Nat.lt_trichotomy j i with hlt | heq | hgt
    · rw [if_pos (Nat.lt_succ_of_lt hlt), if_pos hlt]
      exact if_neg (Nat.ne_of_lt hlt)
    · rw [heq, if_pos (Nat.lt_succ_self i), if_neg (Nat.lt_irrefl i), Nat.sub_self,
        List.getD_cons_zero]
      exact if_pos rfl
    · have hnext : j - i = j - (i + 1) + 1 := by omega
      rw [if_neg (by omega), if_neg (by omega), hnext, List.getD_cons_succ]
      exact congrArg (received.getD (j - (i + 1))) (if_neg (Nat.ne_of_gt hgt))

end Buffer

namespace I2c

theorem readLenghtLoop_failed {len : Nat} (hlen : len ≤ 255) {fuel : Nat} {i : BitVec 8}
    {b : I2c} {r : Buffer} {stat : I2cStat} (hstat : (readLenghtLoop len fuel i b r).1 = some stat)
    (hfail : stat ≠ .ok) :
    ∃ received : List (BitVec 8), i.toNat + received.length < len ∧
      (readLenghtLoop len fuel i b r).2.2 = r.fill i.toNat received := by
  induction fuel generalizing i b r with
  | zero => exact nomatch hstat
  | succ fuel ih =>
    rw [readLenghtLoop] at hstat ⊢
    by_cases hi : (i.toNat : Int) < len
    · rw [if_pos hi] at hstat ⊢
      dsimp only at hstat ⊢
      by_cases hwait : b.waitI2cMasterRxrdy.1 = .ok
      · rw [if_neg (not_not_intro hwait)] at hstat ⊢
        obtain ⟨received, hcount, hbuffer⟩ := ih hstat
        have hnext : (i + 1).toNat = i.toNat + 1 := by bv_omega
        rw [hnext] at hcount hbuffer
        exact ⟨b.waitI2cMasterRxrdy.2.readMstdat.1 :: received,
          by rw [List.length_cons]; omega, hbuffer⟩
      · rw [if_pos hwait]
        exact ⟨[], by rw [List.length_nil]; omega, rfl⟩
    · rw [if_neg hi] at hstat
      exact absurd (Option.some.inj hstat).symm hfail

/-- A read that fails has stored fewer bytes than it was asked for. -/
theorem readLenghtMaster_failed {len : Nat} (hpos : 0 < len) (hlen : len ≤ 255) {fuel : Nat}
    {addr : BitVec 8} {b : I2c} {r : Buffer} {stat : I2cStat}
    (hstat : (b.readLenghtMaster fuel addr len r).1 = some stat) (hfail : stat ≠ .ok) :
    ∃ received : List (BitVec 8), received.length < len ∧
      (b.readLenghtMaster fuel addr len r).2.2 = r.fill 0 received := by
  rw [readLenghtMaster] at hstat ⊢
  dsimp only at hstat ⊢
  split
  · exact ⟨[], hpos, rfl⟩
  split
  · exact ⟨[], hpos, rfl⟩
  · rename_i hidle hpending
    rw [if_neg hidle, if_neg hpending] at hstat
    split
    · rename_i hloop
      rw [if_pos hloop] at hstat
      obtain ⟨received, hcount, hbuffer⟩ := readLenghtLoop_failed hlen hstat hfail
      exact ⟨received, by simpa using hcount, hbuffer⟩
    · rename_i hloop
      rw [if_neg hloop] at hstat
      exact absurd (Option.some.inj hstat).symm hfail

end I2c

end Recirculador
