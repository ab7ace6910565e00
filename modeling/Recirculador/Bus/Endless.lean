/-
When `i2cReadLenght_master` ends.

Its counter is an `unsigned char` and its bound an `int`.  Up to a length of 255 the
counter gets there; past it only the slave can end the loop, by letting a wait give
up.  `readLenghtMaster_ends_iff` says that these are the only two ways out.
-/
import Recirculador.Bus.Reader

namespace Recirculador
namespace I2c

/-- The controller after a byte was waited for by `WaitI2cMasterRXRDY` and taken. -/
def takeRxrdy (b : I2c) : I2c :=
  b.waitI2cMasterRxrdy.2.readMstdat.2.writeMstctl .mstctlContinue

/-- `n` bytes come in time, one after the other. -/
def offersRxrdy : Nat → I2c → Bool
  | 0, _ => true
  | n + 1, b => b.waitI2cMasterRxrdy.1 == .ok && offersRxrdy n b.takeRxrdy

/-- On a free bus the slave at `addr` answers in time and has `n` bytes ready in time. -/
def suppliesRxrdy (addr : BitVec 8) (n : Nat) (b : I2c) : Bool :=
  let wait := b.waitI2cMasterState i2cStatMststIdle
  let pending := (wait.2.startTransfer addr 1).poll (fun s => s.pending)
    (100 * loopWaitReceive + 2)
  wait.1 == .ok && (pending.1 && offersRxrdy n pending.2)

/-! ## The loop -/

/-- A bound the counter can reach is reached in as many turns as are left. -/
theorem readLenghtLoop_ends {len : Int} (hlen : len ≤ 255) {fuel : Nat} {i : BitVec 8}
    (hfuel : len < i.toNat + fuel) (b : I2c) (r : Buffer) (hpos : 0 < fuel) :
    ∃ stat, (readLenghtLoop len fuel i b r).1 = some stat := by
  induction fuel generalizing i b r with
  | zero => exact absurd hpos (Nat.lt_irrefl 0)
  | succ fuel ih =>
    rw [readLenghtLoop]
    dsimp only
    by_cases hi : (i.toNat : Int) < len
    · have hnext : (i + 1).toNat = i.toNat + 1 := by bv_omega
      rw [if_pos hi]
      split
      · exact ⟨_, rfl⟩
      · exact ih (by omega) _ _ (by omega)
    · rw [if_neg hi]
      exact ⟨_, rfl⟩

/-- A wait that gives up ends the loop. -/
theorem readLenghtLoop_starved {len : Int} {n : Nat} {b : I2c} (h : offersRxrdy n b = false)
    (i : BitVec 8) (r : Buffer) : ∃ stat, (readLenghtLoop len n i b r).1 = some stat := by
  induction n generalizing i b r with
  | zero => exact nomatch h
  | succ n ih =>
    rw [readLenghtLoop]
    dsimp only
    by_cases hi : (i.toNat : Int) < len
    · rw [if_pos hi]
      split
      · exact ⟨_, rfl⟩
      · rename_i hwait
        rw [offersRxrdy, beq_iff_eq.mpr (Decidable.not_not.mp hwait), Bool.true_and] at h
        exact ih h _ _
    · rw [if_neg hi]
      exact ⟨_, rfl⟩

/-- Past 255 the counter never reaches the bound. -/
theorem readLenghtLoop_running {len : Int} (hlen : 255 < len) {fuel : Nat} {b : I2c}
    (h : offersRxrdy fuel b = true) (i : BitVec 8) (r : Buffer) :
    (readLenghtLoop len fuel i b r).1 = none := by
  induction fuel generalizing i b r with
  | zero => rfl
  | succ fuel ih =>
    have hbyte := i.isLt
    have hi : (i.toNat : Int) < len := by omega
    rw [offersRxrdy, Bool.and_eq_true, beq_iff_eq] at h
    rw [readLenghtLoop]
    dsimp only
    rw [if_pos hi, if_neg (not_not_intro h.1)]
    exact ih h.2 _ _

/-! ## The function -/

/-- The three ways through the function up to its loop. -/
theorem readLenghtMaster_status (fuel : Nat) (addr : BitVec 8) (len : Int) (b : I2c) (r : Buffer) :
    let wait := b.waitI2cMasterState i2cStatMststIdle
    let pending := (wait.2.startTransfer addr 1).poll (fun s => s.pending)
      (100 * loopWaitReceive + 2)
    (b.readLenghtMaster fuel addr len r).1 =
      if wait.1 ≠ .ok then some wait.1
      else if pending.1 = false then some .timeOut
      else (readLenghtLoop len fuel 0 pending.2 r).1 := by
  rw [readLenghtMaster]
  dsimp only
  split
  · rfl
  split
  · rfl
  split
  · rfl
  · rename_i hloop
    exact (Decidable.not_not.mp hloop).symm

/-- A length of up to 255 bytes is read or given up in 256 turns. -/
theorem readLenghtMaster_ends {len : Int} (hlen : len ≤ 255) {fuel : Nat} (hfuel : 256 ≤ fuel)
    (addr : BitVec 8) (b : I2c) (r : Buffer) :
    ∃ stat, (b.readLenghtMaster fuel addr len r).1 = some stat := by
  have hzero : (0 : BitVec 8).toNat = 0 := rfl
  rw [readLenghtMaster_status]
  split
  · exact ⟨_, rfl⟩
  split
  · exact ⟨_, rfl⟩
  · exact readLenghtLoop_ends hlen (by omega) _ r (by omega)

/-- Past 255 bytes a loop that ends has given up. -/
theorem readLenghtLoop_ne_ok {len : Int} (hlen : 255 < len) (fuel : Nat) (i : BitVec 8) (b : I2c)
    (r : Buffer) : (readLenghtLoop len fuel i b r).1 ≠ some .ok := by
  induction fuel generalizing i b r with
  | zero => exact fun h => nomatch h
  | succ fuel ih =>
    have hbyte := i.isLt
    have hi : (i.toNat : Int) < len := by omega
    rw [readLenghtLoop]
    dsimp only
    rw [if_pos hi]
    split
    · rename_i hwait
      exact fun h => hwait (Option.some.inj h)
    · exact ih _ _ _

/-- Past 255 bytes no read ends well. -/
theorem readLenghtMaster_ne_ok {len : Int} (hlen : 255 < len) (fuel : Nat) (addr : BitVec 8)
    (b : I2c) (r : Buffer) : (b.readLenghtMaster fuel addr len r).1 ≠ some .ok := by
  rw [readLenghtMaster_status]
  split
  · rename_i hidle
    exact fun h => hidle (Option.some.inj h)
  split
  · exact fun h => nomatch h
  · exact readLenghtLoop_ne_ok hlen fuel 0 _ r

/-- The function returns, and what it stored by then lies within the length. -/
def ReadEnds (addr : BitVec 8) (len : Nat) (b : I2c) (bytes : Nat → BitVec 8) : Prop :=
  (∃ fuel stat, (b.readLenghtMaster fuel addr len (Buffer.fresh bytes)).1 = some stat) ∧
    ∀ fuel, (b.readLenghtMaster fuel addr len (Buffer.fresh bytes)).2.2.Within len

theorem ends_iff_supplies {len : Nat} (hlen : 255 < len) (addr : BitVec 8) (b : I2c)
    (r : Buffer) :
    (∃ fuel stat, (b.readLenghtMaster fuel addr len r).1 = some stat) ↔
      ∃ n, b.suppliesRxrdy addr n = false := by
  simp only [readLenghtMaster_status, suppliesRxrdy]
  by_cases hidle : (b.waitI2cMasterState i2cStatMststIdle).1 = .ok
  · simp only [hidle, ne_eq, not_true_eq_false, if_false, beq_self_eq_true, Bool.true_and]
    generalize ((b.waitI2cMasterState i2cStatMststIdle).2.startTransfer addr 1).poll
      (fun s => s.pending) (100 * loopWaitReceive + 2) = pending
    cases hpending : pending.1 with
    | false =>
      exact iff_of_true ⟨0, .timeOut, if_pos rfl⟩ ⟨0, Bool.false_and _⟩
    | true =>
      simp only [Bool.true_and, Bool.true_eq_false, if_false]
      constructor
      · intro h
        obtain ⟨fuel, stat, hstat⟩ := h
        refine ⟨fuel, Bool.eq_false_iff.mpr fun hoffers => ?_⟩
        rw [readLenghtLoop_running (by omega) hoffers] at hstat
        exact nomatch hstat
      · intro h
        obtain ⟨n, hstarved⟩ := h
        exact ⟨n, readLenghtLoop_starved hstarved 0 r⟩
  · exact iff_of_true ⟨0, _, if_pos hidle⟩
      ⟨0, by rw [beq_eq_false_iff_ne.mpr hidle, Bool.false_and]⟩

/-- A read of a given length ends exactly if the length is at most 255 or the slave
does not always have another byte ready in time. -/
theorem readLenghtMaster_ends_iff (addr : BitVec 8) (len : Nat) (b : I2c)
    (bytes : Nat → BitVec 8) :
    ReadEnds addr len b bytes ↔ len ≤ 255 ∨ ∃ n, b.suppliesRxrdy addr n = false := by
  have hfresh : (Buffer.fresh bytes).Within len := fun i hi => nomatch hi
  have hwithin : ∀ fuel,
      (b.readLenghtMaster fuel addr len (Buffer.fresh bytes)).2.2.Within len :=
    fun fuel => (readLenghtMaster_within (Int.le_refl len) fuel addr b hfresh).1
  rw [ReadEnds, and_iff_left hwithin]
  by_cases hlen : len ≤ 255
  · refine iff_of_true ?_ (Or.inl hlen)
    exact ⟨256, readLenghtMaster_ends (by omega) (Nat.le_refl 256) addr b _⟩
  · rw [ends_iff_supplies (by omega), or_iff_right hlen]

/-! ## A slave that never stops -/

theorem offersRxrdy_of_ready {b : I2c}
    (h : ∀ i, b.trace.length ≤ i → b.stat i = { pending := true, state := i2cStatMststRxrdy })
    (n : Nat) : offersRxrdy n b = true := by
  induction n generalizing b with
  | zero => rfl
  | succ n ih =>
    have hread := readStat_ready (h b.trace.length (Nat.le_refl _))
    have hwait : b.waitI2cMasterRxrdy = (.ok, b.record .readStat) := by
      simp only [waitI2cMasterRxrdy, poll, hread, beq_self_eq_true, if_true, Bool.true_eq_false,
        if_false]
    have htake : b.takeRxrdy.trace.length = b.trace.length + 3 := by
      simp only [takeRxrdy, hwait, readMstdat, writeMstctl, record, List.length_append,
        List.length_singleton]
    have hsame : b.takeRxrdy.stat = b.stat := by
      simp only [takeRxrdy, hwait, readMstdat, writeMstctl, record]
    rw [offersRxrdy, hwait, ih]
    · rfl
    · intro i hi
      rw [hsame]
      exact h i (by omega)

/-- A controller that is idle for the first wait and shows a received byte ever after. -/
def endlessBus : I2c where
  stat := fun n => ⟨true, if n < 2 then i2cStatMststIdle else i2cStatMststRxrdy⟩
  mstdat := fun _ => 0
  trace := []
  timeOuts := 0

/-- The reply to a request for 63 int registers has 256 bytes. -/
theorem readLenghtMaster_endless :
    ¬ ReadEnds sysI2cAddrWiFi (4 + 4 * 63) endlessBus fun _ => 0 := by
  intro h
  obtain ⟨n, hn⟩ := (ends_iff_supplies (by decide) sysI2cAddrWiFi endlessBus _).mp h.1
  have hready : ∀ i, 5 ≤ i →
      endlessBus.stat i = { pending := true, state := i2cStatMststRxrdy } := by
    intro i hi
    have hlt : ¬ i < 2 := by omega
    simp only [endlessBus, if_neg hlt]
  have hoffers : endlessBus.suppliesRxrdy sysI2cAddrWiFi n = offersRxrdy n _ := rfl
  rw [hoffers] at hn
  apply Bool.eq_false_iff.mp hn
  apply offersRxrdy_of_ready
  intro i hi
  exact hready i hi

open SysRegMap in
/-- The length `_Generic_Read_Reg` asks for fits the counter for at most 125 short or
62 int registers. -/
theorem requestLength_le_iff {regAddr : Int} (hlow : (offsetShort : Int) ≤ regAddr)
    (hhigh : regAddr < mapEnd) (nReg : Nat) :
    4 + (getRegBytes regAddr).toNat * nReg ≤ 255 ↔
      nReg ≤ if regAddr < offsetInt then 125 else 62 := by
  have hbool : ¬ ((offsetBool : Int) ≤ regAddr ∧ regAddr < offsetShort) := by omega
  rw [getRegBytes, if_neg hbool]
  by_cases hshort : regAddr < offsetInt
  · have hbytes : (2#32).toNat = 2 := rfl
    rw [if_pos ⟨hlow, hshort⟩, if_pos hshort, hbytes]
    omega
  · have hbytes : (4#32).toNat = 4 := rfl
    rw [if_neg (fun h => hshort h.2), if_pos ⟨by omega, hhigh⟩, if_neg hshort, hbytes]
    omega

end I2c
end Recirculador
