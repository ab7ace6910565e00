/-
Scalar registers as independent cells.

The writers of the three banks differ in how they reach a register and agree in
what they do: the register takes the value, no other register moves, and the
bank's bit of the change flag is raised if the value was another one before.
`scalarRegisters` says so for every pair of registers.
-/
import Recirculador.Registers.Vector

namespace Recirculador

open SysRegMap Registers

/-- The type of a bank's registers. -/
abbrev Bank.Value : Bank → Type
  | .bool => Bool
  | .short => BitVec 16
  | .int => BitVec 32

instance : (b : Bank) → DecidableEq b.Value
  | .bool => inferInstanceAs (DecidableEq Bool)
  | .short => inferInstanceAs (DecidableEq (BitVec 16))
  | .int => inferInstanceAs (DecidableEq (BitVec 32))

/-- `reg_write_bool`, `reg_write_short` or `reg_write_int`. -/
def regWriteScalar : (b : Bank) → b.Value → Nat → Registers → Registers
  | .bool => regWriteBool
  | .short => regWriteShort
  | .int => regWriteInt

/-- `reg_read_bool`, `reg_read_short` or `reg_read_int`. -/
def regReadScalar : (b : Bank) → Nat → Registers → b.Value
  | .bool => regReadBool
  | .short => regReadShort
  | .int => regReadInt

namespace Registers

/-- Register `k` of a bank. -/
def scalar (r : Registers) : (b : Bank) → Nat → b.Value
  | .bool, k => r.boolBit k
  | .short, k => r.shortRegVet k
  | .int, k => r.intRegVet k

def setScalar (r : Registers) : (b : Bank) → Nat → b.Value → Registers
  | .bool, k, v => r.setByte (k / 8) (boolWrite v (k % 8) (r.regVet (k / 8)))
  | .short, k, v => r.setShort k v
  | .int, k, v => r.setInt k v

@[simp] theorem raise_scalar (r : Registers) (b c : Bank) (k : Nat) :
    (r.raise b).scalar c k = r.scalar c k := by
  cases c <;> rfl

@[simp] theorem setScalar_changeFlag (r : Registers) (b : Bank) (k : Nat) (v : b.Value) :
    (r.setScalar b k v).changeFlag = r.changeFlag := by
  cases b <;> rfl

theorem setScalar_same (r : Registers) (b : Bank) (k : Nat) (v : b.Value) :
    (r.setScalar b k v).scalar b k = v := by
  cases b with
  | bool => exact (setByte_boolBit r k v k).trans (if_pos rfl)
  | short => exact (setShort_shortRegVet r k k v).trans (if_pos rfl)
  | int => exact (setInt_intRegVet r k k v).trans (if_pos rfl)

/-- In its own bank a write meets no other index, and in another bank no index at
all. -/
theorem setScalar_other {b c : Bank} {j k : Nat} (hj : j < 128) (hk : k < 128)
    (h : c = b → k ≠ j) (r : Registers) (v : b.Value) :
    (r.setScalar b j v).scalar c k = r.scalar c k := by
  have hbyte : j / 8 < 16 := by omega
  cases b with
  | bool =>
    cases c with
    | bool => exact (setByte_boolBit r j v k).trans (if_neg (h rfl))
    | short => exact setByte_shortRegVet hbyte r _ k
    | int => exact setByte_intRegVet hbyte r _ k
  | short =>
    cases c with
    | bool => exact setShort_boolBit hk r j v
    | short => exact (setShort_shortRegVet r j k v).trans (if_neg (h rfl))
    | int => exact setShort_intRegVet hj r k v
  | int =>
    cases c with
    | bool => exact setInt_boolBit hk r j v
    | short => exact setInt_shortRegVet hk r j v
    | int => exact (setInt_intRegVet r j k v).trans (if_neg (h rfl))

theorem regReadScalar_eq (b : Bank) {k : Nat} (hk : k < 128) (r : Registers) :
    regReadScalar b (b.offset + k) r = r.scalar b k := by
  have hindex := getIndex_offset b hk
  cases b with
  | bool => exact regReadBool_eq hindex r
  | short => exact regReadShort_eq hindex r
  | int => exact regReadInt_eq hindex r

theorem regWriteScalar_eq (b : Bank) {k : Nat} (hk : k < 128) (v : b.Value) (r : Registers) :
    regWriteScalar b v (b.offset + k) r =
      if r.scalar b k = v then r else (r.setScalar b k v).raise b := by
  have hindex := getIndex_offset b hk
  cases b with
  | bool => exact regWriteBool_eq hindex v r
  | short => exact regWriteShort_eq hindex v r
  | int => exact regWriteInt_eq hindex v r

theorem regWriteScalar_same (b : Bank) {k : Nat} (hk : k < 128) (v : b.Value) (r : Registers) :
    (regWriteScalar b v (b.offset + k) r).scalar b k = v := by
  rw [regWriteScalar_eq b hk]
  split
  · rename_i hv
    exact hv
  · rw [raise_scalar, setScalar_same]

theorem regWriteScalar_other {b c : Bank} {j k : Nat} (hj : j < 128) (hk : k < 128)
    (h : c = b → k ≠ j) (v : b.Value) (r : Registers) :
    (regWriteScalar b v (b.offset + j) r).scalar c k = r.scalar c k := by
  rw [regWriteScalar_eq b hj]
  split
  · rfl
  · rw [raise_scalar, setScalar_other hj hk h]

theorem regWriteScalar_changeFlag (b : Bank) {k : Nat} (hk : k < 128) (v : b.Value)
    (r : Registers) : (regWriteScalar b v (b.offset + k) r).changeFlag =
      if r.scalar b k = v then r.changeFlag else r.changeFlag ||| b.changeBit := by
  rw [regWriteScalar_eq b hk]
  split
  · rfl
  · rw [raise_changeFlag, setScalar_changeFlag]

end Registers

/-- A register reads back what was written to it, every other register reads as
before, and the change flag gains its bank's bit exactly if it reads differently. -/
theorem scalarRegisters (b c : Bank) {j k : Nat} (hj : j < 128) (hk : k < 128) (v : b.Value)
    (r : Registers) :
    let r' := regWriteScalar b v (b.offset + j) r
    regReadScalar b (b.offset + j) r' = v ∧
      (c.offset + k ≠ b.offset + j →
        regReadScalar c (c.offset + k) r' = regReadScalar c (c.offset + k) r) ∧
      r'.changeFlag =
        if regReadScalar b (b.offset + j) r' = regReadScalar b (b.offset + j) r then r.changeFlag
        else r.changeFlag ||| b.changeBit := by
  intro r'
  have hsame : regReadScalar b (b.offset + j) r' = v := by
    rw [regReadScalar_eq b hj, regWriteScalar_same b hj]
  refine ⟨hsame, ?_, ?_⟩
  · intro hne
    have hindex : c = b → k ≠ j := by
      intro hc hkj
      exact hne (by rw [hc, hkj])
    rw [regReadScalar_eq c hk, regReadScalar_eq c hk, regWriteScalar_other hj hk hindex]
  · rw [hsame, regReadScalar_eq b hj, regWriteScalar_changeFlag b hj]
    simp only [eq_comm (a := v)]

/-- Two neighbours in one byte. -/
theorem scalarRegisters_bools :
    let r := regWriteScalar .bool true (offsetBool + 8) ⟨fun _ => 0, 0⟩
    regReadScalar .bool (offsetBool + 8) r = true ∧
      regReadScalar .bool (offsetBool + 9) r = false ∧ r.changeFlag = Bank.bool.changeBit := by
  have h := scalarRegisters .bool .bool (j := 8) (k := 9) (by decide) (by decide) true
    ⟨fun _ => 0, 0⟩
  obtain ⟨hsame, hother, hflag⟩ := h
  exact ⟨hsame, (hother (by decide)).trans (by decide), hflag.trans (by decide)⟩

end Recirculador
