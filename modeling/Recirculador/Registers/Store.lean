/-
The register file of `registers_manager.c`.

`reg_vet` is one packed structure: 16 bytes of bools, 128 shorts, 128 ints.  The
model keeps it as the bytes from its address on, so that an index past a bank
reaches the bytes the source reaches.  Registers of one bank are reached through
a cell (`boolBit`, `shortRegVet`, `intRegVet`), and every write is described by
what it does to each cell of each bank.
-/
import Recirculador.Board
import Recirculador.Common.ByteMemory

namespace Recirculador

inductive Bank
  | bool
  | short
  | int
  deriving DecidableEq, Repr

/-- `Reg_Change_*_Register`, the bit of `change_flag` a bank owns. -/
def Bank.changeBit : Bank → BitVec 8
  | .bool => 0b00000001
  | .short => 0b00000010
  | .int => 0b00000100

def Bank.changePos : Bank → Nat
  | .bool => 0
  | .short => 1
  | .int => 2

/-- `reg_vet` as the bytes from its address on, and `change_flag`. -/
structure Registers where
  regVet : ByteMemory
  changeFlag : BitVec 8

namespace Registers

open SysRegMap

/-- Offsets of the banks in the packed structure. -/
@[simp] abbrev shortBase : Nat := 16
@[simp] abbrev intBase : Nat := 272

/-! ## Cells -/

def shortRegVet (r : Registers) (index : Nat) : BitVec 16 :=
  ByteMemory.load 2 r.regVet (shortBase + 2 * index)

def intRegVet (r : Registers) (index : Nat) : BitVec 32 :=
  ByteMemory.load 4 r.regVet (intBase + 4 * index)

/-- The bit of a bool register: register 0 is the top bit of byte 0. -/
def boolBit (r : Registers) (index : Nat) : Bool :=
  (r.regVet (index / 8)).getLsbD (7 - index % 8)

def setShort (r : Registers) (index : Nat) (value : BitVec 16) : Registers :=
  { r with regVet := ByteMemory.store 2 r.regVet (shortBase + 2 * index) value }

def setInt (r : Registers) (index : Nat) (value : BitVec 32) : Registers :=
  { r with regVet := ByteMemory.store 4 r.regVet (intBase + 4 * index) value }

def setByte (r : Registers) (index : Nat) (value : BitVec 8) : Registers :=
  { r with regVet := fun a => if a = index then value else r.regVet a }

/-- `change_flag |= flag`. -/
def raise (r : Registers) (b : Bank) : Registers :=
  { r with changeFlag := r.changeFlag ||| b.changeBit }

/-- The value a register stores, bools as 0 and 1. -/
def cell (r : Registers) : Bank → Nat → Int
  | .bool, k => (r.boolBit k).toInt
  | .short, k => (r.shortRegVet k).toInt
  | .int, k => (r.intRegVet k).toInt

def Pending (r : Registers) (b : Bank) : Prop := r.changeFlag &&& b.changeBit ≠ 0

instance (r : Registers) (b : Bank) : Decidable (r.Pending b) :=
  inferInstanceAs (Decidable (_ ≠ _))

end Registers

open SysRegMap Registers

/-! ## Scalar writes and reads -/

def boolIndexAddr (index : Nat) : Nat := index / 8

def boolIndexPos (index : Nat) : Nat := index % 8

/-- `value_write` of `reg_write_bool`: the byte with the bit at `posAux` set or
cleared. -/
def boolWrite (value : Bool) (posAux : Nat) (valueRegister : BitVec 8) : BitVec 8 :=
  if value then valueRegister ||| (0b10000000#8 >>> posAux)
  else valueRegister &&& ~~~(0b10000000#8 >>> posAux)

def regWriteBool (value : Bool) (addr : Nat) (r : Registers) : Registers :=
  match getIndex addr with
  | none => r
  | some indexAux =>
    let valueRegister := r.regVet (boolIndexAddr indexAux)
    let valueWrite := boolWrite value (boolIndexPos indexAux) valueRegister
    if valueRegister ≠ valueWrite then
      (r.setByte (boolIndexAddr indexAux) valueWrite).raise .bool
    else r

def regWriteShort (value : BitVec 16) (addr : Nat) (r : Registers) : Registers :=
  match getIndex addr with
  | none => r
  | some index =>
    if r.shortRegVet index ≠ value then (r.setShort index value).raise .short else r

def regWriteInt (value : BitVec 32) (addr : Nat) (r : Registers) : Registers :=
  match getIndex addr with
  | none => r
  | some index =>
    if r.intRegVet index ≠ value then (r.setInt index value).raise .int else r

def regReadBool (addr : Nat) (r : Registers) : Bool :=
  match getIndex addr with
  | none => false
  | some indexAux =>
    let valueAux :=
      r.regVet (boolIndexAddr indexAux) &&& (0b10000000#8 >>> boolIndexPos indexAux)
    if valueAux ≠ 0 then true else false

def regReadShort (addr : Nat) (r : Registers) : BitVec 16 :=
  match getIndex addr with
  | none => 0
  | some index => r.shortRegVet index

def regReadInt (addr : Nat) (r : Registers) : BitVec 32 :=
  match getIndex addr with
  | none => 0
  | some index => r.intRegVet index

/-! ## The change flag -/

def regReturnChangeFlag (r : Registers) : BitVec 8 := r.changeFlag

def regClearChangeFlag (flag : BitVec 8) (r : Registers) : Registers :=
  if flag = 0 then { r with changeFlag := 0 }
  else { r with changeFlag := r.changeFlag &&& ~~~flag }

def regSetChangeFlag (flag : BitVec 8) (r : Registers) : Registers :=
  { r with changeFlag := flag }

/-! ## Rules for one cell -/

namespace Registers

theorem boolMask_eq {p : Nat} (hp : p < 8) : 0b10000000#8 >>> p = BitVec.twoPow 8 (7 - p) := by
  have h : ∀ q : Fin 8, 0b10000000#8 >>> q.val = BitVec.twoPow 8 (7 - q.val) := by decide
  exact h ⟨p, hp⟩

theorem regReadBool_eq {addr k : Nat} (h : getIndex addr = some k) (r : Registers) :
    regReadBool addr r = r.boolBit k := by
  have hmask := boolMask_eq (Nat.mod_lt k (show 8 > 0 by omega))
  simp only [regReadBool, h, boolIndexAddr, boolIndexPos, hmask, BitVec.and_twoPow, boolBit]
  cases hb : (r.regVet (k / 8)).getLsbD (7 - k % 8)
  · simp
  · have hne : BitVec.twoPow 8 (7 - k % 8) ≠ 0#8 := by
      intro he
      have hbit := congrArg (fun v => v.getLsbD (7 - k % 8)) he
      simp [show 7 - k % 8 < 8 by omega] at hbit
    simpa using hne

theorem getLsbD_boolWrite (v : BitVec 8) (value : Bool) {p q : Nat} (hp : p < 8) (hq : q < 8) :
    (boolWrite value p v).getLsbD (7 - q) = if q = p then value else v.getLsbD (7 - q) := by
  have hpq : (7 - q = 7 - p) = (q = p) := by apply propext; omega
  rw [boolWrite, boolMask_eq hp]
  by_cases h : q = p
  · subst h
    cases value <;> simp [show 7 - q < 8 by omega]
  · cases value <;> simp [h, hpq, show 7 - q < 8 by omega]

theorem boolWrite_eq_self_iff (v : BitVec 8) (value : Bool) {p : Nat} (hp : p < 8) :
    boolWrite value p v = v ↔ v.getLsbD (7 - p) = value := by
  constructor
  · intro h
    have hbit := getLsbD_boolWrite v value hp hp
    rw [h, if_pos rfl] at hbit
    exact hbit
  · intro h
    apply BitVec.eq_of_getLsbD_eq
    intro i hi
    have hbit := getLsbD_boolWrite v value hp (show 7 - i < 8 by omega)
    have hsub : 7 - (7 - i) = i := by omega
    rw [hsub] at hbit
    rw [hbit]
    split
    · rename_i he
      rw [← h, ← he, hsub]
    · rfl

/-! ## The pending bits -/

theorem pending_iff (r : Registers) (b : Bank) :
    r.Pending b ↔ r.changeFlag.getLsbD b.changePos = true := by
  have hbit : b.changeBit = BitVec.twoPow 8 b.changePos := by cases b <;> rfl
  have hne : BitVec.twoPow 8 b.changePos ≠ 0 := by cases b <;> decide
  rw [Pending, hbit, BitVec.and_twoPow]
  cases r.changeFlag.getLsbD b.changePos
  · simp
  · simpa using hne

theorem getLsbD_changeBit (b c : Bank) : b.changeBit.getLsbD c.changePos = decide (c = b) := by
  cases b <;> cases c <;> rfl

theorem pending_raise (r : Registers) (b c : Bank) :
    (r.raise b).Pending c ↔ c = b ∨ r.Pending c := by
  simp only [pending_iff, raise, BitVec.getLsbD_or, getLsbD_changeBit, Bool.or_eq_true,
    decide_eq_true_eq]
  exact or_comm

theorem pending_regSetChangeFlag (r : Registers) (b c : Bank) :
    (regSetChangeFlag b.changeBit r).Pending c ↔ c = b := by
  simp only [pending_iff, regSetChangeFlag, getLsbD_changeBit, decide_eq_true_eq]

theorem pending_regClearChangeFlag (r : Registers) (b c : Bank) :
    (regClearChangeFlag b.changeBit r).Pending c ↔ c ≠ b ∧ r.Pending c := by
  have hne : b.changeBit ≠ 0 := by cases b <;> decide
  have hpos : c.changePos < 8 := by cases c <;> decide
  simp only [pending_iff, regClearChangeFlag, hne, if_false, BitVec.getLsbD_and,
    BitVec.getLsbD_not, getLsbD_changeBit, hpos, decide_true, Bool.true_and, Bool.and_eq_true,
    Bool.not_eq_true', decide_eq_false_iff_not]
  exact and_comm

@[simp] theorem regSetChangeFlag_regVet (flag : BitVec 8) (r : Registers) :
    (regSetChangeFlag flag r).regVet = r.regVet := rfl

@[simp] theorem regClearChangeFlag_regVet (flag : BitVec 8) (r : Registers) :
    (regClearChangeFlag flag r).regVet = r.regVet := by
  unfold regClearChangeFlag
  split <;> rfl

/-! ## Frames

Bytes 0 to 15 are bools, 16 to 271 shorts, 272 to 783 ints: a write inside one
bank meets no cell of another. -/

@[simp] theorem raise_regVet (r : Registers) (b : Bank) : (r.raise b).regVet = r.regVet := rfl

@[simp] theorem raise_changeFlag (r : Registers) (b : Bank) :
    (r.raise b).changeFlag = r.changeFlag ||| b.changeBit := rfl

@[simp] theorem setByte_changeFlag (r : Registers) (i : Nat) (v : BitVec 8) :
    (r.setByte i v).changeFlag = r.changeFlag := rfl

@[simp] theorem setShort_changeFlag (r : Registers) (i : Nat) (v : BitVec 16) :
    (r.setShort i v).changeFlag = r.changeFlag := rfl

@[simp] theorem setInt_changeFlag (r : Registers) (i : Nat) (v : BitVec 32) :
    (r.setInt i v).changeFlag = r.changeFlag := rfl

@[simp] theorem raise_boolBit (r : Registers) (b : Bank) (j : Nat) :
    (r.raise b).boolBit j = r.boolBit j := rfl

@[simp] theorem raise_shortRegVet (r : Registers) (b : Bank) (j : Nat) :
    (r.raise b).shortRegVet j = r.shortRegVet j := rfl

@[simp] theorem raise_intRegVet (r : Registers) (b : Bank) (j : Nat) :
    (r.raise b).intRegVet j = r.intRegVet j := rfl

theorem setByte_shortRegVet {i : Nat} (hi : i < 16) (r : Registers) (v : BitVec 8) (j : Nat) :
    (r.setByte i v).shortRegVet j = r.shortRegVet j :=
  ByteMemory.load_congr fun n _ => by
    have h : 16 + 2 * j + n ≠ i := by omega
    simp [setByte, h]

theorem setByte_intRegVet {i : Nat} (hi : i < 16) (r : Registers) (v : BitVec 8) (j : Nat) :
    (r.setByte i v).intRegVet j = r.intRegVet j :=
  ByteMemory.load_congr fun n _ => by
    have h : 272 + 4 * j + n ≠ i := by omega
    simp [setByte, h]

theorem setShort_boolBit {j : Nat} (hj : j < 128) (r : Registers) (k : Nat) (v : BitVec 16) :
    (r.setShort k v).boolBit j = r.boolBit j := by
  have h : j / 8 < shortBase + 2 * k := by simp; omega
  simp only [boolBit, setShort, ByteMemory.store_outside 2 v (Or.inl h)]

theorem setShort_shortRegVet (r : Registers) (k j : Nat) (v : BitVec 16) :
    (r.setShort k v).shortRegVet j = if j = k then v else r.shortRegVet j := by
  by_cases h : j = k
  · subst h
    rw [if_pos rfl]
    exact ByteMemory.load_store 2 r.regVet _ v
  · rw [if_neg h]
    exact ByteMemory.load_store_of_disjoint 2 2 v (by simp; omega)

theorem setShort_intRegVet {k : Nat} (hk : k < 128) (r : Registers) (j : Nat) (v : BitVec 16) :
    (r.setShort k v).intRegVet j = r.intRegVet j :=
  ByteMemory.load_store_of_disjoint 2 4 v (by simp; omega)

theorem setInt_boolBit {j : Nat} (hj : j < 128) (r : Registers) (k : Nat) (v : BitVec 32) :
    (r.setInt k v).boolBit j = r.boolBit j := by
  have h : j / 8 < intBase + 4 * k := by simp; omega
  simp only [boolBit, setInt, ByteMemory.store_outside 4 v (Or.inl h)]

theorem setInt_shortRegVet {j : Nat} (hj : j < 128) (r : Registers) (k : Nat) (v : BitVec 32) :
    (r.setInt k v).shortRegVet j = r.shortRegVet j :=
  ByteMemory.load_store_of_disjoint 4 2 v (by simp; omega)

theorem setInt_intRegVet (r : Registers) (k j : Nat) (v : BitVec 32) :
    (r.setInt k v).intRegVet j = if j = k then v else r.intRegVet j := by
  by_cases h : j = k
  · subst h
    rw [if_pos rfl]
    exact ByteMemory.load_store 4 r.regVet _ v
  · rw [if_neg h]
    exact ByteMemory.load_store_of_disjoint 4 4 v (by simp; omega)

/-! ## What the scalar writes do -/

theorem regWriteBool_eq {addr k : Nat} (h : getIndex addr = some k) (value : Bool)
    (r : Registers) : regWriteBool value addr r =
      if r.boolBit k = value then r
      else (r.setByte (k / 8) (boolWrite value (k % 8) (r.regVet (k / 8)))).raise .bool := by
  have hiff := boolWrite_eq_self_iff (r.regVet (k / 8)) value (Nat.mod_lt k (show 8 > 0 by omega))
  simp only [regWriteBool, h]
  by_cases hv : r.boolBit k = value
  · rw [if_pos hv]
    exact if_neg (not_not_intro (hiff.mpr hv).symm)
  · rw [if_neg hv]
    exact if_pos fun e => hv (hiff.mp e.symm)

theorem setByte_boolBit (r : Registers) (k : Nat) (value : Bool) (j : Nat) :
    (r.setByte (k / 8) (boolWrite value (k % 8) (r.regVet (k / 8)))).boolBit j =
      if j = k then value else r.boolBit j := by
  have hjk : j = k ↔ j / 8 = k / 8 ∧ j % 8 = k % 8 := by omega
  by_cases hsame : j / 8 = k / 8
  · have hbit := getLsbD_boolWrite (r.regVet (k / 8)) value
      (Nat.mod_lt k (show 8 > 0 by omega)) (Nat.mod_lt j (show 8 > 0 by omega))
    simp [boolBit, setByte, hsame, hbit, hjk]
  · simp [boolBit, setByte, hsame, hjk]

theorem regWriteBool_boolBit {addr k : Nat} (h : getIndex addr = some k) (value : Bool)
    (r : Registers) (j : Nat) :
    (regWriteBool value addr r).boolBit j = if j = k then value else r.boolBit j := by
  rw [regWriteBool_eq h]
  by_cases hv : r.boolBit k = value
  · rw [if_pos hv]
    split
    · rename_i he
      rw [he, hv]
    · rfl
  · rw [if_neg hv, raise_boolBit, setByte_boolBit]

theorem regWriteBool_shortRegVet {addr k : Nat} (h : getIndex addr = some k) (hk : k < 128)
    (value : Bool) (r : Registers) (j : Nat) :
    (regWriteBool value addr r).shortRegVet j = r.shortRegVet j := by
  rw [regWriteBool_eq h]
  split
  · rfl
  · exact setByte_shortRegVet (show k / 8 < 16 by omega) r _ j

theorem regWriteBool_intRegVet {addr k : Nat} (h : getIndex addr = some k) (hk : k < 128)
    (value : Bool) (r : Registers) (j : Nat) :
    (regWriteBool value addr r).intRegVet j = r.intRegVet j := by
  rw [regWriteBool_eq h]
  split
  · rfl
  · exact setByte_intRegVet (show k / 8 < 16 by omega) r _ j

theorem regWriteBool_changeFlag {addr k : Nat} (h : getIndex addr = some k) (value : Bool)
    (r : Registers) : (regWriteBool value addr r).changeFlag =
      if r.boolBit k = value then r.changeFlag else r.changeFlag ||| Bank.bool.changeBit := by
  rw [regWriteBool_eq h]
  split <;> rfl

theorem regWriteShort_eq {addr k : Nat} (h : getIndex addr = some k) (value : BitVec 16)
    (r : Registers) : regWriteShort value addr r =
      if r.shortRegVet k = value then r else (r.setShort k value).raise .short := by
  simp [regWriteShort, h]

theorem regWriteInt_eq {addr k : Nat} (h : getIndex addr = some k) (value : BitVec 32)
    (r : Registers) : regWriteInt value addr r =
      if r.intRegVet k = value then r else (r.setInt k value).raise .int := by
  simp [regWriteInt, h]

theorem regReadShort_eq {addr k : Nat} (h : getIndex addr = some k) (r : Registers) :
    regReadShort addr r = r.shortRegVet k := by
  simp [regReadShort, h]

theorem regReadInt_eq {addr k : Nat} (h : getIndex addr = some k) (r : Registers) :
    regReadInt addr r = r.intRegVet k := by
  simp [regReadInt, h]

theorem regReadInt_regWriteBool {addr k : Nat} (h : getIndex addr = some k) (hk : k < 128)
    (value : Bool) (addr' : Nat) (r : Registers) :
    regReadInt addr' (regWriteBool value addr r) = regReadInt addr' r := by
  simp only [regReadInt]
  cases getIndex addr' with
  | none => rfl
  | some j => exact regWriteBool_intRegVet h hk value r j

end Registers

end Recirculador
