/-
The dispatchers `reg_write` and `reg_read`.

The bank of an address is picked by `case` ranges, the index in it by a macro with
wider ranges, and the scalar functions check only that there is an index.  To see
which elements of the arrays are reached, the scalar functions are followed here
load by load and store by store.  Each `case` range ends one past its bank: with
that address, and with no other, the access leaves the array.
-/
import Recirculador.Registers.Scalar

namespace Recirculador

open SysRegMap Registers

/-! ## Loads and stores -/

/-- The type of the elements of a bank's array. -/
abbrev Bank.Item : Bank → Type
  | .bool => BitVec 8
  | .short => BitVec 16
  | .int => BitVec 32

/-- The length of a bank's array. -/
def Bank.length : Bank → Nat
  | .bool => nregBoolTot / 8
  | .short => nregShortTot
  | .int => nregIntTot

/-- An element of an array of `reg_vet`. -/
structure Element where
  bank : Bank
  index : Nat
  deriving DecidableEq

/-- The register file, and the elements loaded and stored so far. -/
structure Traced where
  registers : Registers
  touched : List Element

namespace Registers

def item (r : Registers) : (b : Bank) → Nat → b.Item
  | .bool, index => r.regVet index
  | .short, index => r.shortRegVet index
  | .int, index => r.intRegVet index

def setItem (r : Registers) : (b : Bank) → Nat → b.Item → Registers
  | .bool, index, item => r.setByte index item
  | .short, index, item => r.setShort index item
  | .int, index, item => r.setInt index item

end Registers

instance : (b : Bank) → DecidableEq b.Item
  | .bool => inferInstanceAs (DecidableEq (BitVec 8))
  | .short => inferInstanceAs (DecidableEq (BitVec 16))
  | .int => inferInstanceAs (DecidableEq (BitVec 32))

namespace Traced

def load (s : Traced) (b : Bank) (index : Nat) : b.Item × Traced :=
  (s.registers.item b index, { s with touched := s.touched ++ [⟨b, index⟩] })

def store (s : Traced) (b : Bank) (index : Nat) (item : b.Item) : Traced where
  registers := s.registers.setItem b index item
  touched := s.touched ++ [⟨b, index⟩]

def raise (s : Traced) (b : Bank) : Traced := { s with registers := s.registers.raise b }

/-- The end of each scalar writer: an element is loaded, and if its new value is
another one it is stored and the flag raised. -/
def update (s : Traced) (b : Bank) (index : Nat) (value : b.Item → b.Item) : Traced :=
  let loaded := s.load b index
  if loaded.1 ≠ value loaded.1 then (loaded.2.store b index (value loaded.1)).raise b
  else loaded.2

end Traced

/-! ## The scalar functions -/

namespace Traced

def regWriteBool (value : Bool) (addr : Nat) (s : Traced) : Traced :=
  match getIndex addr with
  | none => s
  | some indexAux =>
    s.update .bool (boolIndexAddr indexAux) (boolWrite value (boolIndexPos indexAux))

def regWriteShort (value : BitVec 16) (addr : Nat) (s : Traced) : Traced :=
  match getIndex addr with
  | none => s
  | some index => s.update .short index fun _ => value

def regWriteInt (value : BitVec 32) (addr : Nat) (s : Traced) : Traced :=
  match getIndex addr with
  | none => s
  | some index => s.update .int index fun _ => value

def regReadBool (addr : Nat) (s : Traced) : Bool × Traced :=
  match getIndex addr with
  | none => (false, s)
  | some indexAux =>
    let (item, s) := s.load .bool (boolIndexAddr indexAux)
    let valueAux := item &&& (0b10000000#8 >>> boolIndexPos indexAux)
    (if valueAux ≠ 0 then true else false, s)

def regReadShort (addr : Nat) (s : Traced) : BitVec 16 × Traced :=
  match getIndex addr with
  | none => (0, s)
  | some index => s.load .short index

def regReadInt (addr : Nat) (s : Traced) : BitVec 32 × Traced :=
  match getIndex addr with
  | none => (0, s)
  | some index => s.load .int index

end Traced

/-! ## The dispatchers -/

/-- `reg_write`: the pointer is read with the type of the address's bank. -/
def regWrite (val : ByteMemory) (addr : Nat) (s : Traced) : Traced :=
  match switchBank addr with
  | some .bool => s.regWriteBool (boolAt val 0) addr
  | some .short => s.regWriteShort (shortAt val 0) addr
  | some .int => s.regWriteInt (intAt val 0) addr
  | none => s

/-- `reg_read`: the memory behind the pointer with the value in it. -/
def regRead (ptr : ByteMemory) (addr : Nat) (s : Traced) : ByteMemory × Traced :=
  match switchBank addr with
  | some .bool =>
    let (value, s) := s.regReadBool addr
    (ByteMemory.store 1 ptr 0 (if value then 1 else 0), s)
  | some .short =>
    let (value, s) := s.regReadShort addr
    (ByteMemory.store 2 ptr 0 value, s)
  | some .int =>
    let (value, s) := s.regReadInt addr
    (ByteMemory.store 4 ptr 0 value, s)
  | none => (ptr, s)

/-! ## What the traced functions do -/

/-- The value behind a pointer to a bank's type. -/
def Bank.valueAt : (b : Bank) → ByteMemory → b.Value
  | .bool, val => boolAt val 0
  | .short, val => shortAt val 0
  | .int, val => intAt val 0

/-- The memory behind a pointer after a value of the bank's type is stored there. -/
def Bank.putValue (ptr : ByteMemory) : (b : Bank) → b.Value → ByteMemory
  | .bool, value => ByteMemory.store 1 ptr 0 (if value then 1 else 0)
  | .short, value => ByteMemory.store 2 ptr 0 value
  | .int, value => ByteMemory.store 4 ptr 0 value

/-- The element of the array that holds register `k`. -/
def Bank.elementOf : Bank → Nat → Element
  | .bool, k => ⟨.bool, boolIndexAddr k⟩
  | .short, k => ⟨.short, k⟩
  | .int, k => ⟨.int, k⟩

theorem regWrite_none {addr : Nat} (h : switchBank addr = none) (val : ByteMemory) (s : Traced) :
    regWrite val addr s = s := by
  simp only [regWrite, h]

theorem regRead_none {addr : Nat} (h : switchBank addr = none) (ptr : ByteMemory) (s : Traced) :
    regRead ptr addr s = (ptr, s) := by
  simp only [regRead, h]

theorem update_registers (s : Traced) (b : Bank) (index : Nat) (value : b.Item → b.Item) :
    (s.update b index value).registers =
      if s.registers.item b index ≠ value (s.registers.item b index) then
        (s.registers.setItem b index (value (s.registers.item b index))).raise b
      else s.registers := by
  unfold Traced.update
  exact apply_ite Traced.registers _ _ _

theorem mem_update (s : Traced) (b : Bank) (index : Nat) (value : b.Item → b.Item) (e : Element) :
    e ∈ (s.update b index value).touched ↔ e ∈ s.touched ∨ e = ⟨b, index⟩ := by
  simp only [Traced.update, apply_ite Traced.touched]
  split
  · simp [Traced.load, Traced.store, Traced.raise]
  · simp [Traced.load]

/-- The trace aside, `reg_write` is the scalar writer of the address's bank. -/
theorem regWrite_registers {addr : Nat} {b : Bank} (h : switchBank addr = some b)
    (val : ByteMemory) (s : Traced) :
    (regWrite val addr s).registers = regWriteScalar b (b.valueAt val) addr s.registers := by
  cases b with
  | bool =>
    simp only [regWrite, h, Traced.regWriteBool, regWriteScalar, regWriteBool, Bank.valueAt]
    cases getIndex addr with
    | none => rfl
    | some k => exact update_registers s .bool _ _
  | short =>
    simp only [regWrite, h, Traced.regWriteShort, regWriteScalar, regWriteShort, Bank.valueAt]
    cases getIndex addr with
    | none => rfl
    | some k => exact update_registers s .short _ _
  | int =>
    simp only [regWrite, h, Traced.regWriteInt, regWriteScalar, regWriteInt, Bank.valueAt]
    cases getIndex addr with
    | none => rfl
    | some k => exact update_registers s .int _ _

theorem regRead_value {addr : Nat} {b : Bank} (h : switchBank addr = some b) (ptr : ByteMemory)
    (s : Traced) :
    (regRead ptr addr s).1 = b.putValue ptr (regReadScalar b addr s.registers) := by
  cases b with
  | bool =>
    have hread : (s.regReadBool addr).1 = regReadBool addr s.registers := by
      unfold Traced.regReadBool regReadBool
      cases getIndex addr <;> rfl
    simp only [regRead, h]
    exact congrArg (Bank.putValue ptr .bool) hread
  | short =>
    have hread : (s.regReadShort addr).1 = regReadShort addr s.registers := by
      unfold Traced.regReadShort regReadShort
      cases getIndex addr <;> rfl
    simp only [regRead, h]
    exact congrArg (Bank.putValue ptr .short) hread
  | int =>
    have hread : (s.regReadInt addr).1 = regReadInt addr s.registers := by
      unfold Traced.regReadInt regReadInt
      cases getIndex addr <;> rfl
    simp only [regRead, h]
    exact congrArg (Bank.putValue ptr .int) hread

/-- A read changes no register. -/
theorem regRead_registers (ptr : ByteMemory) (addr : Nat) (s : Traced) :
    (regRead ptr addr s).2.registers = s.registers := by
  unfold regRead
  cases switchBank addr with
  | none => rfl
  | some b =>
    cases b <;> simp only [Traced.regReadBool, Traced.regReadShort, Traced.regReadInt] <;>
      cases getIndex addr <;> rfl

theorem mem_regWrite {addr : Nat} {b : Bank} (h : switchBank addr = some b) (val : ByteMemory)
    (s : Traced) (e : Element) : e ∈ (regWrite val addr s).touched ↔
      e ∈ s.touched ∨ ∃ k, getIndex addr = some k ∧ e = b.elementOf k := by
  cases b <;> simp only [regWrite, h, Traced.regWriteBool, Traced.regWriteShort,
      Traced.regWriteInt] <;> cases getIndex addr with
  | none => simp
  | some k => simp [mem_update, Bank.elementOf]

theorem mem_regRead {addr : Nat} {b : Bank} (h : switchBank addr = some b) (ptr : ByteMemory)
    (s : Traced) (e : Element) : e ∈ (regRead ptr addr s).2.touched ↔
      e ∈ s.touched ∨ ∃ k, getIndex addr = some k ∧ e = b.elementOf k := by
  cases b <;> simp only [regRead, h, Traced.regReadBool, Traced.regReadShort,
      Traced.regReadInt] <;> cases getIndex addr with
  | none => simp
  | some k => simp [Traced.load, Bank.elementOf]

/-! ## Inside the banks -/

/-- The address one past a bank still has an index in it. -/
theorem getIndex_onePast (b : Bank) : getIndex (b.offset + 128) = some 128 := by
  cases b <;> decide

theorem switchBank_eq_some {addr : Nat} {b : Bank} (h : switchBank addr = some b) :
    ∃ k ≤ 128, addr = b.offset + k := by
  unfold switchBank at h
  split at h
  · rename_i hin
    cases h
    exact ⟨addr - offsetBool, Nat.sub_le_iff_le_add'.mpr hin.2, (Nat.add_sub_cancel' hin.1).symm⟩
  split at h
  · rename_i hin
    cases h
    exact ⟨addr - offsetShort, Nat.sub_le_iff_le_add'.mpr hin.2, (Nat.add_sub_cancel' hin.1).symm⟩
  split at h
  · rename_i hin
    cases h
    exact ⟨addr - offsetInt, Nat.sub_le_iff_le_add'.mpr hin.2, (Nat.add_sub_cancel' hin.1).symm⟩
  · cases h

/-- An element of the array selected by the address. -/
def Element.Selected (addr : Nat) (e : Element) : Prop :=
  switchBank addr = some e.bank ∧ e.index < e.bank.length

theorem elementOf_selected {addr : Nat} {b : Bank} (h : switchBank addr = some b) {k : Nat}
    (hk : k ≤ 128) : (b.elementOf k).Selected addr ↔ k ≠ 128 := by
  cases b with
  | bool =>
    have hdiv : k / 8 < 16 ↔ k ≠ 128 := by omega
    simp [Element.Selected, Bank.elementOf, h, Bank.length, boolIndexAddr, hdiv]
  | short =>
    have hlt : k < 128 ↔ k ≠ 128 := by omega
    simp [Element.Selected, Bank.elementOf, h, Bank.length, hlt]
  | int =>
    have hlt : k < 128 ↔ k ≠ 128 := by omega
    simp [Element.Selected, Bank.elementOf, h, Bank.length, hlt]

theorem selected_of_index {addr : Nat} {b : Bank} (h : switchBank addr = some b)
    (haddr : addr ≠ b.offset + 128) {e : Element}
    (he : ∃ k, getIndex addr = some k ∧ e = b.elementOf k) : e.Selected addr := by
  obtain ⟨k, hk, rfl⟩ := switchBank_eq_some h
  obtain ⟨j, hj, rfl⟩ := he
  have hne : k ≠ 128 := fun hk => haddr (by rw [hk])
  rw [getIndex_offset b (by omega), Option.some.injEq] at hj
  rw [← hj]
  exact (elementOf_selected h hk).mpr hne

/-- Both dispatchers touch only elements of the array selected by the address, and
an address outside the 128 registers of each bank changes nothing. -/
structure DispatchInside (val ptr : ByteMemory) (addr : Nat) (r : Registers) : Prop where
  write : ∀ e ∈ (regWrite val addr ⟨r, []⟩).touched, e.Selected addr
  read : ∀ e ∈ (regRead ptr addr ⟨r, []⟩).2.touched, e.Selected addr
  outside : (∀ (b : Bank) (k : Nat), k < 128 → addr ≠ b.offset + k) →
    (regWrite val addr ⟨r, []⟩).registers = r ∧ (regRead ptr addr ⟨r, []⟩).2.registers = r

/-- The dispatchers stay inside the banks except at the address one past each. -/
theorem dispatchInside_iff (val ptr : ByteMemory) (addr : Nat) (r : Registers) :
    DispatchInside val ptr addr r ↔ ∀ b : Bank, addr ≠ b.offset + 128 := by
  constructor
  · intro h b haddr
    have hswitch : switchBank addr = some b := by
      rw [haddr]
      exact switchBank_offset b (Nat.le_refl 128)
    have hindex : getIndex addr = some 128 := by rw [haddr, getIndex_onePast]
    have htouched := (mem_regWrite hswitch val ⟨r, []⟩ _).mpr (Or.inr ⟨128, hindex, rfl⟩)
    exact (elementOf_selected hswitch (Nat.le_refl 128)).mp (h.write _ htouched) rfl
  · intro haddr
    cases hswitch : switchBank addr with
    | none =>
      refine ⟨?_, ?_, fun _ => ⟨?_, regRead_registers ptr addr _⟩⟩
      · rw [regWrite_none hswitch]
        intro e he
        cases he
      · rw [regRead_none hswitch]
        intro e he
        cases he
      · rw [regWrite_none hswitch]
    | some b =>
      refine ⟨fun e he => ?_, fun e he => ?_, fun hout => ?_⟩
      · rcases (mem_regWrite hswitch val ⟨r, []⟩ e).mp he with h | h
        · cases h
        · exact selected_of_index hswitch (haddr b) h
      · rcases (mem_regRead hswitch ptr ⟨r, []⟩ e).mp he with h | h
        · cases h
        · exact selected_of_index hswitch (haddr b) h
      · obtain ⟨k, hk, rfl⟩ := switchBank_eq_some hswitch
        have hlast : k ≠ 128 := fun hk => haddr b (by rw [hk])
        exact absurd rfl (hout b k (by omega))

/-- The address one past the shorts is taken for a short and lands in the first int. -/
theorem dispatch_onePast_shorts :
    let addr := offsetShort + nregShortTot
    let blank : Registers := ⟨fun _ => 0, 0⟩
    ¬ DispatchInside (fun _ => 1) (fun _ => 0) addr blank ∧
      (regWrite (fun _ => 1) addr ⟨blank, []⟩).registers.intRegVet 0 = 0x0101 := by
  refine ⟨fun h => ?_, by decide⟩
  have hwrite := h.write ⟨.short, 128⟩ (by decide)
  exact absurd hwrite.2 (by decide)

end Recirculador
