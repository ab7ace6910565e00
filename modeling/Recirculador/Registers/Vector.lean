/-
Vector reads and writes of the register file.

`reg_write_vet` and `reg_read_vet` take an untyped pointer and reinterpret it by
the bank of the address: one byte a bool, two bytes a short, four an int.  The
law of a vector write is that the same vector reads back, nothing else moves and
the change flag tells whether anything did.  Bools and shorts meet it on every
input.  The int writer looks for a difference in the shorts of the same indices,
and `regWriteVet_law_iff` states exactly when that is harmless.
-/
import Recirculador.Registers.Store

namespace Recirculador

open SysRegMap Registers

/-! ## The vectors behind a pointer -/

def boolAt (vet : ByteMemory) (i : Nat) : Bool := decide (vet i ≠ 0)

def shortAt (vet : ByteMemory) (i : Nat) : BitVec 16 := ByteMemory.load 2 vet (2 * i)

def intAt (vet : ByteMemory) (i : Nat) : BitVec 32 := ByteMemory.load 4 vet (4 * i)

/-- Element `i` of the vector, with the type the bank gives the pointer. -/
def Bank.element : Bank → ByteMemory → Nat → Int
  | .bool, vet, i => (boolAt vet i).toInt
  | .short, vet, i => (shortAt vet i).toInt
  | .int, vet, i => (intAt vet i).toInt

@[simp] def Bank.offset : Bank → Nat
  | .bool => offsetBool
  | .short => offsetShort
  | .int => offsetInt

/-! ## Vector writes -/

def regWriteBoolVet (vet : ByteMemory) (size addr : Nat) (r : Registers) : Registers :=
  match getIndex addr with
  | none => r
  | some index =>
    if (index + size) % 0x100000000 > nregBoolTot then r
    else (List.range size).foldl (fun r i => regWriteBool (boolAt vet i) (addr + i) r) r

def regWriteShortVet (vet : ByteMemory) (size addr : Nat) (r : Registers) : Registers :=
  match getIndex addr with
  | none => r
  | some index =>
    if (index + size) % 0x100000000 > nregShortTot then r
    -- The loop leaves at the first difference, after copying the whole vector.
    else if (List.range size).any fun i => decide (shortAt vet i ≠ r.shortRegVet (index + i)) then
      { r with
        regVet := ByteMemory.copy r.regVet (shortBase + 2 * index) (2 * size) vet }.raise .short
    else r

def regWriteIntVet (vet : ByteMemory) (size addr : Nat) (r : Registers) : Registers :=
  match getIndex addr with
  | none => r
  | some index =>
    if (index + size) % 0x100000000 > nregIntTot then r
    -- The comparison reads `_short_reg_vet`, promoted to int.
    else if (List.range size).any fun i =>
        decide (intAt vet i ≠ (r.shortRegVet (index + i)).signExtend 32) then
      { r with
        regVet := ByteMemory.copy r.regVet (intBase + 4 * index) (4 * size) vet }.raise .int
    else r

/-- The `case` ranges shared by `reg_write`, `reg_read` and their vector forms.
Each range includes the address one past its bank. -/
def switchBank (addr : Nat) : Option Bank :=
  if offsetBool ≤ addr ∧ addr ≤ offsetBool + nregBoolTot then some .bool
  else if offsetShort ≤ addr ∧ addr ≤ offsetShort + nregShortTot then some .short
  else if offsetInt ≤ addr ∧ addr ≤ offsetInt + nregIntTot then some .int
  else none

def regWriteVet (vet : ByteMemory) (nRegs addr : Nat) (r : Registers) : Registers :=
  match switchBank addr with
  | some .bool => regWriteBoolVet vet nRegs addr r
  | some .short => regWriteShortVet vet nRegs addr r
  | some .int => regWriteIntVet vet nRegs addr r
  | none => r

/-! ## Vector reads -/

def regReadBoolVet (vet : ByteMemory) (size addr : Nat) (r : Registers) : ByteMemory :=
  match getIndex addr with
  | none => vet
  | some index =>
    if (index + size) % 0x100000000 > nregBoolTot then vet
    else fun i => if i < size then (if regReadBool (addr + i) r then 1 else 0) else vet i

def regReadShortVet (vet : ByteMemory) (size addr : Nat) (r : Registers) : ByteMemory :=
  match getIndex addr with
  | none => vet
  | some index =>
    if (index + size) % 0x100000000 > nregShortTot then vet
    else ByteMemory.copy vet 0 (2 * size) fun i => r.regVet (shortBase + 2 * index + i)

def regReadIntVet (vet : ByteMemory) (size addr : Nat) (r : Registers) : ByteMemory :=
  match getIndex addr with
  | none => vet
  | some index =>
    if (index + size) % 0x100000000 > nregIntTot then vet
    else ByteMemory.copy vet 0 (4 * size) fun i => r.regVet (intBase + 4 * index + i)

def regReadVet (vet : ByteMemory) (nRegs addr : Nat) (r : Registers) : ByteMemory :=
  match switchBank addr with
  | some .bool => regReadBoolVet vet nRegs addr r
  | some .short => regReadShortVet vet nRegs addr r
  | some .int => regReadIntVet vet nRegs addr r
  | none => vet

namespace Registers

/-! ## Reading a vector -/

theorem getIndex_offset (b : Bank) {k : Nat} (hk : k < 128) :
    getIndex (b.offset + k) = some k := by
  cases b with
  | bool => exact getIndex_bool hk
  | short => exact getIndex_short hk
  | int => exact getIndex_int hk

theorem switchBank_offset (b : Bank) {k : Nat} (hk : k ≤ 128) :
    switchBank (b.offset + k) = some b := by
  unfold switchBank
  cases b with
  | bool => rw [if_pos (by simp; omega)]
  | short => rw [if_neg (by simp; omega), if_pos (by simp; omega)]
  | int => rw [if_neg (by simp; omega), if_neg (by simp; omega), if_pos (by simp; omega)]

theorem element_regReadVet (b : Bank) {k n i : Nat} (hk : k < 128) (hn : k + n ≤ 128) (hi : i < n)
    (out : ByteMemory) (r : Registers) :
    b.element (regReadVet out n (b.offset + k) r) i = r.cell b (k + i) := by
  have hindex := getIndex_offset b hk
  have hcell := getIndex_offset b (show k + i < 128 by omega)
  have hfit : ¬ (k + n) % 0x100000000 > 128 := by omega
  rw [regReadVet, switchBank_offset b (Nat.le_of_lt hk)]
  cases b with
  | bool =>
    have hvet : regReadBoolVet out n (Bank.bool.offset + k) r i =
        if r.boolBit (k + i) then 1 else 0 := by
      simp only [regReadBoolVet, hindex]
      rw [if_neg hfit, if_pos hi, Nat.add_assoc, regReadBool_eq hcell]
    simp only [Bank.element, boolAt, hvet, cell]
    cases r.boolBit (k + i) <;> rfl
  | short =>
    simp only [regReadShortVet, hindex, Bank.element, shortAt, cell, shortRegVet]
    rw [if_neg hfit, ← Nat.zero_add (2 * i), ByteMemory.load_copy_inside (by omega)]
    exact congrArg _ (ByteMemory.load_congr fun j _ => congrArg _ (by omega))
  | int =>
    simp only [regReadIntVet, hindex, Bank.element, intAt, cell, intRegVet]
    rw [if_neg hfit, ← Nat.zero_add (4 * i), ByteMemory.load_copy_inside (by omega)]
    exact congrArg _ (ByteMemory.load_congr fun j _ => congrArg _ (by omega))

/-! ## Writing a vector -/

/-- Some element differs from the register of the same index in bank `c`. -/
def Differs (b c : Bank) (k n : Nat) (vec : ByteMemory) (r : Registers) : Prop :=
  ∃ i, i < n ∧ b.element vec i ≠ r.cell c (k + i)

/-- The registers `k` to `k + n - 1` of bank `b` hold the vector and every other
register is as before. -/
def Written (b : Bank) (k n : Nat) (vec : ByteMemory) (r r' : Registers) : Prop :=
  ∀ c j, j < 128 → r'.cell c j =
    if c = b ∧ k ≤ j ∧ j < k + n then b.element vec (j - k) else r.cell c j

theorem written_self {b : Bank} {k n : Nat} {vec : ByteMemory} {r : Registers}
    (h : ¬ Differs b b k n vec r) : Written b k n vec r r := by
  intro c j _
  split
  · rename_i hin
    obtain ⟨rfl, hlo, hhi⟩ := hin
    apply Classical.byContradiction
    intro hne
    have hj : k + (j - k) = j := by omega
    refine h ⟨j - k, by omega, ?_⟩
    rw [hj]
    exact fun e => hne e.symm
  · rfl

theorem written_raise {b c : Bank} {k n : Nat} {vec : ByteMemory} {r r' : Registers}
    (h : Written b k n vec r r') : Written b k n vec r (r'.raise c) := by
  intro d j hj
  rw [← h d j hj]
  cases d <;> rfl

theorem written_copyShort {k n : Nat} (hn : k + n ≤ 128) (vec : ByteMemory) (r : Registers) :
    Written .short k n vec r
      { r with regVet := ByteMemory.copy r.regVet (shortBase + 2 * k) (2 * n) vec } := by
  intro c j hj
  cases c with
  | bool =>
    have hout : j / 8 < shortBase + 2 * k ∨ shortBase + 2 * k + 2 * n ≤ j / 8 := by simp; omega
    simp [cell, boolBit, ByteMemory.copy_outside hout]
  | short =>
    simp only [cell, shortRegVet, Bank.element, shortAt, true_and]
    split
    · rename_i hin
      have haddr : shortBase + 2 * j = shortBase + 2 * k + 2 * (j - k) := by omega
      rw [haddr, ByteMemory.load_copy_inside (by omega)]
    · rw [ByteMemory.load_copy_of_disjoint (by omega)]
  | int =>
    simp only [cell, intRegVet, reduceCtorEq, false_and, if_false]
    rw [ByteMemory.load_copy_of_disjoint (by simp; omega)]

theorem written_copyInt {k n : Nat} (vec : ByteMemory) (r : Registers) :
    Written .int k n vec r
      { r with regVet := ByteMemory.copy r.regVet (intBase + 4 * k) (4 * n) vec } := by
  intro c j hj
  cases c with
  | bool =>
    have hout : j / 8 < intBase + 4 * k ∨ intBase + 4 * k + 4 * n ≤ j / 8 := by simp; omega
    simp [cell, boolBit, ByteMemory.copy_outside hout]
  | short =>
    simp only [cell, shortRegVet, reduceCtorEq, false_and, if_false]
    rw [ByteMemory.load_copy_of_disjoint (by simp; omega)]
  | int =>
    simp only [cell, intRegVet, Bank.element, intAt, true_and]
    split
    · rename_i hin
      have haddr : intBase + 4 * j = intBase + 4 * k + 4 * (j - k) := by omega
      rw [haddr, ByteMemory.load_copy_inside (by omega)]
    · rw [ByteMemory.load_copy_of_disjoint (by omega)]

theorem differs_succ {b c : Bank} {k n : Nat} {vec : ByteMemory} {r : Registers} :
    Differs b c k (n + 1) vec r ↔
      Differs b c k n vec r ∨ b.element vec n ≠ r.cell c (k + n) := by
  constructor
  · intro h
    rcases h with ⟨i, hi, hne⟩
    rcases Nat.lt_succ_iff_lt_or_eq.mp hi with hlt | rfl
    · exact Or.inl ⟨i, hlt, hne⟩
    · exact Or.inr hne
  · intro h
    rcases h with ⟨i, hi, hne⟩ | hne
    · exact ⟨i, by omega, hne⟩
    · exact ⟨n, by omega, hne⟩

/-- The next bool written extends the block. -/
theorem written_boolStep {k n : Nat} (hn : k + (n + 1) ≤ 128) {vec : ByteMemory}
    {r m : Registers} (h : Written .bool k n vec r m) :
    Written .bool k (n + 1) vec r (regWriteBool (boolAt vec n) (offsetBool + k + n) m) := by
  have hindex : getIndex (offsetBool + k + n) = some (k + n) := by
    rw [Nat.add_assoc]
    exact getIndex_bool (by omega)
  intro c j hj
  have hcell := h c j hj
  cases c with
  | bool =>
    simp only [cell, regWriteBool_boolBit hindex, true_and, Bank.element] at hcell ⊢
    by_cases hjn : j = k + n
    · subst hjn
      rw [if_pos rfl, if_pos (by omega), Nat.add_sub_cancel_left]
    · have hsame : k ≤ j ∧ j < k + n ↔ k ≤ j ∧ j < k + (n + 1) := by omega
      rw [if_neg hjn, hcell]
      simp only [hsame]
  | short => simpa [cell, regWriteBool_shortRegVet hindex (by omega)] using hcell
  | int => simpa [cell, regWriteBool_intRegVet hindex (by omega)] using hcell

theorem boolLoop_spec {k n : Nat} (hn : k + n ≤ 128) (vec : ByteMemory) (r : Registers) :
    let r' := (List.range n).foldl
      (fun r i => regWriteBool (boolAt vec i) (offsetBool + k + i) r) r
    Written .bool k n vec r r' ∧
      (r'.Pending .bool ↔ r.Pending .bool ∨ Differs .bool .bool k n vec r) := by
  induction n with
  | zero =>
    have hnone : ¬ Differs .bool .bool k 0 vec r := fun ⟨i, hi, _⟩ => absurd hi (Nat.not_lt_zero i)
    exact ⟨written_self hnone, by simp [hnone]⟩
  | succ n ih =>
    obtain ⟨hcells, hflag⟩ := ih (by omega)
    have hindex : getIndex (offsetBool + k + n) = some (k + n) := by
      rw [Nat.add_assoc]
      exact getIndex_bool (by omega)
    simp only [List.range_succ, List.foldl_append, List.foldl_cons, List.foldl_nil]
    generalize hm : (List.range n).foldl
      (fun r i => regWriteBool (boolAt vec i) (offsetBool + k + i) r) r = m at hcells hflag ⊢
    refine ⟨written_boolStep hn hcells, ?_⟩
    -- The register the next write finds is still the one of the start.
    have hold : m.boolBit (k + n) = r.boolBit (k + n) := by
      have h := hcells .bool (k + n) (by omega)
      rw [if_neg (by omega)] at h
      simp only [cell] at h
      cases hb : m.boolBit (k + n) <;> cases hb' : r.boolBit (k + n) <;> simp [hb, hb'] at h ⊢
    have hlast : Bank.bool.element vec n ≠ r.cell .bool (k + n) ↔
        r.boolBit (k + n) ≠ boolAt vec n := by
      simp only [Bank.element, cell]
      cases r.boolBit (k + n) <;> cases boolAt vec n <;> decide
    rw [regWriteBool_eq hindex, hold, differs_succ, hlast]
    by_cases hv : r.boolBit (k + n) = boolAt vec n
    · rw [if_pos hv, hflag]
      simp [hv]
    · rw [if_neg hv, pending_raise]
      exact iff_of_true (Or.inl rfl) (Or.inr (Or.inr hv))

/-! ## The law of a vector write -/

/-- What a write of `n` values at index `k` of bank `b` should do: the values read
back, no other register moves, and the bank is pending exactly when it was or
some value changed. -/
structure VectorLaw (b : Bank) (k n : Nat) (vec out : ByteMemory) (r : Registers) : Prop where
  reads_back : ∀ i, i < n →
    b.element (regReadVet out n (b.offset + k) (regWriteVet vec n (b.offset + k) r)) i =
      b.element vec i
  frame : ∀ c j, j < 128 → c ≠ b ∨ j < k ∨ k + n ≤ j →
    (regWriteVet vec n (b.offset + k) r).cell c j = r.cell c j
  flag : (regWriteVet vec n (b.offset + k) r).Pending b ↔ r.Pending b ∨
    ∃ i, i < n ∧ (regWriteVet vec n (b.offset + k) r).cell b (k + i) ≠ r.cell b (k + i)

theorem Written.cell_eq {b : Bank} {k n i : Nat} {vec : ByteMemory} {r r' : Registers}
    (h : Written b k n vec r r') (hn : k + n ≤ 128) (hi : i < n) :
    r'.cell b (k + i) = b.element vec i := by
  rw [h b (k + i) (by omega), if_pos ⟨rfl, by omega, by omega⟩, Nat.add_sub_cancel_left]

theorem Written.changed_iff {b : Bank} {k n : Nat} {vec : ByteMemory} {r r' : Registers}
    (h : Written b k n vec r r') (hn : k + n ≤ 128) :
    (∃ i, i < n ∧ r'.cell b (k + i) ≠ r.cell b (k + i)) ↔ Differs b b k n vec r := by
  constructor
  · intro hchanged
    rcases hchanged with ⟨i, hi, hne⟩
    exact ⟨i, hi, h.cell_eq hn hi ▸ hne⟩
  · intro hdiff
    rcases hdiff with ⟨i, hi, hne⟩
    exact ⟨i, hi, (h.cell_eq hn hi).symm ▸ hne⟩

theorem vectorLaw_of_written {b : Bank} {k n : Nat} (hk : k < 128) (hn : k + n ≤ 128)
    {vec : ByteMemory} (out : ByteMemory) {r : Registers}
    (h : Written b k n vec r (regWriteVet vec n (b.offset + k) r))
    (hflag : (regWriteVet vec n (b.offset + k) r).Pending b ↔
      r.Pending b ∨ Differs b b k n vec r) : VectorLaw b k n vec out r where
  reads_back := by
    intro i hi
    rw [element_regReadVet b hk hn hi, h.cell_eq hn hi]
  frame := by
    intro c j hj hout
    rw [h c j hj, if_neg (by rintro ⟨rfl, hlo, hhi⟩; simp at hout; omega)]
  flag := by rw [hflag, h.changed_iff hn]

theorem regWriteBoolVet_spec {k n : Nat} (hk : k < 128) (hn : k + n ≤ 128) (vec : ByteMemory)
    (r : Registers) :
    Written .bool k n vec r (regWriteVet vec n (Bank.bool.offset + k) r) ∧
      ((regWriteVet vec n (Bank.bool.offset + k) r).Pending .bool ↔
        r.Pending .bool ∨ Differs .bool .bool k n vec r) := by
  have heq : regWriteVet vec n (Bank.bool.offset + k) r = (List.range n).foldl
      (fun r i => regWriteBool (boolAt vec i) (offsetBool + k + i) r) r := by
    simp only [regWriteVet, switchBank_offset .bool (Nat.le_of_lt hk), regWriteBoolVet,
      getIndex_offset .bool hk]
    exact if_neg (show ¬ (k + n) % 0x100000000 > 128 by omega)
  rw [heq]
  exact boolLoop_spec hn vec r

theorem differs_short_iff {k n : Nat} {vec : ByteMemory} {r : Registers} :
    ((List.range n).any fun i => decide (shortAt vec i ≠ r.shortRegVet (k + i))) = true ↔
      Differs .short .short k n vec r := by
  simp only [List.any_eq_true, List.mem_range, decide_eq_true_eq, Differs, Bank.element, cell,
    ne_eq, BitVec.toInt_inj]

theorem regWriteShortVet_eq {k n : Nat} (hk : k < 128) (hn : k + n ≤ 128) (vec : ByteMemory)
    (r : Registers) [Decidable (Differs .short .short k n vec r)] :
    regWriteVet vec n (Bank.short.offset + k) r =
      if Differs .short .short k n vec r then
        { r with
          regVet := ByteMemory.copy r.regVet (shortBase + 2 * k) (2 * n) vec }.raise .short
      else r := by
  have hfit : ¬ (k + n) % 0x100000000 > 128 := by omega
  simp only [regWriteVet, switchBank_offset .short (Nat.le_of_lt hk), regWriteShortVet,
    getIndex_offset .short hk, nregShortTot, if_neg hfit, differs_short_iff]

/-- The difference the int writer looks for is one from the shorts. -/
theorem differs_int_iff {k n : Nat} {vec : ByteMemory} {r : Registers} :
    ((List.range n).any fun i =>
      decide (intAt vec i ≠ (r.shortRegVet (k + i)).signExtend 32)) = true ↔
      Differs .int .short k n vec r := by
  have hext : ∀ v : BitVec 16, (v.signExtend 32).toInt = v.toInt := fun v =>
    BitVec.toInt_signExtend_of_le (by decide)
  simp only [List.any_eq_true, List.mem_range, decide_eq_true_eq, Differs, Bank.element, cell,
    ne_eq, ← BitVec.toInt_inj, hext]

theorem regWriteIntVet_eq {k n : Nat} (hk : k < 128) (hn : k + n ≤ 128) (vec : ByteMemory)
    (r : Registers) [Decidable (Differs .int .short k n vec r)] :
    regWriteVet vec n (Bank.int.offset + k) r =
      if Differs .int .short k n vec r then
        { r with
          regVet := ByteMemory.copy r.regVet (intBase + 4 * k) (4 * n) vec }.raise .int
      else r := by
  have hfit : ¬ (k + n) % 0x100000000 > 128 := by omega
  simp only [regWriteVet, switchBank_offset .int (Nat.le_of_lt hk), regWriteIntVet,
    getIndex_offset .int hk, nregIntTot, if_neg hfit, differs_int_iff]

/-- The int writer's comparison serves the law: a real difference shows as one
from the shorts, and one from the shorts is real or the bank is pending anyway. -/
def ShortsTell (k n : Nat) (vec : ByteMemory) (r : Registers) : Prop :=
  (Differs .int .int k n vec r → Differs .int .short k n vec r) ∧
    (Differs .int .short k n vec r → r.Pending .int ∨ Differs .int .int k n vec r)

theorem vectorLaw_bool {k n : Nat} (hk : k < 128) (hn : k + n ≤ 128) (vec out : ByteMemory)
    (r : Registers) : VectorLaw .bool k n vec out r := by
  obtain ⟨hcells, hflag⟩ := regWriteBoolVet_spec hk hn vec r
  exact vectorLaw_of_written hk hn out hcells hflag

open Classical in
theorem vectorLaw_short {k n : Nat} (hk : k < 128) (hn : k + n ≤ 128) (vec out : ByteMemory)
    (r : Registers) : VectorLaw .short k n vec out r := by
  by_cases h : Differs .short .short k n vec r
  · apply vectorLaw_of_written hk hn out
    · rw [regWriteShortVet_eq hk hn, if_pos h]
      exact written_raise (written_copyShort hn vec r)
    · rw [regWriteShortVet_eq hk hn, if_pos h, pending_raise]
      exact iff_of_true (Or.inl rfl) (Or.inr h)
  · apply vectorLaw_of_written hk hn out
    · rw [regWriteShortVet_eq hk hn, if_neg h]
      exact written_self h
    · rw [regWriteShortVet_eq hk hn, if_neg h]
      simp [h]

open Classical in
theorem vectorLaw_int_iff {k n : Nat} (hk : k < 128) (hn : k + n ≤ 128) (vec out : ByteMemory)
    (r : Registers) : VectorLaw .int k n vec out r ↔ ShortsTell k n vec r := by
  by_cases h : Differs .int .short k n vec r
  · have heq := regWriteIntVet_eq hk hn vec r
    rw [if_pos h] at heq
    have hcells : Written .int k n vec r (regWriteVet vec n (Bank.int.offset + k) r) := by
      rw [heq]
      exact written_raise (written_copyInt vec r)
    have hpending : (regWriteVet vec n (Bank.int.offset + k) r).Pending .int := by
      rw [heq, pending_raise]
      exact Or.inl rfl
    constructor
    · intro hlaw
      refine ⟨fun _ => h, fun _ => ?_⟩
      rw [← hcells.changed_iff hn]
      exact hlaw.flag.mp hpending
    · intro htell
      exact vectorLaw_of_written hk hn out hcells (iff_of_true hpending (htell.2 h))
  · have heq := regWriteIntVet_eq hk hn vec r
    rw [if_neg h] at heq
    constructor
    · intro hlaw
      refine ⟨?_, fun h' => absurd h' h⟩
      intro hdiff
      rcases hdiff with ⟨i, hi, hne⟩
      have hback := hlaw.reads_back i hi
      rw [element_regReadVet .int hk hn hi, heq] at hback
      exact absurd hback.symm hne
    · intro htell
      have hsame : ¬ Differs .int .int k n vec r := fun h' => h (htell.1 h')
      apply vectorLaw_of_written hk hn out
      · rw [heq]
        exact written_self hsame
      · rw [heq]
        simp [hsame]

/-- A vector write meets the law exactly when its bank is not the int one or the
shorts of the same indices tell what the ints would. -/
theorem regWriteVet_law_iff (b : Bank) {k n : Nat} (hk : k < 128) (hn : k + n ≤ 128)
    (vec out : ByteMemory) (r : Registers) :
    VectorLaw b k n vec out r ↔ (b = .int → ShortsTell k n vec r) := by
  cases b with
  | bool => exact iff_of_true (vectorLaw_bool hk hn vec out r) (by simp)
  | short => exact iff_of_true (vectorLaw_short hk hn vec out r) (by simp)
  | int => simpa using vectorLaw_int_iff hk hn vec out r

/-- Cleared registers but for a 1 in the first int register. -/
def oneAtFirstInt : Registers := { regVet := fun a => if a = 272 then 1 else 0, changeFlag := 0 }

/-- Writing a single 0 over the 1 is dropped: the first short is 0 too. -/
theorem regWriteVet_drops :
    ¬ ∀ (b : Bank) (k n : Nat), k < 128 → k + n ≤ 128 →
      ∀ (vec out : ByteMemory) (r : Registers), VectorLaw b k n vec out r := by
  intro hlaw
  have hback := (hlaw .int 0 1 (by decide) (by decide) (fun _ => 0) (fun _ => 0)
    oneAtFirstInt).reads_back 0 (by decide)
  exact absurd hback (by decide)

/-- No register of any bank is 0. -/
def countedRegisters : Registers := { regVet := fun a => BitVec.ofNat 8 (a + 1), changeFlag := 0 }

/-- Three new ints over others, none of them the short of the same index. -/
theorem regWriteVet_law_counted :
    VectorLaw .int 4 3 (fun a => BitVec.ofNat 8 (3 * a + 7)) (fun _ => 0) countedRegisters := by
  have hints : Differs .int .int 4 3 (fun a => BitVec.ofNat 8 (3 * a + 7)) countedRegisters :=
    ⟨0, by decide, by decide⟩
  have hshorts : Differs .int .short 4 3 (fun a => BitVec.ofNat 8 (3 * a + 7))
      countedRegisters := ⟨0, by decide, by decide⟩
  exact (regWriteVet_law_iff .int (by decide) (by decide) _ _ _).mpr fun _ =>
    ⟨fun _ => hshorts, fun _ => Or.inr hints⟩

end Registers

end Recirculador
