/-
The register file as three banks of values.

To its readers the register file is a value for each register and a mark for each bank.
`Banks` is just that: a write leaves its values, and marks the banks in which some value is now
another one.  The packed bytes, with their bits, their cells and their early returns, simulate
it over every run, as long as the int writer is given vectors it tells apart.
-/
import Recirculador.Common.PointWrites
import Recirculador.Common.Run
import Recirculador.Registers.Dispatch

namespace Recirculador

open SysRegMap Registers

/-- What the register file is for. -/
structure Banks where
  value : Bank × Nat → Int
  changed : Bank → Prop

inductive RegAction
  /-- `reg_write_bool`, `reg_write_short` or `reg_write_int`. -/
  | write (b : Bank) (k : Nat) (value : b.Value)
  /-- `reg_write`. -/
  | dispatch (b : Bank) (k : Nat) (val : ByteMemory)
  /-- `reg_write_vet`. -/
  | writeVet (b : Bank) (k n : Nat) (vec : ByteMemory)
  /-- An assignment through the pointer that `reg_ptr_int` returns. -/
  | poke (k : Nat) (value : BitVec 32)
  | clearChangeFlag (b : Bank)
  | setChangeFlag (b : Bank)

def Bank.toInt : (b : Bank) → b.Value → Int
  | .bool, v => v.toInt
  | .short, v => v.toInt
  | .int, v => v.toInt

namespace Registers

def step (r : Registers) : RegAction → Registers
  | .write b k value => regWriteScalar b value (b.offset + k) r
  | .dispatch b k val => (regWrite val (b.offset + k) ⟨r, []⟩).registers
  | .writeVet b k n vec => regWriteVet vec n (b.offset + k) r
  | .poke k value => r.setInt k value
  | .clearChangeFlag b => regClearChangeFlag b.changeBit r
  | .setChangeFlag b => regSetChangeFlag b.changeBit r

/-- The action names registers the map has, and an int vector is one the writer tells from
what is there. -/
def Fits (r : Registers) : RegAction → Prop
  | .write _ k _ => k < 128
  | .dispatch _ k _ => k < 128
  | .writeVet b k n vec => k < 128 ∧ k + n ≤ 128 ∧ (b = .int → ShortsTell k n vec r)
  | .poke k _ => k < 128
  | .clearChangeFlag _ => True
  | .setChangeFlag _ => True

end Registers

namespace RegAction

/-- The values an action writes, in its order. -/
def writes : RegAction → List ((Bank × Nat) × Int)
  | .write b k value => [((b, k), b.toInt value)]
  | .dispatch b k val => [((b, k), b.toInt (b.valueAt val))]
  | .writeVet b k n vec => (List.range n).map fun i => ((b, k + i), b.element vec i)
  | .poke k value => [((.int, k), value.toInt)]
  | .clearChangeFlag _ => []
  | .setChangeFlag _ => []

end RegAction

namespace Banks

/-- The values are written, and every bank with a new one in it is marked. -/
def write (s : Banks) (ws : List ((Bank × Nat) × Int)) : Banks where
  value := PointWrites.run s.value ws
  changed c := s.changed c ∨ ∃ k < 128, PointWrites.run s.value ws (c, k) ≠ s.value (c, k)

def step (s : Banks) (a : RegAction) : Banks :=
  match a with
  | .poke _ _ => { s with value := PointWrites.run s.value a.writes }
  | .clearChangeFlag b => { s with changed := fun c => c ≠ b ∧ s.changed c }
  -- The flag is assigned, so that the marks of the other banks go.
  | .setChangeFlag b => { s with changed := fun c => c = b }
  | _ => s.write a.writes

end Banks

namespace Registers

/-- The registers hold the values of the banks, and their flag has the marks. -/
structure Simulates (r : Registers) (s : Banks) : Prop where
  values : ∀ c k, k < 128 → r.cell c k = s.value (c, k)
  marks : ∀ c, r.Pending c ↔ s.changed c

/-- What the registers amount to. -/
def banks (r : Registers) : Banks where
  value p := r.cell p.1 p.2
  changed := r.Pending

theorem banks_simulates (r : Registers) : r.Simulates r.banks :=
  ⟨fun _ _ _ => rfl, fun _ => Iff.rfl⟩

variable {r r' : Registers} {s : Banks} {ws : List ((Bank × Nat) × Int)}

theorem cell_eq_toInt (r : Registers) (b : Bank) (k : Nat) :
    r.cell b k = b.toInt (r.scalar b k) := by
  cases b <;> rfl

theorem toInt_inj {b : Bank} {v w : b.Value} : b.toInt v = b.toInt w ↔ v = w := by
  cases b with
  | bool => cases v <;> cases w <;> decide
  | short => exact BitVec.toInt_inj
  | int => exact BitVec.toInt_inj

/-! ## Writes -/

/-- The values written are there, and the banks with a new one are pending. -/
structure Obeys (ws : List ((Bank × Nat) × Int)) (r r' : Registers) : Prop where
  values : ∀ c k, k < 128 → r'.cell c k = (PointWrites.last ws (c, k)).getD (r.cell c k)
  marks : ∀ c, r'.Pending c ↔ r.Pending c ∨ ∃ k < 128, r'.cell c k ≠ r.cell c k

theorem Simulates.write (h : r.Simulates s) (hobeys : Obeys ws r r') :
    r'.Simulates (s.write ws) := by
  have hvalue : ∀ c k, k < 128 → r'.cell c k = PointWrites.run s.value ws (c, k) := by
    intro c k hk
    rw [hobeys.values c k hk, PointWrites.run_apply, h.values c k hk]
  refine ⟨hvalue, fun c => ?_⟩
  rw [hobeys.marks c, h.marks c]
  refine or_congr_right (exists_congr fun k => and_congr_right fun hk => ?_)
  rw [hvalue c k hk, h.values c k hk]

theorem last_singleton (b c : Bank) (k j : Nat) (v : Int) :
    PointWrites.last [((b, k), v)] (c, j) = if c = b ∧ j = k then some v else none := by
  simp only [PointWrites.last, Option.none_or, Prod.mk.injEq]

theorem setScalar_cell {b : Bank} {k : Nat} (hk : k < 128) (v : b.Value) (r : Registers) (c : Bank)
    {j : Nat} (hj : j < 128) : (r.setScalar b k v).cell c j =
      (PointWrites.last [((b, k), b.toInt v)] (c, j)).getD (r.cell c j) := by
  rw [last_singleton]
  by_cases h : c = b ∧ j = k
  · obtain ⟨rfl, rfl⟩ := h
    rw [if_pos ⟨rfl, rfl⟩, cell_eq_toInt, setScalar_same]
    rfl
  · have hother : c = b → j ≠ k := fun hc hjk => h ⟨hc, hjk⟩
    rw [if_neg h, cell_eq_toInt, setScalar_other hk hj hother, ← cell_eq_toInt]
    rfl

theorem regWriteScalar_obeys {b : Bank} {k : Nat} (hk : k < 128) (v : b.Value) (r : Registers) :
    Obeys [((b, k), b.toInt v)] r (regWriteScalar b v (b.offset + k) r) := by
  rw [regWriteScalar_eq b hk]
  split
  · rename_i hv
    refine ⟨fun c j hj => ?_, fun c => ?_⟩
    · rw [last_singleton]
      split
      · rename_i hin
        obtain ⟨rfl, rfl⟩ := hin
        rw [cell_eq_toInt, hv]
        rfl
      · rfl
    · refine (or_iff_left ?_).symm
      rintro ⟨j, _, hne⟩
      exact hne rfl
  · rename_i hv
    have hcell : ∀ c j, j < 128 → ((r.setScalar b k v).raise b).cell c j =
        (PointWrites.last [((b, k), b.toInt v)] (c, j)).getD (r.cell c j) := by
      intro c j hj
      rw [cell_eq_toInt, raise_scalar, ← cell_eq_toInt]
      exact setScalar_cell hk v r c hj
    have hflag : ∀ c, (r.setScalar b k v).Pending c ↔ r.Pending c := by
      intro c
      rw [Pending, setScalar_changeFlag, Pending]
    refine ⟨hcell, fun c => ?_⟩
    rw [pending_raise, hflag c, or_comm]
    refine or_congr_right ⟨?_, ?_⟩
    · rintro rfl
      refine ⟨k, hk, ?_⟩
      rw [hcell c k hk, last_singleton, if_pos ⟨rfl, rfl⟩, cell_eq_toInt]
      exact fun he => hv (toInt_inj.mp he).symm
    · rintro ⟨j, hj, hne⟩
      rw [hcell c j hj, last_singleton] at hne
      by_cases hin : c = b ∧ j = k
      · exact hin.1
      · rw [if_neg hin] at hne
        exact absurd rfl hne

/-! ## Vectors -/

theorem last_vector (b : Bank) (k n : Nat) (vec : ByteMemory) (c : Bank) (j : Nat) :
    PointWrites.last ((List.range n).map fun i => ((b, k + i), b.element vec i)) (c, j) =
      if c = b ∧ k ≤ j ∧ j < k + n then some (b.element vec (j - k)) else none := by
  induction n with
  | zero => rw [if_neg (by omega)]; rfl
  | succ n ih =>
    rw [List.range_succ, List.map_append, PointWrites.last_append, ih]
    rw [List.map_singleton, last_singleton]
    by_cases hnew : c = b ∧ j = k + n
    · have hin : c = b ∧ k ≤ j ∧ j < k + (n + 1) := ⟨hnew.1, by omega, by omega⟩
      rw [if_pos hnew, if_pos hin, hnew.2, Nat.add_sub_cancel_left]
      rfl
    · have hsame : (c = b ∧ k ≤ j ∧ j < k + n) ↔ (c = b ∧ k ≤ j ∧ j < k + (n + 1)) :=
        and_congr_right fun hc => by
          have hj : j ≠ k + n := fun hj => hnew ⟨hc, hj⟩
          omega
      rw [if_neg hnew, Option.none_or]
      simp only [hsame]

theorem pending_foldl_other {c : Bank} (hc : c ≠ .bool) (vec : ByteMemory) (addr : Nat)
    (is : List Nat) (r : Registers)
    (hindex : ∀ i ∈ is, ∃ k, getIndex (addr + i) = some k) :
    (is.foldl (fun r i => regWriteBool (boolAt vec i) (addr + i) r) r).Pending c ↔
      r.Pending c := by
  induction is generalizing r with
  | nil => exact Iff.rfl
  | cons i is ih =>
    have hrest := ih (regWriteBool (boolAt vec i) (addr + i) r) fun j hj =>
      hindex j (List.mem_cons_of_mem i hj)
    refine hrest.trans ?_
    obtain ⟨k, hk⟩ := hindex i List.mem_cons_self
    rw [regWriteBool_eq hk]
    split
    · exact Iff.rfl
    · rw [pending_raise]
      exact or_iff_right hc

open Classical in
/-- A vector write marks no bank but its own. -/
theorem regWriteVet_pending_other {b c : Bank} (hc : c ≠ b) {k n : Nat} (hk : k < 128)
    (hn : k + n ≤ 128) (vec : ByteMemory) (r : Registers) :
    (regWriteVet vec n (b.offset + k) r).Pending c ↔ r.Pending c := by
  have hraised : ∀ m : Registers, m.changeFlag = r.changeFlag →
      ((m.raise b).Pending c ↔ r.Pending c) := by
    intro m hm
    rw [pending_raise, or_iff_right hc, Pending, hm, Pending]
  cases b with
  | bool =>
    have heq : regWriteVet vec n (Bank.bool.offset + k) r = (List.range n).foldl
        (fun r i => regWriteBool (boolAt vec i) (offsetBool + k + i) r) r := by
      simp only [regWriteVet, switchBank_offset .bool (Nat.le_of_lt hk), regWriteBoolVet,
        getIndex_offset .bool hk]
      exact if_neg (show ¬ (k + n) % 0x100000000 > 128 by omega)
    rw [heq]
    refine pending_foldl_other hc vec _ _ r fun i hi => ⟨k + i, ?_⟩
    have hlt := List.mem_range.mp hi
    rw [Nat.add_assoc]
    exact getIndex_bool (by omega)
  | short =>
    rw [regWriteShortVet_eq hk hn]
    split
    · exact hraised _ rfl
    · exact Iff.rfl
  | int =>
    rw [regWriteIntVet_eq hk hn]
    split
    · exact hraised _ rfl
    · exact Iff.rfl

theorem VectorLaw.obeys {b : Bank} {k n : Nat} (hk : k < 128) (hn : k + n ≤ 128)
    {vec out : ByteMemory} {r : Registers} (h : VectorLaw b k n vec out r) :
    Obeys ((List.range n).map fun i => ((b, k + i), b.element vec i)) r
      (regWriteVet vec n (b.offset + k) r) := by
  have hvalues : ∀ c j, j < 128 → (regWriteVet vec n (b.offset + k) r).cell c j =
      if c = b ∧ k ≤ j ∧ j < k + n then b.element vec (j - k) else r.cell c j := by
    intro c j hj
    split
    · rename_i hin
      obtain ⟨rfl, hlo, hhi⟩ := hin
      have hread := h.reads_back (j - k) (by omega)
      rw [element_regReadVet c hk hn (by omega), Nat.add_sub_cancel' hlo] at hread
      exact hread
    · rename_i hout
      have hside : c ≠ b ∨ j < k ∨ k + n ≤ j := by
        by_cases hc : c = b
        · have hin := not_and.mp hout hc
          exact Or.inr (by omega)
        · exact Or.inl hc
      exact h.frame c j hj hside
  refine ⟨fun c j hj => ?_, fun c => ?_⟩
  · rw [hvalues c j hj, last_vector]
    split <;> rfl
  · by_cases hc : c = b
    · subst hc
      rw [h.flag]
      refine or_congr_right ⟨?_, ?_⟩
      · intro ⟨i, hi, hne⟩
        exact ⟨k + i, by omega, hne⟩
      · intro ⟨j, hj, hne⟩
        have hin : k ≤ j ∧ j < k + n := by
          apply Classical.byContradiction
          intro hout
          rw [hvalues c j hj, if_neg fun h => hout h.2] at hne
          exact hne rfl
        refine ⟨j - k, by omega, ?_⟩
        rw [Nat.add_sub_cancel' hin.1]
        exact hne
    · rw [regWriteVet_pending_other hc hk hn]
      refine (or_iff_left ?_).symm
      intro ⟨j, hj, hne⟩
      rw [hvalues c j hj, if_neg fun h => hc h.1] at hne
      exact hne rfl

/-! ## Runs -/

theorem Simulates.poke (h : r.Simulates s) {k : Nat} (hk : k < 128) (v : BitVec 32) :
    (r.setInt k v).Simulates (s.step (.poke k v)) := by
  refine ⟨fun c j hj => ?_, h.marks⟩
  have hcell := setScalar_cell (b := .int) hk v r c hj
  rw [h.values c j hj] at hcell
  exact hcell.trans (PointWrites.run_apply s.value _ (c, j)).symm

/-- Each action does to the bytes what it does to the banks. -/
theorem Simulates.step (h : r.Simulates s) {a : RegAction} (ha : r.Fits a) :
    (r.step a).Simulates (s.step a) := by
  cases a with
  | write b k v => exact h.write (regWriteScalar_obeys ha v r)
  | dispatch b k val =>
    have heq := regWrite_registers (switchBank_offset b (Nat.le_of_lt ha)) val ⟨r, []⟩
    rw [Registers.step, heq]
    exact h.write (regWriteScalar_obeys ha _ r)
  | writeVet b k n vec =>
    obtain ⟨hk, hn, htell⟩ := ha
    have hlaw : VectorLaw b k n vec (fun _ => 0) r := by
      cases b with
      | bool => exact vectorLaw_bool hk hn vec _ r
      | short => exact vectorLaw_short hk hn vec _ r
      | int => exact (vectorLaw_int_iff hk hn vec _ r).mpr (htell rfl)
    exact h.write (hlaw.obeys hk hn)
  | poke k v => exact h.poke ha v
  | clearChangeFlag b =>
    refine ⟨fun c k hk => ?_, fun c => ?_⟩
    · have hcell : (regClearChangeFlag b.changeBit r).cell c k = r.cell c k := by
        cases c <;>
          simp only [cell, boolBit, shortRegVet, intRegVet, regClearChangeFlag_regVet]
      exact hcell.trans (h.values c k hk)
    · rw [Registers.step, pending_regClearChangeFlag, h.marks c]
      exact Iff.rfl
  | setChangeFlag b =>
    refine ⟨h.values, fun c => ?_⟩
    rw [Registers.step, pending_regSetChangeFlag]
    exact Iff.rfl

theorem Simulates.run (h : r.Simulates s) {as : List RegAction}
    (hfit : Run.Each Registers.step Fits r as) :
    (Run.final Registers.step r as).Simulates (Run.final Banks.step s as) := by
  induction as generalizing r s with
  | nil => exact h
  | cons a as ih => exact ih (h.step hfit.1) hfit.2

theorem Banks.step_value (s : Banks) (a : RegAction) :
    (s.step a).value = PointWrites.run s.value a.writes := by
  cases a <;> rfl

theorem Banks.final_value (s : Banks) (as : List RegAction) : (Run.final Banks.step s as).value =
    PointWrites.run s.value (as.flatMap RegAction.writes) := by
  induction as generalizing s with
  | nil => rfl
  | cons a as ih =>
    rw [List.flatMap_cons, PointWrites.run_append, ← Banks.step_value]
    exact ih (s.step a)

theorem toInt_regReadScalar (b : Bank) {k : Nat} (hk : k < 128) (r : Registers) :
    b.toInt (regReadScalar b (b.offset + k) r) = r.cell b k := by
  rw [regReadScalar_eq b hk, cell_eq_toInt]

/-- After any run of writes a read finds the last value written to the register, alone or in a
vector, or the one it held from the start, and the flag has the marks of the banks. -/
theorem run_lastWritten (r : Registers) (as : List RegAction) (hfit : Run.Each step Fits r as) :
    let r' := Run.final step r as
    (∀ (b : Bank) (k : Nat), k < 128 → b.toInt (regReadScalar b (b.offset + k) r') =
        (PointWrites.last (as.flatMap RegAction.writes) (b, k)).getD
          (b.toInt (regReadScalar b (b.offset + k) r))) ∧
      (∀ (b : Bank) (k n i : Nat) (out : ByteMemory), k + n ≤ 128 → i < n →
        b.element (regReadVet out n (b.offset + k) r') i =
          b.toInt (regReadScalar b (b.offset + (k + i)) r')) ∧
      ∀ b, r'.Pending b ↔ (Run.final Banks.step r.banks as).changed b := by
  intro r'
  have hrun : r'.Simulates (Run.final Banks.step r.banks as) := (banks_simulates r).run hfit
  refine ⟨?_, ?_, hrun.marks⟩
  · intro b k hk
    rw [toInt_regReadScalar b hk, toInt_regReadScalar b hk, hrun.values b k hk]
    rw [Banks.final_value, PointWrites.run_apply]
    rfl
  · intro b k n i out hn hi
    rw [element_regReadVet b (by omega) hn hi, toInt_regReadScalar b (by omega)]

/-- A set point written, the clock counted up behind the writers' back, the flag cleared. -/
theorem run_lastWritten_setPoint :
    let r' := Run.final step ⟨fun _ => 0, 0⟩
      [.write .int 17 4500, .poke 0 1, .clearChangeFlag .int, .writeVet .short 3 2 fun _ => 1]
    (∀ (b : Bank) (k : Nat), k < 128 → b.toInt (regReadScalar b (b.offset + k) r') =
        (PointWrites.last [((.int, 17), 4500), ((.int, 0), 1), ((.short, 3), 257),
          ((.short, 4), 257)] (b, k)).getD
          (b.toInt (regReadScalar b (b.offset + k) ⟨fun _ => 0, 0⟩))) := by
  have h := run_lastWritten ⟨fun _ => 0, 0⟩
    [.write .int 17 4500, .poke 0 1, .clearChangeFlag .int, .writeVet .short 3 2 fun _ => 1]
    ⟨show 17 < 128 by decide, show 0 < 128 by decide, trivial,
      ⟨show 3 < 128 by decide, show 3 + 2 ≤ 128 by decide, nofun⟩, trivial⟩
  exact h.1

end Registers

end Recirculador
