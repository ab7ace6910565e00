/-
Registering tasks.

`task_new` looks for a slot without a function and fills it.  Its test for a full table is
commented out: when all slots are taken the loop assigns nothing to `ptrAux`, and the call
writes through it all the same.
-/
import Recirculador.Task.Scheduler

namespace Recirculador
namespace Task

@[simp] abbrev sysTaskNameLength : Nat := 20

/-- The arguments of `task_new`. -/
structure TaskCall (σ : Type) where
  ptrFunc : Option (BitVec 32 → σ → σ)
  taskName : Nat → BitVec 8
  frequency : BitVec 32
  priority : BitVec 8
  arg : BitVec 32

structure TaskTable (σ : Type) where
  /-- Nonzero once the table is initialized; it also counts the tasks, in steps of 2. -/
  tasksOn : BitVec 32
  schedulerOn : Bool
  taskVet : Nat → TaskS σ
  taskName : Nat → Nat → BitVec 8

variable {σ : Type}

def taskSDefault : TaskS σ :=
  { ptrFunc := none, lastExecution := 0, dtUs := 0, priority := 0, ptrData := 0 }

/-- The table the loader leaves, all zeros. -/
def bootTable : TaskTable σ :=
  { tasksOn := 0, schedulerOn := false, taskVet := fun _ => taskSDefault, taskName := fun _ _ => 0 }

/-- The loop that copies a name, up to its terminator. -/
def copyName (taskName : Nat → BitVec 8) (name : Nat → BitVec 8) : List Nat → Nat → BitVec 8
  | [] => name
  | i :: is =>
    let name := fun j => if j = i then taskName i else name j
    if taskName i = 0 then name else copyName taskName name is

/-- `1000000/frequency`. -/
def periodUs (frequency : BitVec 32) : Option (BitVec 32) :=
  if frequency = 0 then none else some (1000000 / frequency)

namespace TaskTable

def taskVetInit (t : TaskTable σ) : TaskTable σ :=
  { t with
    taskVet := fun i => if i < sysTaskMax then taskSDefault else t.taskVet i
    taskName := fun i => if i < sysTaskMax then fun _ => 0 else t.taskName i
    tasksOn := 1 }

def prepare (t : TaskTable σ) : TaskTable σ := if t.tasksOn = 0 then t.taskVetInit else t

/-- The slot the loop assigns to `ptrAux`, if any. -/
def freeSlot (t : TaskTable σ) : Option Nat :=
  (List.range sysTaskMax).find? fun i => (t.taskVet i).ptrFunc.isNone

/-- A store through `ptrAux`. -/
def update (i : Nat) (f : TaskS σ → TaskS σ) (t : TaskTable σ) : TaskTable σ :=
  { t with taskVet := fun j => if j = i then f (t.taskVet i) else t.taskVet j }

def rename (i : Nat) (taskName : Nat → BitVec 8) (t : TaskTable σ) : TaskTable σ :=
  { t with taskName := fun j =>
      if j = i then copyName taskName (t.taskName i) (List.range sysTaskNameLength)
      else t.taskName j }

/-- There is no result where the call writes through `ptrAux` unassigned or divides by 0. -/
def taskNew (c : TaskCall σ) (t : TaskTable σ) : Option (TaskTable σ) := do
  let t := t.prepare
  let ptrAux ← t.freeSlot
  let t := t.update ptrAux fun task => { task with ptrFunc := c.ptrFunc }
  let dtUs ← periodUs c.frequency
  let t := t.update ptrAux fun task => { task with dtUs }
  let t := t.update ptrAux fun task => { task with priority := c.priority }
  let t := t.update ptrAux fun task => { task with ptrData := c.arg }
  let t := t.rename ptrAux c.taskName
  let t := { t with tasksOn := t.tasksOn + 0b10 }
  return { t with schedulerOn := true }

/-- One free slot takes what the call says, and no other slot moves. -/
structure Fills (c : TaskCall σ) (i : Nat) (t t' : TaskTable σ) : Prop where
  slot : i < sysTaskMax
  free : (t.taskVet i).ptrFunc = none
  ptrFunc : (t'.taskVet i).ptrFunc = c.ptrFunc
  dtUs : (t'.taskVet i).dtUs = 1000000 / c.frequency
  priority : (t'.taskVet i).priority = c.priority
  ptrData : (t'.taskVet i).ptrData = c.arg
  others : ∀ j, j ≠ i → t'.taskVet j = t.taskVet j

/-- The calls to come do what they should, `n` calls being done: the first twelve fill a
slot each and the others leave the table as it is. -/
def Conserves (n : Nat) (t : TaskTable σ) : List (TaskCall σ) → Prop
  | [] => True
  | c :: cs => ∃ t', t.taskNew c = some t' ∧
      (if n < sysTaskMax then ∃ i, Fills c i t t' else t'.taskVet = t.taskVet) ∧
      Conserves (n + 1) t' cs

/-- `n` slots are taken, from the start on. -/
structure Taken (n : Nat) (t : TaskTable σ) : Prop where
  slots : ∀ i, i < sysTaskMax → ((t.taskVet i).ptrFunc = none ↔ n ≤ i)
  /-- Initializing the table would change no slot. -/
  prepared : t.prepare.taskVet = t.taskVet
  odd : t.prepare.tasksOn.toNat % 2 = 1

variable {t : TaskTable σ} {c : TaskCall σ} {n i : Nat}

/-! ## One call -/

theorem taken_boot : Taken 0 (bootTable : TaskTable σ) := by
  refine ⟨fun i _ => iff_of_true rfl (Nat.zero_le i), ?_, rfl⟩
  funext i
  show (if i < sysTaskMax then taskSDefault else taskSDefault) = taskSDefault
  split <;> rfl

theorem taken_isNone (h : Taken n t) {j : Nat} (hj : j < sysTaskMax) :
    (t.prepare.taskVet j).ptrFunc.isNone = decide (n ≤ j) := by
  rw [h.prepared, Bool.eq_iff_iff, Option.isNone_iff_eq_none, decide_eq_true_iff, h.slots j hj]

theorem freeSlot_taken (h : Taken n t) (hn : n < sysTaskMax) : t.prepare.freeSlot = some n := by
  rw [freeSlot, List.find?_range_eq_some]
  refine ⟨?_, List.mem_range.mpr hn, fun j hj => ?_⟩
  · rw [taken_isNone h hn, decide_eq_true (Nat.le_refl n)]
  · rw [taken_isNone h (Nat.lt_trans hj hn), decide_eq_false (Nat.not_le.mpr hj), Bool.not_false]

theorem freeSlot_full (h : Taken sysTaskMax t) : t.prepare.freeSlot = none := by
  rw [freeSlot, List.find?_range_eq_none]
  intro j hj
  rw [taken_isNone h hj, decide_eq_false (Nat.not_le.mpr hj), Bool.not_false]

/-- What a call stores, all of it. -/
theorem taskNew_eq (hfree : t.prepare.freeSlot = some i) (hfrequency : c.frequency ≠ 0) :
    ∃ t', t.taskNew c = some t' ∧ t'.tasksOn = t.prepare.tasksOn + 2 ∧ ∀ j,
      t'.taskVet j = if j = i then
        { t.prepare.taskVet i with
          ptrFunc := c.ptrFunc
          dtUs := 1000000 / c.frequency
          priority := c.priority
          ptrData := c.arg }
      else t.prepare.taskVet j := by
  have hperiod : periodUs c.frequency = some (1000000 / c.frequency) := if_neg hfrequency
  refine ⟨_, by simp only [taskNew, hfree, hperiod, Option.bind_eq_bind, Option.bind_some]; rfl,
    rfl, fun j => ?_⟩
  by_cases hj : j = i
  · simp [update, rename, hj]
  · simp [update, rename, hj]

theorem prepare_odd (h : t.tasksOn.toNat % 2 = 1) : t.prepare = t := by
  refine if_neg fun hzero => ?_
  rw [hzero] at h
  exact Nat.zero_ne_one h

theorem taskNew_fills (h : Taken n t) (hn : n < sysTaskMax) (hfunc : c.ptrFunc ≠ none)
    (hfrequency : c.frequency ≠ 0) :
    ∃ t', t.taskNew c = some t' ∧ Fills c n t t' ∧ Taken (n + 1) t' := by
  obtain ⟨t', hnew, hcount, hslots⟩ := taskNew_eq (freeSlot_taken h hn) hfrequency
  rw [h.prepared] at hslots
  have hslot := (hslots n).trans (if_pos rfl)
  have hothers : ∀ j, j ≠ n → t'.taskVet j = t.taskVet j := fun j hj =>
    (hslots j).trans (if_neg hj)
  have hodd : t'.tasksOn.toNat % 2 = 1 := by
    have hodd := h.odd
    rw [hcount, BitVec.toNat_add]
    show (t.prepare.tasksOn.toNat + 2) % 0x100000000 % 2 = 1
    omega
  refine ⟨t', hnew, ?_, ?_⟩
  · refine ⟨hn, (h.slots n hn).mpr (Nat.le_refl n), ?_, ?_, ?_, ?_, hothers⟩ <;> rw [hslot]
  · refine ⟨fun j hj => ?_, by rw [prepare_odd hodd], by rw [prepare_odd hodd]; exact hodd⟩
    by_cases he : j = n
    · rw [he, hslot]
      exact iff_of_false hfunc (Nat.not_succ_le_self n)
    · rw [hothers j he, h.slots j hj]
      omega

/-- With every slot taken a call writes through a pointer nobody assigned. -/
theorem taskNew_full (h : Taken sysTaskMax t) (c : TaskCall σ) : t.taskNew c = none := by
  simp only [taskNew, freeSlot_full h, Option.bind_eq_bind, Option.bind_none]

/-! ## Any number of calls -/

theorem conserves_taken_iff (h : Taken n t) (hn : n ≤ sysTaskMax) {cs : List (TaskCall σ)}
    (hcs : ∀ c ∈ cs, c.ptrFunc ≠ none ∧ c.frequency ≠ 0) :
    Conserves n t cs ↔ n + cs.length ≤ sysTaskMax := by
  induction cs generalizing n t with
  | nil => exact iff_of_true trivial hn
  | cons c cs ih =>
    obtain ⟨⟨hfunc, hfrequency⟩, hcs⟩ := List.forall_mem_cons.mp hcs
    rw [List.length_cons]
    by_cases hroom : n < sysTaskMax
    · obtain ⟨t', hnew, hfills, htaken⟩ := taskNew_fills h hroom hfunc hfrequency
      have hrest := ih htaken hroom hcs
      rw [Nat.add_right_comm] at hrest
      rw [← Nat.add_assoc, ← hrest, Conserves]
      constructor
      · rintro ⟨u, hu, -, hconserves⟩
        rwa [Option.some.inj (hnew.symm.trans hu)]
      · intro hconserves
        exact ⟨t', hnew, by rw [if_pos hroom]; exact ⟨n, hfills⟩, hconserves⟩
    · have hfull : n = sysTaskMax := Nat.le_antisymm hn (Nat.not_lt.mp hroom)
      subst hfull
      refine iff_of_false ?_ (by omega)
      rintro ⟨u, hu, -⟩
      exact Option.some_ne_none u (hu.symm.trans (taskNew_full h c))

/-- A sequence of calls is conservative exactly if there are no more of them than slots. -/
theorem conserves_iff (cs : List (TaskCall σ))
    (hcs : ∀ c ∈ cs, c.ptrFunc ≠ none ∧ c.frequency ≠ 0) :
    Conserves 0 bootTable cs ↔ cs.length ≤ sysTaskMax := by
  rw [conserves_taken_iff taken_boot (Nat.zero_le _) hcs, Nat.zero_add]

/-- A task of 1 Hz without a name. -/
def plainCall : TaskCall Unit :=
  { ptrFunc := some fun _ s => s, taskName := fun _ => 0, frequency := 1, priority := 0, arg := 0 }

theorem plainCall_valid (n : Nat) :
    ∀ c ∈ List.replicate n plainCall, c.ptrFunc ≠ none ∧ c.frequency ≠ 0 := by
  intro c hc
  rw [List.eq_of_mem_replicate hc]
  exact ⟨Option.some_ne_none _, by decide⟩

theorem conserves_full :
    Conserves 0 bootTable (List.replicate 12 plainCall) ↔
      (List.replicate 12 plainCall).length ≤ sysTaskMax :=
  conserves_iff (List.replicate 12 plainCall) (plainCall_valid 12)

/-- One task more than there are slots. -/
theorem not_conserves_overfull :
    ¬ ∀ cs : List (TaskCall Unit), (∀ c ∈ cs, c.ptrFunc ≠ none ∧ c.frequency ≠ 0) →
      Conserves 0 bootTable cs := by
  intro hall
  have hcalls := (conserves_taken_iff taken_boot (Nat.zero_le _) (plainCall_valid 13)).mp
    (hall (List.replicate 13 plainCall) (plainCall_valid 13))
  exact absurd hcalls (by decide)

end TaskTable

end Task
end Recirculador
