/-
The task scheduler of `task.c` and the SysTick counter of `interrupt.c` it runs on.

A call of the handler advances the counter and runs the first task that is due, if any.
Task functions are parameters over a memory of their own; what they share with the
scheduler is only that it calls them.
-/

namespace Recirculador
namespace Task

@[simp] abbrev sysTaskMax : Nat := 12

structure TaskS (σ : Type) where
  ptrFunc : Option (BitVec 32 → σ → σ)
  lastExecution : BitVec 64
  dtUs : BitVec 32
  priority : BitVec 8
  ptrData : BitVec 32

def TaskS.stamp {σ : Type} (t : TaskS σ) (time : BitVec 64) : TaskS σ :=
  { t with lastExecution := time }

/-- `dT_us` after `SysTickBeginISR`. -/
def sysTickDTUs (systemCoreClock frequency : Nat) : Nat :=
  1000000 / (systemCoreClock / (systemCoreClock / frequency))

/-- The clock of `SysConfigClock30M` and the frequency of `task_schedulerInit`. -/
theorem sysTickDTUs_setup : sysTickDTUs 15000000 2000 = 500 := by decide

theorem dTUs_pos : 0 < (500 : BitVec 32).toNat := by decide

structure Scheduler (σ : Type) where
  sysTickCount : BitVec 64
  dTUs : BitVec 32
  /-- SysTick was started. -/
  ticking : 0 < dTUs.toNat
  pause : Bool
  taskVet : Nat → TaskS σ
  memory : σ

variable {σ : Type}

namespace Scheduler

def sysTickGetTimeUs (s : Scheduler σ) : BitVec 64 := s.dTUs.setWidth 64 * s.sysTickCount

/-- The loop of `isrScheduler` over the slots to come, with the slot it runs. -/
def isrLoop (s : Scheduler σ) : List Nat → Option Nat × Scheduler σ
  | [] => (none, s)
  | i :: is =>
    match (s.taskVet i).ptrFunc with
    | none => isrLoop s is
    | some ptrFunc =>
      let timeUsAux := s.sysTickGetTimeUs
      let timeDt := timeUsAux - (s.taskVet i).lastExecution
      if timeDt ≥ (s.taskVet i).dtUs.setWidth 64 then
        (some i, { s with
          taskVet := fun j => if j = i then (s.taskVet i).stamp timeUsAux else s.taskVet j
          memory := ptrFunc (s.taskVet i).ptrData s.memory })
      else isrLoop s is

def isrScheduler (s : Scheduler σ) : Option Nat × Scheduler σ :=
  if s.pause then (none, s) else isrLoop s (List.range sysTaskMax)

def tick (s : Scheduler σ) : Scheduler σ := { s with sysTickCount := s.sysTickCount + 1 }

def sysTickHandler (s : Scheduler σ) : Option Nat × Scheduler σ := s.tick.isrScheduler

/-! ## The first task that is due -/

def Due (s : Scheduler σ) (i : Nat) : Bool :=
  (s.taskVet i).ptrFunc.isSome &&
    decide (s.sysTickGetTimeUs - (s.taskVet i).lastExecution ≥ (s.taskVet i).dtUs.setWidth 64)

/-- What the function of a slot makes of the memory. -/
def effect (s : Scheduler σ) (i : Nat) : σ :=
  match (s.taskVet i).ptrFunc with
  | none => s.memory
  | some ptrFunc => ptrFunc (s.taskVet i).ptrData s.memory

theorem effect_eq {s : Scheduler σ} {i : Nat} {ptrFunc : BitVec 32 → σ → σ}
    (h : (s.taskVet i).ptrFunc = some ptrFunc) :
    s.effect i = ptrFunc (s.taskVet i).ptrData s.memory := by
  rw [effect, h]

/-- Slot `i` runs at the time of the counter. -/
def execute (s : Scheduler σ) (i : Nat) : Scheduler σ :=
  { s with
    taskVet := fun j =>
      if j = i then (s.taskVet i).stamp s.sysTickGetTimeUs else s.taskVet j
    memory := s.effect i }

def executed (s : Scheduler σ) : Option Nat → Scheduler σ
  | none => s
  | some i => s.execute i

theorem isrLoop_eq (s : Scheduler σ) (is : List Nat) :
    s.isrLoop is = (is.find? s.Due, s.executed (is.find? s.Due)) := by
  induction is with
  | nil => rfl
  | cons i is ih =>
    rw [isrLoop, List.find?_cons]
    cases hfunc : (s.taskVet i).ptrFunc with
    | none =>
      have hdue : s.Due i = false := by rw [Due, hfunc, Option.isSome_none, Bool.false_and]
      rw [hdue]
      exact ih
    | some ptrFunc =>
      by_cases htime : s.sysTickGetTimeUs - (s.taskVet i).lastExecution ≥
          (s.taskVet i).dtUs.setWidth 64
      · have hdue : s.Due i = true := by
          rw [Due, hfunc, Option.isSome_some, Bool.true_and, decide_eq_true htime]
        rw [hdue]
        dsimp only
        rw [if_pos htime, executed, execute, effect_eq hfunc]
      · have hdue : s.Due i = false := by
          rw [Due, decide_eq_false htime, Bool.and_false]
        rw [hdue]
        dsimp only
        rw [if_neg htime]
        exact ih

/-- The slot a call of the handler runs. -/
def ran (s : Scheduler σ) : Option Nat :=
  if s.pause then none else (List.range sysTaskMax).find? s.tick.Due

/-- The handler as one step: count, then run what is due first. -/
theorem sysTickHandler_eq (s : Scheduler σ) :
    s.sysTickHandler = (s.ran, s.tick.executed s.ran) := by
  rw [sysTickHandler, isrScheduler, ran]
  show (if s.pause then _ else _) = _
  split
  · rfl
  · exact isrLoop_eq _ _

theorem ran_some {s : Scheduler σ} {i : Nat} (h : s.ran = some i) :
    s.pause = false ∧ i < sysTaskMax ∧ s.tick.Due i = true := by
  unfold ran at h
  split at h
  · exact nomatch h
  · rename_i hpause
    refine ⟨by simpa using hpause, ?_, List.find?_some h⟩
    exact List.mem_range.mp (List.mem_of_find?_eq_some h)

/-- While a task is due, every call runs one. -/
theorem ran_isSome {s : Scheduler σ} {i : Nat} (hpause : s.pause = false) (hi : i < sysTaskMax)
    (hdue : s.tick.Due i = true) : ∃ j, s.ran = some j := by
  rw [← Option.isSome_iff_exists, ran, hpause, if_neg Bool.false_ne_true, List.find?_isSome]
  exact ⟨i, List.mem_range.mpr hi, hdue⟩

end Scheduler

end Task
end Recirculador
