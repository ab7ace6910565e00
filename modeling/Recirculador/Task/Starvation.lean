/-
Every task that is due gets its turn.

The scheduler always looks from slot 0 on and runs one task a call, so a low slot could
keep a high one from running.  A task that ran is not due again before every other one
had time to run: in as many calls as there are tasks nobody runs twice.  What remains is
the 64-bit time, which must not wrap while the task waits.
-/
import Mathlib.Data.Finset.Card
import Recirculador.Common.Run
import Recirculador.Task.Scheduler

/-! ## Taking turns -/

namespace Turns

universe u

variable {ι : Type u} [DecidableEq ι]

/-- One candidate is picked at each step.  If somebody is picked as long as `j` waits and nobody
is picked twice, `j` is picked within as many steps as there are candidates. -/
theorem exists_pick {slots : Finset ι} (pick : Nat → Option ι) {j : ι} (hj : j ∈ slots)
    (hbusy : ∀ k, k < slots.card → (∀ m, m < k → pick m ≠ some j) → ∃ i ∈ slots, pick k = some i)
    (honce : ∀ m k, m < k → k < slots.card → ∀ i, pick m = some i → pick k ≠ some i) :
    ∃ k, k < slots.card ∧ pick k = some j := by
  by_contra hnone
  have hnever : ∀ k, k < slots.card → pick k ≠ some j := fun k hk hpick => hnone ⟨k, hk, hpick⟩
  have hother : ∀ k : Nat, ∃ i, k < slots.card → i ∈ slots.erase j ∧ pick k = some i := by
    intro k
    by_cases hk : k < slots.card
    · obtain ⟨i, hi, hpick⟩ := hbusy k hk fun m hm => hnever m (Nat.lt_trans hm hk)
      have hne : i ≠ j := fun h => hnever k hk (h ▸ hpick)
      exact ⟨i, fun _ => ⟨Finset.mem_erase.mpr ⟨hne, hi⟩, hpick⟩⟩
    · exact ⟨j, fun h => absurd h hk⟩
  choose picked hpicked using hother
  -- More steps than candidates other than `j`.
  have hcard : (slots.erase j).card < (Finset.range slots.card).card := by
    rw [Finset.card_range]
    exact Finset.card_erase_lt_of_mem hj
  obtain ⟨m, hm, k, hk, hne, heq⟩ := Finset.exists_ne_map_eq_of_card_lt_of_maps_to hcard
    fun k hk => (hpicked k (Finset.mem_range.mp hk)).1
  have hm := Finset.mem_range.mp hm
  have hk := Finset.mem_range.mp hk
  have hpickm := (hpicked m hm).2
  have hpickk := (hpicked k hk).2
  rcases Nat.lt_or_gt_of_ne hne with hlt | hgt
  · exact honce m k hlt hk _ hpickm (heq ▸ hpickk)
  · exact honce k m hgt hm _ hpickk (heq ▸ hpickm)

end Turns

/-! ## The scheduler in a window of calls -/

namespace Recirculador
namespace Task

variable {σ : Type}

namespace Scheduler

/-- The scheduler after `k` calls of the handler. -/
def after (s : Scheduler σ) : Nat → Scheduler σ
  | 0 => s
  | k + 1 => (s.after k).sysTickHandler.2

/-- The slots with a task. -/
def occupied (s : Scheduler σ) : Finset Nat :=
  (Finset.range sysTaskMax).filter fun i => (s.taskVet i).ptrFunc.isSome

/-- The time call `k` of a window finds. -/
def callTime (s : Scheduler σ) (k : Nat) : BitVec 64 := (s.after k).tick.sysTickGetTimeUs

variable {s : Scheduler σ}

/-! ## What a call keeps -/

theorem executed_taskVet (s : Scheduler σ) (o : Option Nat) (j : Nat) :
    (s.executed o).taskVet j =
      if o = some j then (s.taskVet j).stamp s.sysTickGetTimeUs else s.taskVet j := by
  cases o with
  | none => rfl
  | some i =>
    show (if j = i then (s.taskVet i).stamp s.sysTickGetTimeUs else s.taskVet j) = _
    by_cases h : j = i
    · rw [if_pos h, if_pos (congrArg some h.symm), h]
    · rw [if_neg h, if_neg fun h' => h (Option.some.inj h').symm]

theorem executed_pause (s : Scheduler σ) (o : Option Nat) : (s.executed o).pause = s.pause := by
  cases o <;> rfl

theorem executed_dTUs (s : Scheduler σ) (o : Option Nat) : (s.executed o).dTUs = s.dTUs := by
  cases o <;> rfl

theorem executed_sysTickCount (s : Scheduler σ) (o : Option Nat) :
    (s.executed o).sysTickCount = s.sysTickCount := by
  cases o <;> rfl

theorem after_succ (s : Scheduler σ) (k : Nat) :
    s.after (k + 1) = (s.after k).tick.executed (s.after k).ran := by
  rw [after, sysTickHandler_eq]

theorem after_pause (s : Scheduler σ) (k : Nat) : (s.after k).pause = s.pause := by
  induction k with
  | zero => rfl
  | succ k ih =>
    rw [after_succ, executed_pause]
    exact ih

theorem after_dTUs (s : Scheduler σ) (k : Nat) : (s.after k).dTUs = s.dTUs := by
  induction k with
  | zero => rfl
  | succ k ih =>
    rw [after_succ, executed_dTUs]
    exact ih

theorem after_sysTickCount (s : Scheduler σ) (k : Nat) :
    (s.after k).sysTickCount = s.sysTickCount + BitVec.ofNat 64 k := by
  induction k with
  | zero => exact (BitVec.add_zero _).symm
  | succ k ih =>
    rw [after_succ, executed_sysTickCount]
    show (s.after k).sysTickCount + 1 = _
    rw [ih, BitVec.add_assoc]
    congr 1
    bv_omega

theorem after_lastExecution (s : Scheduler σ) (k j : Nat) :
    ((s.after (k + 1)).taskVet j).lastExecution =
      if (s.after k).ran = some j then s.callTime k
      else ((s.after k).taskVet j).lastExecution := by
  rw [after_succ, executed_taskVet]
  split <;> rfl

theorem after_ptrFunc (s : Scheduler σ) (k j : Nat) :
    ((s.after k).taskVet j).ptrFunc = (s.taskVet j).ptrFunc := by
  induction k with
  | zero => rfl
  | succ k ih =>
    rw [after_succ, executed_taskVet, ← ih]
    split <;> rfl

theorem after_dtUs (s : Scheduler σ) (k j : Nat) :
    ((s.after k).taskVet j).dtUs = (s.taskVet j).dtUs := by
  induction k with
  | zero => rfl
  | succ k ih =>
    rw [after_succ, executed_taskVet, ← ih]
    split <;> rfl

/-! ## Times of a window -/

theorem callTime_eq (s : Scheduler σ) (k : Nat) :
    s.callTime k = s.callTime 0 + BitVec.ofNat 64 (s.dTUs.toNat * k) := by
  have hstep : BitVec.ofNat 64 (s.dTUs.toNat * k) = s.dTUs.setWidth 64 * BitVec.ofNat 64 k := by
    rw [BitVec.ofNat_mul, BitVec.ofNat_toNat]
  show (s.after k).dTUs.setWidth 64 * ((s.after k).sysTickCount + 1) =
    s.dTUs.setWidth 64 * (s.sysTickCount + 1) + _
  rw [after_dTUs, after_sysTickCount, hstep, ← BitVec.mul_add]
  congr 1
  rw [BitVec.add_assoc, BitVec.add_assoc, BitVec.add_comm (BitVec.ofNat 64 k)]

/-- Time that passes without a wrap. -/
theorem toNat_add_sub {t u : BitVec 64} {n : Nat} (h : (t - u).toNat + n < 0x10000000000000000) :
    (t + BitVec.ofNat 64 n - u).toNat = (t - u).toNat + n := by
  bv_omega

theorem callTime_sub (s : Scheduler σ) {m k : Nat} (hmk : m ≤ k)
    (h : s.dTUs.toNat * (k - m) < 0x10000000000000000) :
    (s.callTime k - s.callTime m).toNat = s.dTUs.toNat * (k - m) := by
  have hsplit : s.dTUs.toNat * k = s.dTUs.toNat * m + s.dTUs.toNat * (k - m) := by
    rw [← Nat.mul_add, Nat.add_sub_cancel' hmk]
  have htime : s.callTime k = s.callTime m + BitVec.ofNat 64 (s.dTUs.toNat * (k - m)) := by
    rw [callTime_eq s k, callTime_eq s m, hsplit, BitVec.ofNat_add, BitVec.add_assoc]
  have hzero : (s.callTime m - s.callTime m).toNat = 0 := by rw [BitVec.sub_self]; rfl
  rw [htime, toNat_add_sub (by rw [hzero]; omega), hzero, Nat.zero_add]

/-! ## Who runs in a window -/

theorem lastExecution_waiting {j k : Nat} (h : ∀ m, m < k → (s.after m).ran ≠ some j) :
    ((s.after k).taskVet j).lastExecution = (s.taskVet j).lastExecution := by
  induction k with
  | zero => rfl
  | succ k ih =>
    rw [after_lastExecution, if_neg (h k (Nat.lt_succ_self k))]
    exact ih fun m hm => h m (Nat.lt_succ_of_lt hm)

/-- A task that ran in call `m` last ran then or later. -/
theorem lastExecution_ran {i m k : Nat} (hmk : m < k) (h : (s.after m).ran = some i) :
    ∃ n, m ≤ n ∧ n < k ∧ ((s.after k).taskVet i).lastExecution = s.callTime n := by
  induction k with
  | zero => exact absurd hmk (Nat.not_lt_zero m)
  | succ k ih =>
    rw [after_lastExecution]
    by_cases hlast : (s.after k).ran = some i
    · rw [if_pos hlast]
      exact ⟨k, Nat.le_of_lt_succ hmk, Nat.lt_succ_self k, rfl⟩
    · have hlt : m < k := by
        rcases Nat.lt_or_eq_of_le (Nat.le_of_lt_succ hmk) with hlt | rfl
        · exact hlt
        · exact absurd h hlast
      obtain ⟨n, hmn, hnk, htime⟩ := ih hlt
      rw [if_neg hlast]
      exact ⟨n, hmn, Nat.lt_succ_of_lt hnk, htime⟩

theorem due_after_iff (s : Scheduler σ) (k i : Nat) :
    (s.after k).tick.Due i = true ↔ (s.taskVet i).ptrFunc.isSome = true ∧
      (s.taskVet i).dtUs.toNat ≤
        (s.callTime k - ((s.after k).taskVet i).lastExecution).toNat := by
  have hwiden : ((s.taskVet i).dtUs.setWidth 64).toNat = (s.taskVet i).dtUs.toNat :=
    BitVec.toNat_setWidth_of_le (by decide)
  rw [Due, Bool.and_eq_true, decide_eq_true_iff, ge_iff_le, BitVec.le_def]
  show ((s.after k).taskVet i).ptrFunc.isSome = true ∧
    (((s.after k).taskVet i).dtUs.setWidth 64).toNat ≤ _ ↔ _
  rw [after_ptrFunc, after_dtUs, hwiden]
  rfl

theorem mem_occupied {i : Nat} :
    i ∈ s.occupied ↔ i < sysTaskMax ∧ (s.taskVet i).ptrFunc.isSome = true := by
  rw [occupied, Finset.mem_filter, Finset.mem_range]

theorem occupied_card_le (s : Scheduler σ) : s.occupied.card ≤ sysTaskMax := by
  have hcard := Finset.card_filter_le (Finset.range sysTaskMax)
    fun i => (s.taskVet i).ptrFunc.isSome = true
  rwa [Finset.card_range] at hcard

/-- Every period is at least as long as `n` calls. -/
def Slow (s : Scheduler σ) (n : Nat) : Prop :=
  ∀ i ∈ s.occupied, n * s.dTUs.toNat ≤ (s.taskVet i).dtUs.toNat

instance (s : Scheduler σ) (n : Nat) : Decidable (s.Slow n) :=
  inferInstanceAs (Decidable (∀ i ∈ s.occupied, _))

theorem ran_occupied {k i : Nat} (h : (s.after k).ran = some i) : i ∈ s.occupied := by
  obtain ⟨-, hlt, hdue⟩ := ran_some h
  exact mem_occupied.mpr ⟨hlt, ((due_after_iff s k i).mp hdue).1⟩

/-- No task runs twice within as many calls as its period lasts. -/
theorem ran_once {n : Nat} (hslow : s.Slow n) (hn : n ≤ sysTaskMax) {m k i : Nat} (hmk : m < k)
    (hk : k < n) (h : (s.after m).ran = some i) : (s.after k).ran ≠ some i := by
  intro hagain
  obtain ⟨l, hml, hlk, hlast⟩ := lastExecution_ran hmk h
  have hperiod := hslow i (ran_occupied hagain)
  have helapsed := ((due_after_iff s k i).mp (ran_some hagain).2.2).2
  have hword := s.dTUs.isLt
  have hcalls : s.dTUs.toNat * (k - l) < s.dTUs.toNat * n :=
    Nat.mul_lt_mul_of_pos_left (by omega) s.ticking
  have hbound : s.dTUs.toNat * n ≤ 0x100000000 * 12 := Nat.mul_le_mul (Nat.le_of_lt hword) hn
  rw [hlast, callTime_sub s (Nat.le_of_lt hlk) (by omega)] at helapsed
  rw [Nat.mul_comm] at hperiod
  omega

/-- A task that waits stays due. -/
theorem due_waiting {j : Nat} (hdue : s.tick.Due j = true) {k : Nat}
    (hclock : (s.callTime 0 - (s.taskVet j).lastExecution).toNat + s.dTUs.toNat * k <
      0x10000000000000000)
    (hwait : ∀ m, m < k → (s.after m).ran ≠ some j) : (s.after k).tick.Due j = true := by
  obtain ⟨hsome, helapsed⟩ := (due_after_iff s 0 j).mp hdue
  refine (due_after_iff s k j).mpr ⟨hsome, ?_⟩
  rw [lastExecution_waiting hwait, callTime_eq, toNat_add_sub hclock]
  exact Nat.le_trans helapsed (Nat.le_add_right _ _)

theorem exists_ran {s : Scheduler σ} (hpause : s.pause = false)
    (hslow : s.Slow s.occupied.card) {j : Nat} (hj : j < sysTaskMax) (hdue : s.tick.Due j = true)
    (hclock : (s.callTime 0 - (s.taskVet j).lastExecution).toNat +
      s.dTUs.toNat * (s.occupied.card - 1) < 0x10000000000000000) :
    ∃ k, k < s.occupied.card ∧ (s.after k).ran = some j := by
  have hmem : j ∈ s.occupied := mem_occupied.mpr ⟨hj, ((due_after_iff s 0 j).mp hdue).1⟩
  refine Turns.exists_pick (fun k => (s.after k).ran) hmem (fun k hk hwait => ?_)
    fun m k hmk hk i h => ran_once hslow s.occupied_card_le hmk hk h
  have hearlier : s.dTUs.toNat * k ≤ s.dTUs.toNat * (s.occupied.card - 1) :=
    Nat.mul_le_mul_left _ (by omega)
  have hstill := due_waiting hdue (by omega) hwait
  have hrunning : (s.after k).pause = false := by
    rw [after_pause]
    exact hpause
  obtain ⟨i, hi⟩ := ran_isSome hrunning hj hstill
  exact ⟨i, ran_occupied hi, hi⟩

/-! ## Runs before the time wraps

The time is that of the calls since SysTick was started, and no task ran in the future. -/

/-- `register` is `task_new`, which leaves the time of the slot as it is. -/
inductive Event (σ : Type)
  | sysTick
  | pause (on : Bool)
  | register (i : Nat) (t : TaskS σ)

def step (s : Scheduler σ) : Event σ → Scheduler σ
  | .sysTick => s.sysTickHandler.2
  | .pause on => { s with pause := on }
  | .register i t =>
    { s with
      taskVet := fun j => if j = i then t.stamp (s.taskVet i).lastExecution else s.taskVet j }

structure InTime (s : Scheduler σ) : Prop where
  counted : s.sysTickGetTimeUs.toNat = s.dTUs.toNat * s.sysTickCount.toNat
  past : ∀ i, (s.taskVet i).lastExecution.toNat ≤ s.sysTickGetTimeUs.toNat

def NoWrap (s : Scheduler σ) : Event σ → Prop
  | .sysTick => s.dTUs.toNat * (s.sysTickCount.toNat + 1) < 0x10000000000000000
  | _ => True

theorem tick_time (h : s.NoWrap .sysTick) :
    s.tick.sysTickGetTimeUs.toNat = s.dTUs.toNat * (s.sysTickCount.toNat + 1) ∧
      s.tick.sysTickCount.toNat = s.sysTickCount.toNat + 1 := by
  have hroom : s.dTUs.toNat * (s.sysTickCount.toNat + 1) < 0x10000000000000000 := h
  have hpos := Nat.le_mul_of_pos_left (s.sysTickCount.toNat + 1) s.ticking
  have hcount : (s.sysTickCount + 1).toNat = s.sysTickCount.toNat + 1 := by bv_omega
  have hwiden : (s.dTUs.setWidth 64).toNat = s.dTUs.toNat :=
    BitVec.toNat_setWidth_of_le (by decide)
  refine ⟨?_, hcount⟩
  show (s.dTUs.setWidth 64 * (s.sysTickCount + 1)).toNat = _
  rw [BitVec.toNat_mul, hwiden, hcount, Nat.mod_eq_of_lt hroom]

theorem InTime.sysTick (h : s.InTime) (hwrap : s.NoWrap .sysTick) : s.sysTickHandler.2.InTime := by
  obtain ⟨htime, hcount⟩ := tick_time hwrap
  have hlater : s.sysTickGetTimeUs.toNat ≤ s.tick.sysTickGetTimeUs.toNat := by
    rw [htime, h.counted]
    exact Nat.mul_le_mul_left _ (Nat.le_succ _)
  have hsame : (s.tick.executed s.ran).sysTickGetTimeUs = s.tick.sysTickGetTimeUs := by
    rw [sysTickGetTimeUs, executed_dTUs, executed_sysTickCount]
    rfl
  rw [sysTickHandler_eq]
  constructor
  · rw [hsame, executed_dTUs, executed_sysTickCount, hcount]
    exact htime
  · intro i
    rw [hsame, executed_taskVet]
    split
    · exact Nat.le_refl _
    · exact Nat.le_trans (h.past i) hlater

theorem InTime.step (s : Scheduler σ) (e : Event σ) (h : s.InTime) (hwrap : s.NoWrap e) :
    (s.step e).InTime := by
  cases e with
  | sysTick => exact h.sysTick hwrap
  | pause on => exact ⟨h.counted, h.past⟩
  | register i t =>
    refine ⟨h.counted, fun j => ?_⟩
    show (if j = i then t.stamp (s.taskVet i).lastExecution
      else s.taskVet j).lastExecution.toNat ≤ _
    split
    · exact h.past i
    · exact h.past j

/-- A window that ends before the time wraps. -/
theorem InTime.clock (h : s.InTime) {n : Nat}
    (hroom : s.dTUs.toNat * (s.sysTickCount.toNat + 1 + n) < 0x10000000000000000) (j : Nat) :
    (s.callTime 0 - (s.taskVet j).lastExecution).toNat + s.dTUs.toNat * n <
      0x10000000000000000 := by
  rw [Nat.mul_add] at hroom
  have htime : (s.callTime 0).toNat = s.dTUs.toNat * (s.sysTickCount.toNat + 1) :=
    (tick_time (show s.NoWrap .sysTick from Nat.lt_of_le_of_lt (Nat.le_add_right _ _) hroom)).1
  have hpast := h.past j
  have hlater := Nat.mul_le_mul_left s.dTUs.toNat (Nat.le_succ s.sysTickCount.toNat)
  rw [h.counted] at hpast
  have hle : (s.taskVet j).lastExecution ≤ s.callTime 0 := by
    rw [BitVec.le_def, htime]
    exact Nat.le_trans hpast hlater
  rw [BitVec.toNat_sub_of_le hle, htime]
  omega

/-- In every run from power up, a due task runs within a window that ends before the
time wraps, which takes 584 thousand years at 500 microseconds a call. -/
theorem run_ran_within {s₀ : Scheduler σ} (hcount : s₀.sysTickCount = 0)
    (hlast : ∀ i, (s₀.taskVet i).lastExecution = 0) {es : List (Event σ)}
    (hwrap : Run.Each step NoWrap s₀ es) :
    Run.Always step
      (fun s => s.dTUs.toNat * (s.sysTickCount.toNat + 1 + (s.occupied.card - 1)) <
          0x10000000000000000 → s.pause = false → s.Slow s.occupied.card → ∀ j, j < sysTaskMax → s.tick.Due j = true →
          ∃ k, k < s.occupied.card ∧ (s.after k).ran = some j) s₀ es := by
  have hstart : s₀.InTime := by
    have htime : s₀.sysTickGetTimeUs = 0 := by
      rw [sysTickGetTimeUs, hcount]
      exact BitVec.mul_zero
    refine ⟨?_, fun i => ?_⟩
    · rw [htime, hcount]
      rfl
    · rw [hlast]
      exact Nat.zero_le _
  refine (Run.Always.of_step InTime.step hstart hwrap).mono
    fun s h hroom hpause hslow j hj hdue => ?_
  exact exists_ran hpause hslow hj hdue (h.clock hroom j)

/-! ## Every task due gets its turn -/

/-- With `N` tasks whose periods last `N` calls, a task due at the first of `N` calls
runs in one of them, if the time since it last ran fits 64 bits in the last of them. -/
theorem ran_within {s : Scheduler σ} (hpause : s.pause = false)
    (hslow : s.Slow s.occupied.card) {j : Nat} (hj : j < sysTaskMax) (hdue : s.tick.Due j = true)
    (hclock : (s.callTime 0 - (s.taskVet j).lastExecution).toNat +
      s.dTUs.toNat * (s.occupied.card - 1) < 0x10000000000000000) :
    ∃ k, k < s.occupied.card ∧ (s.after k).sysTickHandler.1 = some j := by
  obtain ⟨k, hk, hran⟩ := exists_ran hpause hslow hj hdue hclock
  refine ⟨k, hk, ?_⟩
  rw [sysTickHandler_eq]
  exact hran

def idleTask : TaskS Unit where
  ptrFunc := some fun _ memory => memory
  lastExecution := 0
  dtUs := 1000
  priority := 0
  ptrData := 0

def noTask : TaskS Unit := { idleTask with ptrFunc := none }

/-- Two tasks that have not run yet, after `count` calls. -/
def twoTasks (count : BitVec 64) : Scheduler Unit where
  sysTickCount := count
  dTUs := 500
  ticking := dTUs_pos
  pause := false
  taskVet := fun i => if i < 2 then idleTask else noTask
  memory := ()

/-- Both are due in the last call before the time wraps; after the wrap the second is
due no more. -/
theorem ran_within_fails :
    ¬ ∀ s : Scheduler Unit, s.pause = false → s.Slow s.occupied.card →
      ∀ j, j < sysTaskMax → s.tick.Due j = true →
        ∃ k, k < s.occupied.card ∧ (s.after k).sysTickHandler.1 = some j := by
  intro hall
  have hcard : (twoTasks 36893488147419102).occupied.card = 2 := by decide
  have hslow : (twoTasks 36893488147419102).Slow (twoTasks 36893488147419102).occupied.card := by
    decide
  obtain ⟨k, hk, hran⟩ := hall (twoTasks 36893488147419102) rfl hslow 1 (by decide) (by decide)
  rw [hcard] at hk
  obtain rfl | rfl : k = 0 ∨ k = 1 := by omega
  · exact absurd hran (by decide)
  · exact absurd hran (by decide)

theorem ran_within_two :
    ∃ k, k < (twoTasks 10).occupied.card ∧ ((twoTasks 10).after k).sysTickHandler.1 = some 1 :=
  ran_within rfl (by decide) (by decide) (by decide) (by decide)

end Scheduler

end Task
end Recirculador
