/-
No task runs more often than its frequency.

The scheduler counts the period of a slot from the last run, so two runs of a slot are never
closer together, whatever else happens between the calls of the handler: the scheduler is
paused, tasks are registered, the functions of other slots run or the memory changes.  How
often a task runs in a stretch of time is then bounded by its length.
-/
import Recirculador.Common.Run
import Recirculador.Task.Starvation

/-! ## Numbers that keep a distance -/

namespace Spacing

/-- The numbers fall, and `rate` times the way from one to another is `gap` at least. -/
def Spaced (rate gap : Nat) (l : List Nat) : Prop :=
  l.Pairwise fun later earlier => earlier < later ∧ gap ≤ rate * (later - earlier)

variable {rate gap : Nat}

/-- One more number, far enough from the last. -/
theorem Spaced.cons {n : Nat} {l : List Nat} (h : Spaced rate gap l)
    (hlast : ∀ m, l.head? = some m → m < n ∧ gap ≤ rate * (n - m)) : Spaced rate gap (n :: l) := by
  refine List.pairwise_cons.mpr ⟨fun k hk => ?_, h⟩
  cases l with
  | nil => exact nomatch hk
  | cons m l =>
    obtain ⟨hlt, hgap⟩ := hlast m rfl
    rcases List.mem_cons.mp hk with rfl | hk
    · exact ⟨hlt, hgap⟩
    · obtain ⟨hkm, -⟩ := (List.pairwise_cons.mp h).1 k hk
      exact ⟨Nat.lt_trans hkm hlt,
        Nat.le_trans hgap (Nat.mul_le_mul_left rate (by omega))⟩

/-- From the first of so many numbers on, each takes its gap. -/
theorem Spaced.length_head {first n : Nat} {l : List Nat} (h : Spaced rate gap (n :: l))
    (hfirst : ∀ m ∈ n :: l, first ≤ m) : l.length * gap ≤ rate * (n - first) := by
  induction l generalizing n with
  | nil => exact (Nat.zero_mul gap).symm ▸ Nat.zero_le _
  | cons m l ih =>
    obtain ⟨hnext, hrest⟩ := List.pairwise_cons.mp h
    obtain ⟨hlt, hgap⟩ := hnext m List.mem_cons_self
    have hle : first ≤ m := hfirst m (List.mem_cons_of_mem n List.mem_cons_self)
    have hway : n - first = (m - first) + (n - m) := by omega
    calc (m :: l).length * gap = l.length * gap + gap := Nat.succ_mul _ _
      _ ≤ rate * (m - first) + rate * (n - m) :=
        Nat.add_le_add (ih hrest fun k hk => hfirst k (List.mem_cons_of_mem n hk)) hgap
      _ = rate * (n - first) := by rw [hway, Nat.mul_add]

/-- How many of the numbers fit into a window. -/
theorem Spaced.count_le {l : List Nat} (h : Spaced rate gap l) (first width : Nat) :
    ((l.filter fun n => first ≤ n && n ≤ first + width).length - 1) * gap ≤ rate * width := by
  have hwindow := List.Pairwise.filter (fun n => first ≤ n && n ≤ first + width) h
  have hin : ∀ m ∈ l.filter fun n => first ≤ n && n ≤ first + width,
      first ≤ m ∧ m ≤ first + width := fun m hm => by simpa using (List.mem_filter.mp hm).2
  cases hl : l.filter fun n => first ≤ n && n ≤ first + width with
  | nil => exact (Nat.zero_mul gap).symm ▸ Nat.zero_le _
  | cons n l' =>
    rw [hl] at hwindow hin
    have hlength := Spaced.length_head hwindow fun m hm => (hin m hm).1
    have hhead := (hin n List.mem_cons_self).2
    rw [List.length_cons, Nat.add_sub_cancel]
    exact Nat.le_trans hlength (Nat.mul_le_mul_left rate (by omega))

end Spacing

namespace Recirculador
namespace Task

open Scheduler Spacing

/-! ## The log of a slot -/

/-- The scheduler, how often the handler was called, and the calls slot `k` ran in, the latest
first. -/
structure Logged (σ : Type) where
  sched : Scheduler σ
  calls : Nat
  runs : List Nat

inductive LogEvent (σ : Type)
  | sysTick
  | pause (on : Bool)
  | others (taskVet : Nat → TaskS σ)
  | memory (memory : σ)

namespace Logged

variable {σ : Type}

def sysTick (k : Nat) (l : Logged σ) : Logged σ :=
  let result := l.sched.sysTickHandler
  { sched := result.2
    calls := l.calls + 1
    runs := if result.1 = some k then (l.calls + 1) :: l.runs else l.runs }

/-- Between the calls everything but slot `k` may change. -/
def step (k : Nat) (l : Logged σ) : LogEvent σ → Logged σ
  | .sysTick => l.sysTick k
  | .pause on => { l with sched := { l.sched with pause := on } }
  | .others taskVet =>
    { l with sched := { l.sched with
        taskVet := fun j => if j = k then l.sched.taskVet k else taskVet j } }
  | .memory memory => { l with sched := { l.sched with memory } }

/-- Before the first call. -/
def start (s : Scheduler σ) : Logged σ := { sched := s, calls := 0, runs := [] }

/-- Runs of the slot are a period apart, and a window of time holds no more of them than
periods, and one. -/
def Limited (k : Nat) (l : Logged σ) : Prop :=
  Spaced l.sched.dTUs.toNat (l.sched.taskVet k).dtUs.toNat l.runs ∧
    ∀ first width,
      ((l.runs.filter fun n => first ≤ n && n ≤ first + width).length - 1) *
        (l.sched.taskVet k).dtUs.toNat ≤ l.sched.dTUs.toNat * width

/-- The slot remembers the time of its last run. -/
structure Inv (k : Nat) (l : Logged σ) : Prop where
  spaced : Spaced l.sched.dTUs.toNat (l.sched.taskVet k).dtUs.toNat l.runs
  past : ∀ n, l.runs.head? = some n → n ≤ l.calls
  time : ∀ n, l.runs.head? = some n →
    l.sched.sysTickGetTimeUs - (l.sched.taskVet k).lastExecution =
      BitVec.ofNat 64 (l.sched.dTUs.toNat * (l.calls - n))

variable {k : Nat} {l : Logged σ}

theorem Inv.limited (h : Inv k l) : Limited k l := ⟨h.spaced, h.spaced.count_le⟩

/-- What changes between two calls is not in the log. -/
theorem Inv.world (h : Inv k l) {s : Scheduler σ} (hdTUs : s.dTUs = l.sched.dTUs)
    (hcount : s.sysTickCount = l.sched.sysTickCount)
    (hslot : s.taskVet k = l.sched.taskVet k) : Inv k { l with sched := s } := by
  have htime : s.sysTickGetTimeUs = l.sched.sysTickGetTimeUs := by
    rw [sysTickGetTimeUs, sysTickGetTimeUs, hdTUs, hcount]
  refine ⟨?_, h.past, fun n hn => ?_⟩
  · show Spaced s.dTUs.toNat (s.taskVet k).dtUs.toNat l.runs
    rw [hdTUs, hslot]
    exact h.spaced
  · show s.sysTickGetTimeUs - (s.taskVet k).lastExecution =
      BitVec.ofNat 64 (s.dTUs.toNat * (l.calls - n))
    rw [htime, hslot, hdTUs]
    exact h.time n hn

/-- The age of the last run one call later. -/
theorem Inv.tick_time (h : Inv k l) {n : Nat} (hn : l.runs.head? = some n) :
    l.sched.tick.sysTickGetTimeUs - (l.sched.taskVet k).lastExecution =
      BitVec.ofNat 64 (l.sched.dTUs.toNat * (l.calls + 1 - n)) := by
  have htime := h.time n hn
  have hsucc : l.calls + 1 - n = (l.calls - n) + 1 := by
    have hpast := h.past n hn
    omega
  have htick : l.sched.tick.sysTickGetTimeUs =
      l.sched.sysTickGetTimeUs + BitVec.ofNat 64 l.sched.dTUs.toNat := by
    show l.sched.dTUs.setWidth 64 * (l.sched.sysTickCount + 1) =
      l.sched.dTUs.setWidth 64 * l.sched.sysTickCount + _
    rw [BitVec.mul_add, BitVec.ofNat_toNat]
    simp
  rw [htick, hsucc, Nat.mul_add, Nat.mul_one, BitVec.ofNat_add, ← htime, BitVec.sub_eq_add_neg,
    BitVec.sub_eq_add_neg, BitVec.add_assoc, BitVec.add_assoc,
    BitVec.add_comm (BitVec.ofNat 64 _) (-_)]

/-- A slot that is found due waited for its period: the time may have wrapped, but that makes
the age come out smaller. -/
theorem Inv.due (h : Inv k l) {n : Nat} (hn : l.runs.head? = some n)
    (hdue : l.sched.tick.Due k = true) :
    (l.sched.taskVet k).dtUs.toNat ≤ l.sched.dTUs.toNat * (l.calls + 1 - n) := by
  have hage : (l.sched.taskVet k).dtUs.setWidth 64 ≤
      l.sched.tick.sysTickGetTimeUs - (l.sched.taskVet k).lastExecution := by
    have hboth := Bool.and_eq_true_iff.mp hdue
    exact of_decide_eq_true hboth.2
  have hle := BitVec.le_def.mp hage
  rw [h.tick_time hn, BitVec.toNat_setWidth_of_le (by decide), BitVec.toNat_ofNat] at hle
  exact Nat.le_trans hle (Nat.mod_le _ _)

theorem sched_sysTick (k : Nat) (l : Logged σ) :
    (l.sysTick k).sched = l.sched.tick.executed l.sched.ran := by
  rw [sysTick, sysTickHandler_eq]

theorem runs_sysTick (k : Nat) (l : Logged σ) : (l.sysTick k).runs =
    if l.sched.ran = some k then (l.calls + 1) :: l.runs else l.runs := by
  rw [sysTick, sysTickHandler_eq]

theorem Inv.sysTick (h : Inv k l) : Inv k (l.sysTick k) := by
  have hdTUs : (l.sysTick k).sched.dTUs = l.sched.dTUs := by
    rw [sched_sysTick, executed_dTUs]
    rfl
  have htime : (l.sysTick k).sched.sysTickGetTimeUs = l.sched.tick.sysTickGetTimeUs := by
    rw [sched_sysTick, sysTickGetTimeUs, executed_dTUs, executed_sysTickCount]
    rfl
  have hslot : (l.sysTick k).sched.taskVet k = if l.sched.ran = some k then
      (l.sched.taskVet k).stamp l.sched.tick.sysTickGetTimeUs else l.sched.taskVet k := by
    rw [sched_sysTick, executed_taskVet]
    rfl
  have hruns := runs_sysTick k l
  have hcalls : (l.sysTick k).calls = l.calls + 1 := rfl
  by_cases hran : l.sched.ran = some k
  · obtain ⟨-, -, hdue⟩ := ran_some hran
    rw [if_pos hran] at hslot hruns
    have hperiod : ((l.sysTick k).sched.taskVet k).dtUs = (l.sched.taskVet k).dtUs := by
      rw [hslot]
      rfl
    refine ⟨?_, fun n hn => ?_, fun n hn => ?_⟩
    · rw [hdTUs, hperiod, hruns]
      refine h.spaced.cons fun n hn => ⟨?_, h.due hn hdue⟩
      exact Nat.lt_succ_of_le (h.past n hn)
    · rw [hruns] at hn
      rw [hcalls, ← Option.some.inj hn]
    · rw [hruns] at hn
      have hnow : (l.sysTick k).calls - n = 0 := by
        rw [hcalls, ← Option.some.inj hn]
        exact Nat.sub_self _
      rw [hnow, htime, hslot]
      show l.sched.tick.sysTickGetTimeUs - l.sched.tick.sysTickGetTimeUs = _
      rw [BitVec.sub_self, Nat.mul_zero]
  · rw [if_neg hran] at hslot hruns
    refine ⟨?_, fun n hn => ?_, fun n hn => ?_⟩
    · rw [hdTUs, hslot, hruns]
      exact h.spaced
    · rw [hruns] at hn
      exact Nat.le_succ_of_le (h.past n hn)
    · rw [hruns] at hn
      rw [htime, hslot, hdTUs, hcalls]
      exact h.tick_time hn

theorem step_inv (k : Nat) (l : Logged σ) (e : LogEvent σ) (h : Inv k l) : Inv k (l.step k e) := by
  cases e with
  | sysTick => exact h.sysTick
  | pause on => exact h.world rfl rfl rfl
  | others taskVet => exact h.world rfl rfl (if_pos rfl)
  | memory memory => exact h.world rfl rfl rfl

/-- From any scheduler on, whatever the table holds, no slot runs more often than its period
lets it. -/
theorem run_rateLimited (k : Nat) (s : Scheduler σ) (es : List (LogEvent σ)) :
    Run.Always (step k) (Limited k) (start s) es := by
  have hstart : Inv k (start s) := ⟨List.Pairwise.nil, nofun, nofun⟩
  exact (Run.Always.of_invariant (step_inv k) hstart es).mono fun _ => Inv.limited

end Logged

end Task
end Recirculador
