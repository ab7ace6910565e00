/-
Registering tasks while others run.

Once the first task has started SysTick, its handler may come between any two statements of
`task_new`.  The call stores the function first, and from then on the slot counts as taken:
a handler that gets to it before the last store runs a task whose period, priority and
argument are still those of an empty slot.
-/
import Recirculador.Common.Run
import Recirculador.Task.Register

namespace Recirculador
namespace Task

variable {σ : Type}

/-! ## `task_new`, statement by statement -/

/-- The statement of `task_new` to come.  Nothing is said of what follows `undefined`. -/
inductive Statement
  | idle
  | init
  | search
  | ptrFunc
  | dtUs
  | priority
  | ptrData
  | name
  | count
  | scheduler
  | undefined
  deriving DecidableEq

/-- The stores after that of the function. -/
def settingStores : List Statement := [.dtUs, .priority, .ptrData]

structure Registration (σ : Type) where
  table : TaskTable σ
  next : Statement
  call : TaskCall σ
  ptrAux : Option Nat

namespace Registration

def start (t : TaskTable σ) (c : TaskCall σ) : Registration σ :=
  { table := t, next := .init, call := c, ptrAux := none }

def lose (r : Registration σ) : Registration σ := { r with next := .undefined }

/-- A store through `ptrAux`. -/
def store (f : Nat → TaskTable σ → TaskTable σ) (next : Statement) (r : Registration σ) :
    Registration σ :=
  match r.ptrAux with
  | none => r.lose
  | some i => { r with table := f i r.table, next }

def statement (r : Registration σ) : Registration σ :=
  match r.next with
  | .idle => r
  | .init => { r with table := r.table.prepare, next := .search }
  | .search => { r with ptrAux := r.table.freeSlot, next := .ptrFunc }
  | .ptrFunc =>
    r.store (fun i t => t.update i fun task => { task with ptrFunc := r.call.ptrFunc }) .dtUs
  | .dtUs =>
    match periodUs r.call.frequency with
    | none => r.lose
    | some dtUs => r.store (fun i t => t.update i fun task => { task with dtUs }) .priority
  | .priority =>
    r.store (fun i t => t.update i fun task => { task with priority := r.call.priority }) .ptrData
  | .ptrData =>
    r.store (fun i t => t.update i fun task => { task with ptrData := r.call.arg }) .name
  | .name => r.store (fun i t => t.rename i r.call.taskName) .count
  | .count =>
    { r with table := { r.table with tasksOn := r.table.tasksOn + 0b10 }, next := .scheduler }
  | .scheduler => { r with table := { r.table with schedulerOn := true }, next := .idle }
  | .undefined => r

def statements : Nat → Registration σ → Registration σ
  | 0, r => r
  | n + 1, r => statements n r.statement

/-- Left alone, the statements compute `task_new`. -/
theorem statements_taskNew (t : TaskTable σ) (c : TaskCall σ) :
    match t.taskNew c with
    | some t' => (statements 9 (start t c)).table = t' ∧ (statements 9 (start t c)).next = .idle
    | none => (statements 9 (start t c)).next = .undefined := by
  cases hfree : t.prepare.freeSlot with
  | none => simp [TaskTable.taskNew, hfree, statements, statement, start, store, lose]
  | some i =>
    cases hperiod : periodUs c.frequency with
    | none => simp [TaskTable.taskNew, hfree, hperiod, statements, statement, start, store, lose]
    | some dtUs => simp [TaskTable.taskNew, hfree, hperiod, statements, statement, start, store]

theorem store_none {r : Registration σ} (h : r.ptrAux = none)
    (f : Nat → TaskTable σ → TaskTable σ) (next : Statement) : r.store f next = r.lose := by
  simp only [store, h]

theorem store_some {r : Registration σ} {i : Nat} (h : r.ptrAux = some i)
    (f : Nat → TaskTable σ → TaskTable σ) (next : Statement) :
    r.store f next = { r with table := f i r.table, next } := by
  simp only [store, h]

end Registration

/-! ## Runs with the handler between the statements -/

/-- What a call sets besides the function. -/
structure Settings where
  dtUs : BitVec 32
  priority : BitVec 8
  ptrData : BitVec 32

def TaskS.settings (t : TaskS σ) : Settings := ⟨t.dtUs, t.priority, t.ptrData⟩

def TaskCall.settings (c : TaskCall σ) : Settings := ⟨1000000 / c.frequency, c.priority, c.arg⟩

/-- The scheduler with a registration in progress. -/
structure Preempted (σ : Type) where
  registration : Registration σ
  sysTickCount : BitVec 64
  dTUs : BitVec 32
  /-- SysTick was started. -/
  ticking : 0 < dTUs.toNat
  pause : Bool
  memory : σ
  /-- The settings of the call that registered a slot. -/
  given : Nat → Settings

inductive RegisterAction (σ : Type)
  | call (c : TaskCall σ)
  | statement
  | sysTick

namespace Preempted

def table (s : Preempted σ) : TaskTable σ := s.registration.table

def scheduler (s : Preempted σ) : Scheduler σ :=
  { sysTickCount := s.sysTickCount, dTUs := s.dTUs, ticking := s.ticking, pause := s.pause,
    taskVet := s.table.taskVet, memory := s.memory }

def Live (s : Preempted σ) : Prop :=
  s.table.schedulerOn = true ∧ s.registration.next ≠ .undefined

instance (s : Preempted σ) : Decidable s.Live := inferInstanceAs (Decidable (_ ∧ _))

/-- The slot the call stores its function in is from then on registered by it. -/
def recordGiven (s : Preempted σ) (i : Nat) : Settings :=
  if s.registration.next = .ptrFunc ∧ s.registration.ptrAux = some i then
    s.registration.call.settings
  else s.given i

def sysTick (s : Preempted σ) : Preempted σ :=
  let s' := s.scheduler.sysTickHandler.2
  { s with
    registration := { s.registration with table := { s.table with taskVet := s'.taskVet } }
    sysTickCount := s'.sysTickCount
    memory := s'.memory }

def step (s : Preempted σ) : RegisterAction σ → Preempted σ
  | .call c =>
    if s.registration.next = .idle then { s with registration := .start s.table c } else s
  | .statement => { s with registration := s.registration.statement, given := s.recordGiven }
  | .sysTick => if s.Live then s.sysTick else s

/-- A scheduler that runs, between two calls of `task_new`. -/
def started (s : Scheduler σ) (tasksOn : BitVec 32) (taskName : Nat → Nat → BitVec 8) :
    Preempted σ where
  registration :=
    { table := { tasksOn, schedulerOn := true, taskVet := s.taskVet, taskName }
      next := .idle
      call := { ptrFunc := none, taskName := fun _ => 0, frequency := 0, priority := 0, arg := 0 }
      ptrAux := none }
  sysTickCount := s.sysTickCount
  dTUs := s.dTUs
  ticking := s.ticking
  pause := s.pause
  memory := s.memory
  given := fun i => (s.taskVet i).settings

/-- The handler runs a slot only with the settings it was registered with. -/
def RunsRegistered (s : Preempted σ) : RegisterAction σ → Prop
  | .sysTick => s.Live → ∀ i, s.scheduler.sysTickHandler.1 = some i →
      (s.table.taskVet i).settings = s.given i
  | .call _ => True
  | .statement => True

/-- The handler gets as far as slot `i`. -/
def Reached (s : Preempted σ) (i : Nat) : Prop :=
  s.pause = false ∧ s.scheduler.tick.Due i = true ∧ ∀ j, j < i → s.scheduler.tick.Due j = false

/-- The slot is between its first store and its last. -/
def Filling (s : Preempted σ) (i : Nat) : Prop :=
  s.registration.ptrAux = some i ∧ s.registration.next ∈ settingStores

/-- No slot a handler gets to is being filled and yet to get some other value. -/
def Sheltered (s : Preempted σ) : RegisterAction σ → Prop
  | .sysTick => s.Live → ¬ ∃ i, s.Filling i ∧ s.Reached i ∧
      (s.table.taskVet i).settings ≠ s.registration.call.settings
  | .call _ => True
  | .statement => True

/-- The call has stored its function and not all of the settings. -/
def Unfinished (s : Preempted σ) (i : Nat) : Prop :=
  s.registration.ptrAux = some i ∧
    (s.registration.next ∈ settingStores ∨ s.registration.next = .undefined)

structure Invariant (s : Preempted σ) : Prop where
  slot : ∀ i, s.registration.ptrAux = some i → i < sysTaskMax
  settled : ∀ i, (s.table.taskVet i).ptrFunc ≠ none → ¬ s.Unfinished i →
    (s.table.taskVet i).settings = s.given i
  given : ∀ i, s.Unfinished i → s.given i = s.registration.call.settings
  dtUs : ∀ i, s.registration.ptrAux = some i →
    s.registration.next = .priority ∨ s.registration.next = .ptrData →
    (s.table.taskVet i).dtUs = s.registration.call.settings.dtUs
  priority : ∀ i, s.registration.ptrAux = some i → s.registration.next = .ptrData →
    (s.table.taskVet i).priority = s.registration.call.priority

variable {s : Preempted σ} {i : Nat}

/-! ## The handler -/

theorem ran_iff (s : Preempted σ) (i : Nat) :
    s.scheduler.sysTickHandler.1 = some i ↔ i < sysTaskMax ∧ s.Reached i := by
  rw [Scheduler.sysTickHandler_eq, Scheduler.ran, Reached]
  show (if s.pause = true then none else _) = some i ↔ _
  cases s.pause with
  | true => exact iff_of_false (Option.some_ne_none i).symm fun h => Bool.noConfusion h.2.1
  | false =>
    rw [if_neg Bool.false_ne_true, List.find?_range_eq_some, List.mem_range]
    constructor
    · rintro ⟨hdue, hi, hbefore⟩
      exact ⟨hi, rfl, hdue, fun j hj => by simpa using hbefore j hj⟩
    · rintro ⟨hi, -, hdue, hbefore⟩
      exact ⟨hdue, hi, fun j hj => by simpa using hbefore j hj⟩

/-- The handler stamps a slot and changes nothing else in the table. -/
theorem sysTick_slot (s : Preempted σ) (i : Nat) :
    (s.sysTick.table.taskVet i).ptrFunc = (s.table.taskVet i).ptrFunc ∧
      (s.sysTick.table.taskVet i).settings = (s.table.taskVet i).settings := by
  have hexecuted : s.scheduler.sysTickHandler.2 =
      s.scheduler.tick.executed s.scheduler.ran := by
    rw [Scheduler.sysTickHandler_eq]
  show (s.scheduler.sysTickHandler.2.taskVet i).ptrFunc = _ ∧
    (s.scheduler.sysTickHandler.2.taskVet i).settings = _
  rw [hexecuted]
  cases s.scheduler.ran with
  | none => exact ⟨rfl, rfl⟩
  | some k =>
    show (if i = k then _ else s.table.taskVet i).ptrFunc = _ ∧
      (if i = k then _ else s.table.taskVet i).settings = _
    split
    · rename_i hi
      rw [hi]
      exact ⟨rfl, rfl⟩
    · exact ⟨rfl, rfl⟩

theorem runsRegistered_iff_sheltered (s : Preempted σ) (a : RegisterAction σ) (h : s.Invariant) :
    s.RunsRegistered a ↔ s.Sheltered a := by
  cases a with
  | call c => exact Iff.rfl
  | statement => exact Iff.rfl
  | sysTick =>
    constructor
    · rintro hruns hlive ⟨i, ⟨hptr, hnext⟩, hreached, hdiffer⟩
      have hunfinished : s.Unfinished i := ⟨hptr, Or.inl hnext⟩
      have hran := (ran_iff s i).mpr ⟨h.slot i hptr, hreached⟩
      exact hdiffer ((hruns hlive i hran).trans (h.given i hunfinished))
    · intro hsheltered hlive i hran
      obtain ⟨-, hreached⟩ := (ran_iff s i).mp hran
      by_cases hunfinished : s.Unfinished i
      · rw [h.given i hunfinished]
        have hfilling : s.Filling i := ⟨hunfinished.1, hunfinished.2.resolve_right hlive.2⟩
        exact Classical.byContradiction fun hdiffer =>
          hsheltered hlive ⟨i, hfilling, hreached, hdiffer⟩
      · refine h.settled i ?_ hunfinished
        have hdue := hreached.2.1
        rw [Scheduler.Due, Bool.and_eq_true] at hdue
        exact Option.isSome_iff_ne_none.mp hdue.1

/-! ## What the statements keep -/

theorem Invariant.sysTick (h : s.Invariant) : s.sysTick.Invariant := by
  refine ⟨h.slot, fun i hfunc hdone => ?_, h.given, fun i hptr hnext => ?_, fun i hptr hnext => ?_⟩
  · rw [(sysTick_slot s i).2]
    rw [(sysTick_slot s i).1] at hfunc
    exact h.settled i hfunc hdone
  · exact (congrArg Settings.dtUs (sysTick_slot s i).2).trans (h.dtUs i hptr hnext)
  · exact (congrArg Settings.priority (sysTick_slot s i).2).trans (h.priority i hptr hnext)

/-- A statement that leaves no slot unfinished and starts from none. -/
theorem Invariant.calm (h : s.Invariant) {r : Registration σ} {next : Statement}
    (hnow : ∀ i, ¬ s.Unfinished i)
    (htable : ∀ i, (r.table.taskVet i).ptrFunc ≠ none → r.table.taskVet i = s.table.taskVet i)
    (hslot : ∀ i, r.ptrAux = some i → i < sysTaskMax) (hr : r.next = next)
    (hnext : r.ptrAux = none ∨ ¬ (next ∈ settingStores ∨ next = .undefined)) :
    Invariant { s with registration := r } := by
  subst hr
  have hdone : ∀ i, r.ptrAux = some i → ¬ (r.next ∈ settingStores ∨ r.next = .undefined) := by
    intro i hptr
    exact hnext.resolve_left fun hnone => Option.some_ne_none i (hptr.symm.trans hnone)
  refine ⟨hslot, fun i hfunc _ => ?_, fun i hin => absurd hin.2 (hdone i hin.1),
    fun i hptr hin => ?_, fun i hptr hin => ?_⟩
  · have hsame := htable i hfunc
    have hfunc : (s.table.taskVet i).ptrFunc ≠ none := hsame ▸ hfunc
    show (r.table.taskVet i).settings = s.given i
    rw [hsame]
    exact h.settled i hfunc (hnow i)
  · refine absurd (Or.inl ?_) (hdone i hptr)
    rcases hin with hin | hin <;> · rw [hin]; decide
  · refine absurd (Or.inl ?_) (hdone i hptr)
    rw [hin]
    decide

theorem recordGiven_eq (hnext : s.registration.next ≠ .ptrFunc) : s.recordGiven = s.given := by
  funext i
  exact if_neg fun h => hnext h.1

/-- A store in the slot of the call, with the settings it completes or leaves to come. -/
theorem Invariant.fill (h : s.Invariant) (hptr : s.registration.ptrAux = some i)
    {f : TaskS σ → TaskS σ} {next : Statement} {given : Nat → Settings}
    (hgiven : given i = s.registration.call.settings) (hothers : ∀ j, j ≠ i → given j = s.given j)
    (hdone : next ∈ settingStores ∨
      (f (s.table.taskVet i)).settings = s.registration.call.settings)
    (hdtUs : next = .priority ∨ next = .ptrData →
      (f (s.table.taskVet i)).dtUs = s.registration.call.settings.dtUs)
    (hpriority : next = .ptrData →
      (f (s.table.taskVet i)).priority = s.registration.call.priority) :
    Invariant { s with
      registration := s.registration.store (fun i t => t.update i f) next
      given } := by
  have hself : (s.table.update i f).taskVet i = f (s.table.taskVet i) := if_pos rfl
  have honly : ∀ j, s.registration.ptrAux = some j → j = i := fun j hj =>
    Option.some.inj (hj.symm.trans hptr)
  rw [Registration.store_some hptr]
  refine ⟨h.slot, fun j hfunc hfinished => ?_, fun j hin => ?_, fun j hj hnext => ?_,
    fun j hj hnext => ?_⟩
  · show ((s.table.update i f).taskVet j).settings = given j
    by_cases he : j = i
    · subst he
      rcases hdone with hin | hdone
      · exact absurd ⟨hptr, Or.inl hin⟩ hfinished
      · rw [hself, hdone, hgiven]
    · have hsame : (s.table.update i f).taskVet j = s.table.taskVet j := if_neg he
      have hfunc : ((s.table.update i f).taskVet j).ptrFunc ≠ none := hfunc
      rw [hsame] at hfunc ⊢
      rw [hothers j he]
      exact h.settled j hfunc fun hin => he (honly j hin.1)
  · rw [honly j hin.1]
    exact hgiven
  · rw [honly j hj]
    exact (congrArg TaskS.dtUs hself).trans (hdtUs hnext)
  · rw [honly j hj]
    exact (congrArg TaskS.priority hself).trans (hpriority hnext)

/-- After that the table is not looked at any more. -/
theorem Invariant.lose (h : s.Invariant) (hnext : s.registration.ptrAux = none ∨
    s.registration.next ∈ settingStores) :
    Invariant { s with registration := s.registration.lose } := by
  refine ⟨h.slot, fun j hfunc hfinished => ?_, fun j hin => ?_, fun j hj hin => ?_,
    fun j hj hin => ?_⟩
  · exact h.settled j hfunc fun hin => hfinished ⟨hin.1, Or.inr rfl⟩
  · refine h.given j ⟨hin.1, Or.inl (hnext.resolve_left fun hnone => ?_)⟩
    exact Option.some_ne_none j (hin.1.symm.trans hnone)
  · rcases hin with hin | hin <;> exact absurd hin (by simp [Registration.lose])
  · exact absurd hin (by simp [Registration.lose])

theorem Invariant.storeFunc (h : s.Invariant) (hnext : s.registration.next = .ptrFunc) :
    (s.step .statement).Invariant := by
  show Invariant { s with registration := s.registration.statement, given := s.recordGiven }
  simp only [Registration.statement, hnext]
  rcases hptr : s.registration.ptrAux with _ | i
  · have hsame : s.recordGiven = s.given := by
      funext j
      exact if_neg fun hj => Option.some_ne_none j (hj.2.symm.trans hptr)
    rw [hsame, Registration.store_none hptr]
    exact h.lose (Or.inl hptr)
  · refine h.fill hptr (if_pos ⟨hnext, hptr⟩) (fun j hj => if_neg fun hin => ?_)
      (Or.inl (by decide)) (fun hin => ?_) fun hin => ?_
    · exact hj (Option.some.inj (hin.2.symm.trans hptr))
    · rcases hin with hin | hin <;> exact absurd hin (by decide)
    · exact absurd hin (by decide)

/-- The stores of the settings, in their order. -/
theorem Invariant.storeSetting (h : s.Invariant) (hnext : s.registration.next ∈ settingStores) :
    (s.step .statement).Invariant := by
  have hgiven : s.recordGiven = s.given := recordGiven_eq fun hfunc => by
    rw [hfunc] at hnext
    exact absurd hnext (by decide)
  show Invariant { s with registration := s.registration.statement, given := s.recordGiven }
  rw [hgiven]
  rcases hptr : s.registration.ptrAux with _ | i
  · have hlost : s.registration.statement = s.registration.lose := by
      simp only [settingStores, List.mem_cons, List.not_mem_nil, or_false] at hnext
      rcases hnext with hnext | hnext | hnext
      · simp only [Registration.statement, hnext, Registration.store_none hptr]
        split <;> rfl
      · simp only [Registration.statement, hnext, Registration.store_none hptr]
      · simp only [Registration.statement, hnext, Registration.store_none hptr]
    rw [hlost]
    exact h.lose (Or.inl hptr)
  have hcall := h.given i ⟨hptr, Or.inl hnext⟩
  have hdtUs := h.dtUs i hptr
  have hpriority := h.priority i hptr
  have hstores := hnext
  simp only [settingStores, List.mem_cons, List.not_mem_nil, or_false] at hnext
  rcases hnext with hnext | hnext | hnext
  · simp only [Registration.statement, hnext]
    split
    · exact h.lose (Or.inr hstores)
    · rename_i dtUs hperiod
      refine h.fill hptr hcall (fun _ _ => rfl) (Or.inl (by decide)) (fun _ => ?_) fun hin => ?_
      · rw [periodUs] at hperiod
        split at hperiod
        · exact absurd hperiod (Option.some_ne_none dtUs).symm
        · exact (Option.some.inj hperiod).symm
      · exact absurd hin (by decide)
  · simp only [Registration.statement, hnext]
    exact h.fill hptr hcall (fun _ _ => rfl) (Or.inl (by decide)) (fun _ => hdtUs (Or.inl hnext))
      fun _ => rfl
  · simp only [Registration.statement, hnext]
    refine h.fill hptr hcall (fun _ _ => rfl) (Or.inr ?_) (fun hin => ?_) fun hin => ?_
    · -- The last store: now the settings are those of the call.
      rw [TaskS.settings, hdtUs (Or.inr hnext), hpriority hnext]
      rfl
    · rcases hin with hin | hin <;> exact absurd hin (by decide)
    · exact absurd hin (by decide)

theorem prepare_slot (t : TaskTable σ) (i : Nat) (h : (t.prepare.taskVet i).ptrFunc ≠ none) :
    t.prepare.taskVet i = t.taskVet i := by
  rw [TaskTable.prepare] at h ⊢
  split at h
  · rename_i hoff
    rw [if_pos hoff]
    by_cases hi : i < sysTaskMax
    · exact absurd (show (if i < sysTaskMax then taskSDefault else t.taskVet i).ptrFunc = none by
        rw [if_pos hi]; rfl) h
    · exact if_neg hi
  · rename_i hon
    rw [if_neg hon]

/-- The statements before the stores and after them. -/
theorem Invariant.calmStatement (h : s.Invariant) (hfunc : s.registration.next ≠ .ptrFunc)
    (hstores : s.registration.next ∉ settingStores) : (s.step .statement).Invariant := by
  show Invariant { s with registration := s.registration.statement, given := s.recordGiven }
  rw [recordGiven_eq hfunc]
  by_cases hundefined : s.registration.next = .undefined
  · simp only [Registration.statement, hundefined]
    exact h
  have hnow : ∀ i, ¬ s.Unfinished i := fun i hin => hin.2.elim hstores hundefined
  have hquiet : ∀ next ∈ [Statement.idle, .search, .ptrFunc, .count, .scheduler],
      ¬ (next ∈ settingStores ∨ next = .undefined) := by decide
  cases hnext : s.registration.next with
  | idle =>
    simp only [Registration.statement, hnext]
    exact h
  | init =>
    simp only [Registration.statement, hnext]
    exact h.calm hnow (prepare_slot s.table) h.slot rfl (Or.inr (hquiet .search (by decide)))
  | search =>
    simp only [Registration.statement, hnext]
    refine h.calm hnow (fun _ _ => rfl) (fun i hptr => ?_) rfl
      (Or.inr (hquiet .ptrFunc (by decide)))
    have hfree : s.registration.table.freeSlot = some i := hptr
    exact List.mem_range.mp (List.mem_of_find?_eq_some hfree)
  | name =>
    simp only [Registration.statement, hnext]
    rcases hptr : s.registration.ptrAux with _ | i
    · rw [Registration.store_none hptr]
      exact h.lose (Or.inl hptr)
    · rw [Registration.store_some hptr]
      exact h.calm hnow (fun _ _ => rfl) h.slot rfl (Or.inr (hquiet .count (by decide)))
  | count =>
    simp only [Registration.statement, hnext]
    exact h.calm hnow (fun _ _ => rfl) h.slot rfl (Or.inr (hquiet .scheduler (by decide)))
  | scheduler =>
    simp only [Registration.statement, hnext]
    exact h.calm hnow (fun _ _ => rfl) h.slot rfl (Or.inr (hquiet .idle (by decide)))
  | ptrFunc => exact absurd hnext hfunc
  | dtUs => exact absurd (show s.registration.next ∈ settingStores by rw [hnext]; decide) hstores
  | priority =>
    exact absurd (show s.registration.next ∈ settingStores by rw [hnext]; decide) hstores
  | ptrData =>
    exact absurd (show s.registration.next ∈ settingStores by rw [hnext]; decide) hstores
  | undefined => exact absurd hnext hundefined

theorem Invariant.step (s : Preempted σ) (a : RegisterAction σ) (h : s.Invariant) :
    (s.step a).Invariant := by
  cases a with
  | call c =>
    rw [Preempted.step]
    split
    · rename_i hidle
      refine h.calm (fun i hin => ?_) (fun _ _ => rfl)
        (fun i hptr => absurd hptr (Option.some_ne_none i).symm) rfl (Or.inl rfl)
      rw [Unfinished, hidle] at hin
      exact absurd hin.2 (by decide)
    · exact h
  | statement =>
    by_cases hfunc : s.registration.next = .ptrFunc
    · exact h.storeFunc hfunc
    by_cases hstores : s.registration.next ∈ settingStores
    · exact h.storeSetting hstores
    · exact h.calmStatement hfunc hstores
  | sysTick =>
    rw [Preempted.step]
    split
    · exact h.sysTick
    · exact h

theorem started_invariant (s : Scheduler σ) (tasksOn : BitVec 32)
    (taskName : Nat → Nat → BitVec 8) : (started s tasksOn taskName).Invariant := by
  have hnone : ∀ i, ¬ (started s tasksOn taskName).registration.ptrAux = some i := fun i =>
    (Option.some_ne_none i).symm
  exact ⟨fun i hptr => absurd hptr (hnone i), fun _ _ _ => rfl, fun i hin => absurd hin.1 (hnone i),
    fun i hptr => absurd hptr (hnone i), fun i hptr => absurd hptr (hnone i)⟩

/-- In a run with any number of registrations the handler runs every task as registered
exactly as long as it gets to no slot that is still to get one of its settings. -/
theorem run_registered_iff (s : Scheduler σ) (tasksOn : BitVec 32)
    (taskName : Nat → Nat → BitVec 8) (as : List (RegisterAction σ)) :
    Run.Each step RunsRegistered (started s tasksOn taskName) as ↔
      Run.Each step Sheltered (started s tasksOn taskName) as :=
  Run.Each.congr Invariant.step runsRegistered_iff_sheltered (started_invariant s tasksOn taskName)
    as

/-- SysTick comes right after the store of the function: the task runs with `NULL`. -/
theorem run_halfRegistered :
    ¬ ∀ (s : Scheduler Unit) (tasksOn : BitVec 32) (taskName : Nat → Nat → BitVec 8)
      (as : List (RegisterAction Unit)),
      Run.Each step RunsRegistered (started s tasksOn taskName) as := by
  intro hall
  have hrun := hall
    { sysTickCount := 0, dTUs := 500, ticking := dTUs_pos, pause := false,
      taskVet := fun _ => taskSDefault, memory := () } 1 (fun _ _ => 0)
    [.call { TaskTable.plainCall with arg := 7 }, .statement, .statement, .statement, .sysTick]
  have hran := hrun.2.2.2.2.1 ⟨rfl, by decide⟩ 0 (by decide)
  exact absurd (congrArg Settings.ptrData hran) (by decide)

end Preempted

end Task
end Recirculador
