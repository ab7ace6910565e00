/-
Runs of the queue: what is dispatched, and when.

A run mixes `message_New` and whole `message_loop` calls freely.  Between calls
the queue is at rest: the slots from the pointer on hold the filler or an accepted
message that was never dispatched, then the younger ones.  From this follow the
order and integrity of every run, and what goes wrong at its start: the filler is
ahead of the first message.
-/
import Recirculador.Message.Fifo

namespace Recirculador

open Ring

namespace Queue

variable {q : Queue} {lo cnt next : Nat}

theorem messageNew_dispatched (m : I2cModbus) (q : Queue) :
    (messageNew m q).2.history.dispatched = q.history.dispatched := by
  unfold messageNew
  split
  · rfl
  · dsimp only
    split <;> rfl

theorem Opened.messageNew (h : q.Opened next) (m : I2cModbus) :
    (messageNew m q).2.Opened next := by
  obtain ⟨d, hd, hrank⟩ := h
  exact ⟨d, by rwa [messageNew_dispatched], hrank⟩

theorem Fresh.messageNew (h : q.Fresh next) (m : I2cModbus) : (messageNew m q).2.Fresh next := by
  intro d hd
  rw [messageNew_dispatched] at hd
  exact h d hd

theorem Fifo.messageNew (h : q.Fifo lo cnt next) (hend : lo + cnt = q.lenght + 1)
    (m : I2cModbus) :
    ∃ cnt', (messageNew m q).2.Fifo lo cnt' next ∧
      lo + cnt' = (messageNew m q).2.lenght + 1 ∧ q.lenght ≤ (messageNew m q).2.lenght := by
  by_cases hroom : q.lenght = 14
  · rw [messageNew_full h.ready hroom]
    exact ⟨cnt, h, hend, Nat.le_refl _⟩
  · rw [messageNew_room h.ready h.linked hroom]
    refine ⟨cnt + 1, h.push hend hroom m, ?_, ?_⟩
    · rw [push_lenght]
      omega
    · rw [push_lenght]
      omega

/-! ## Serving the message at the pointer -/

structure InService (q : Queue) (next : Nat) : Prop where
  fifo : q.Fifo 0 (q.lenght + 1) next
  nonempty : 0 < q.lenght

theorem InService.messageNew (h : q.InService next) (m : I2cModbus) :
    (messageNew m q).2.InService next := by
  obtain ⟨cnt, hfifo, hend, hle⟩ := h.fifo.messageNew (Nat.zero_add _) m
  rw [Nat.zero_add] at hend
  rw [hend] at hfifo
  exact ⟨hfifo, Nat.lt_of_lt_of_le h.nonempty hle⟩

theorem InService.setHead (h : q.InService next) {m : I2cModbus}
    (hm : m.contents = q.head.contents) : (q.setMessage q.ptrQueue m).InService next :=
  ⟨h.fifo.setHead hm, h.nonempty⟩

/-- In service and already handed to a slave. -/
structure Served (q : Queue) (next : Nat) : Prop where
  service : q.InService next
  opened : q.Opened next

theorem InService.beginAux {f : Firmware} (h : f.queue.InService next) :
    f.beginAux.queue.Served next := by
  obtain ⟨hfifo, hopened⟩ := h.fifo.recordDispatch (Nat.succ_pos _)
  exact ⟨⟨hfifo, h.nonempty⟩, hopened⟩

theorem Served.sendMessage {f : Firmware} (h : f.queue.Served next) (e : Exchange) :
    (f.sendMessage e).2.queue.Served next := by
  refine ⟨h.service.setHead ?_, h.opened⟩
  split <;> rfl

theorem Served.of_enqueues {f f' : Firmware} (h : f.queue.Served next)
    (henqueues : Enqueues f f') : f'.queue.Served next :=
  henqueues.preserves (P := fun q => q.Served next)
    (fun m _ hq => ⟨hq.service.messageNew m, hq.opened.messageNew m⟩) h

theorem clearBuffer_queue (statusAux : Int) (f : Firmware) :
    (f.clearBuffer statusAux).queue = f.queue := by
  unfold Firmware.clearBuffer
  split <;> rfl

/-- One exchange dispatches the message and leaves it in service. -/
theorem InService.messageLoopAux {f : Firmware} (h : f.queue.InService next) (e : Exchange) :
    (messageLoopAux e f).queue.Served next := by
  have hsent := h.beginAux.sendMessage e
  have hreply := handleReply_enqueues e (f.beginAux.sendMessage e).1
    (f.beginAux.sendMessage e).2.schedulerContinue.schedulerPause
  have hqueue : (Recirculador.messageLoopAux e f).queue = (handleReply e
      (f.beginAux.sendMessage e).1
      (f.beginAux.sendMessage e).2.schedulerContinue.schedulerPause).2.queue :=
    clearBuffer_queue _ _
  rw [hqueue]
  exact Served.of_enqueues hsent hreply

theorem InService.messageLoopAll (env : Nat → Exchange) {addrs : List (BitVec 8)} (i : Nat)
    {f : Firmware} (h : f.queue.InService next) (hne : addrs ≠ []) :
    (messageLoopAll env i addrs f).queue.Served next := by
  induction addrs generalizing i f with
  | nil => exact absurd rfl hne
  | cons addr addrs ih =>
    have haux := InService.messageLoopAux (f := f.setAddr addr) (h.setHead rfl) (env i)
    cases addrs with
    | nil => exact haux
    | cons addr' addrs => exact ih (i + 1) haux.service (by simp)

/-- Between calls: the message at the pointer was never dispatched. -/
def AtRest (q : Queue) (next : Nat) : Prop := q.Fifo 0 (q.lenght + 1) next ∧ q.Fresh next

theorem AtRest.messageNew (h : q.AtRest next) (m : I2cModbus) :
    (messageNew m q).2.AtRest next := by
  obtain ⟨cnt, hfifo, hend, _⟩ := h.1.messageNew (Nat.zero_add _) m
  rw [Nat.zero_add] at hend
  rw [hend] at hfifo
  exact ⟨hfifo, h.2.messageNew m⟩

theorem messageLoop_idle (env : Nat → Exchange) {f : Firmware} (hidle : f.queue.lenght = 0) :
    messageLoop env f = { f with queue := f.queue.recordCall } := by
  unfold messageLoop
  dsimp only
  split
  · rfl
  · exact if_pos hidle

theorem InService.serveHead {f : Firmware} (h : f.queue.InService next) (env : Nat → Exchange) :
    (serveHead env f).queue.Served next := by
  unfold Recirculador.serveHead
  split
  · exact h.messageLoopAll env 0 (by decide)
  · exact h.messageLoopAux (env 0)

theorem Served.release (h : q.Served next) :
    q.release.AtRest (next + 1) ∧ q.release.Opened next := by
  obtain ⟨hreset, hfresh⟩ := h.service.fifo.resetSlot h.opened
  have hpos : q.resetSlot.moveHead.lenght > 0 := h.service.nonempty
  have hlast : q.resetSlot.moveHead.decrement.lenght + 1 = q.lenght :=
    Nat.sub_add_cancel h.service.nonempty
  rw [Queue.release, if_pos hpos]
  refine ⟨⟨?_, hfresh⟩, h.opened⟩
  rw [hlast]
  exact hreset.moveHead.decrement

/-- A call on a queue that is not empty serves exactly the message at the pointer. -/
theorem AtRest.messageLoop {f : Firmware} (h : f.queue.AtRest next) (hne : 0 < f.queue.lenght)
    (env : Nat → Exchange) :
    (messageLoop env f).queue.AtRest (next + 1) ∧ (messageLoop env f).queue.Opened next := by
  have hready : ¬ f.queue.recordCall.init = false := by
    simp [show f.queue.recordCall.init = true from h.1.ready]
  have hlenght : ¬ f.queue.recordCall.lenght = 0 := Nat.ne_of_gt hne
  have hservice : f.queue.recordCall.InService next := ⟨h.1.recordCall h.2, hne⟩
  have hserved := InService.serveHead (f := { f with queue := f.queue.recordCall }) hservice env
  rw [Recirculador.messageLoop]
  dsimp only
  rw [if_neg hready, if_neg hlenght]
  exact hserved.release

/-! ## Order and integrity -/

def WasDispatched (q : Queue) (k : Nat) : Prop := ∃ d ∈ q.history.dispatched, d.ticket = some k

/-- Dispatches follow the order of acceptance without a gap, one call a message
and with its contents, and what is not dispatched yet is still in a slot. -/
structure InOrder (q : Queue) : Prop where
  ordered : q.history.dispatched.Pairwise fun d d' => ∀ k k', d.ticket = some k →
    d'.ticket = some k' → k ≤ k' ∧ (k = k' → d.call = d'.call)
  gapless : ∀ k, q.WasDispatched k → ∀ j, j < k → q.WasDispatched j
  same : ∀ d ∈ q.history.dispatched, ∀ k, d.ticket = some k → q.IsAccepted k d.message
  kept : ∀ k, k < q.history.accepted.length → q.WasDispatched k ∨
    ∃ i, q.history.holder i = some k ∧ q.IsAccepted k (q.slots i).message

theorem Fifo.inOrder (h : q.Fifo lo cnt next) : q.InOrder where
  ordered := by
    refine h.ordered.imp fun hpair k k' hk hk' => ?_
    rw [hk, hk'] at hpair
    exact ⟨Nat.le_of_succ_le_succ hpair.1, fun heq => hpair.2 (by rw [heq])⟩
  gapless := by
    rintro k ⟨d, hd, hk⟩ j hj
    have hreached := h.reached d hd
    rw [hk, rank] at hreached
    exact h.complete j (by omega)
  same := h.same
  kept := by
    intro k hk
    have htotal := h.total
    by_cases hold : k + 1 < next
    · exact Or.inl (h.complete k hold)
    · have hin : k + 1 - next < cnt := by omega
      have hline := h.line _ hin
      have hticket : q.history.holder (slot q.ptrQueue (lo + (k + 1 - next))) = some k :=
        rank_inj (hline.trans (by rw [rank]; omega))
      exact Or.inr ⟨_, hticket, h.stored _ hin k hticket⟩

end Queue

/-! ## Runs -/

inductive QueueAction
  | new (message : I2cModbus)
  | loop (env : Nat → Exchange)

def queueStep (f : Firmware) : QueueAction → Firmware
  | .new message => (f.messageNew message).2
  | .loop env => messageLoop env f

def Firmware.afterInit (f : Firmware) : Firmware := { f with queue := messageInit bootQueue }

namespace Queue

variable {q : Queue}

theorem afterInit_atRest (f : Firmware) : f.afterInit.queue.AtRest 0 :=
  ⟨messageInit_fifo, fun _ hd => absurd hd List.not_mem_nil⟩

theorem atRest_step (f : Firmware) (a : QueueAction) (h : ∃ next, f.queue.AtRest next) :
    ∃ next, (queueStep f a).queue.AtRest next := by
  obtain ⟨next, h⟩ := h
  cases a with
  | new message => exact ⟨next, h.messageNew message⟩
  | loop env =>
    by_cases hidle : f.queue.lenght = 0
    · refine ⟨next, ?_⟩
      rw [queueStep, messageLoop_idle env hidle]
      exact ⟨h.1.recordCall h.2, h.2⟩
    · exact ⟨next + 1, (h.messageLoop (Nat.pos_of_ne_zero hidle) env).1⟩

/-- In every run after `message_Init`, with whatever the slaves answer, messages
are dispatched in order, once, whole, and none is lost. -/
theorem run_inOrder (f : Firmware) (as : List QueueAction) :
    (Run.final queueStep f.afterInit as).queue.InOrder := by
  obtain ⟨next, h⟩ := Run.final_of_invariant _ atRest_step ⟨0, afterInit_atRest f⟩ as
  exact h.1.inOrder

/-! ## The filler goes first -/

/-- An empty queue has dispatched all it accepted, and never anything else. -/
structure NothingStranded (q : Queue) : Prop where
  drained : q.lenght = 0 → ∀ k, k < q.history.accepted.length → q.WasDispatched k
  noFiller : ∀ d ∈ q.history.dispatched, d.ticket ≠ none

def LoopIdle (f : Firmware) : QueueAction → Prop
  | .new _ => True
  | .loop _ => f.queue.lenght = 0

theorem AtRest.accepted (h : q.AtRest 0) : q.history.accepted.length = q.lenght := by
  have htotal := h.1.total
  omega

theorem AtRest.nothingStranded (h : q.AtRest 0) : q.NothingStranded where
  drained := by
    intro hidle k hk
    rw [h.accepted, hidle] at hk
    exact absurd hk (Nat.not_lt_zero k)
  noFiller := by
    intro d hd hnone
    exact h.2 d hd (by rw [hnone, rank])

theorem atRest_of_loopIdle (f : Firmware) (a : QueueAction) (h : f.queue.AtRest 0)
    (hok : LoopIdle f a) : (queueStep f a).queue.AtRest 0 := by
  cases a with
  | new message => exact h.messageNew message
  | loop env =>
    rw [queueStep, messageLoop_idle env hok]
    exact ⟨h.1.recordCall h.2, h.2⟩

theorem stranded_of_loop (f : Firmware) (a : QueueAction) (h : f.queue.AtRest 0)
    (hbad : ¬ LoopIdle f a) : ¬ (queueStep f a).queue.NothingStranded := by
  cases a with
  | new message => exact absurd trivial hbad
  | loop env =>
    obtain ⟨_, d, hd, hrank⟩ := h.messageLoop (Nat.pos_of_ne_zero hbad) env
    exact fun hgood => hgood.noFiller d hd (rank_inj hrank)

/-- No `message_loop` call comes after a `message_New` call. -/
def LoopsFirst (as : List QueueAction) : Prop :=
  as.Pairwise fun a b => ∀ message env, a = .new message → b ≠ .loop env

theorem each_loopIdle_iff (as : List QueueAction) {f : Firmware} (h : f.queue.AtRest 0) :
    Run.Each queueStep LoopIdle f as ↔
      LoopsFirst as ∧ (f.queue.lenght ≠ 0 → ∀ env, .loop env ∉ as) := by
  induction as generalizing f with
  | nil => exact iff_of_true trivial ⟨List.Pairwise.nil, fun _ _ => List.not_mem_nil⟩
  | cons a as ih =>
    cases a with
    | new message =>
      have hpos : ((f.messageNew message).2.queue).lenght ≠ 0 := by
        show (messageNew message f.queue).2.lenght ≠ 0
        by_cases hfull : f.queue.lenght = 14
        · rw [messageNew_full h.1.ready hfull]
          simp [hfull]
        · rw [messageNew_room h.1.ready h.1.linked hfull]
          simp
      have hrest := ih (f := (f.messageNew message).2) (h.messageNew message)
      simp only [Run.Each, LoopIdle, true_and, queueStep, LoopsFirst, List.pairwise_cons]
      rw [hrest]
      constructor
      · intro htail
        rcases htail with ⟨hfirst, hnone⟩
        refine ⟨⟨?_, hfirst⟩, ?_⟩
        · rintro b hb m env - rfl
          exact hnone hpos env hb
        · rintro - env hmem
          rcases List.mem_cons.mp hmem with heq | hmem
          · cases heq
          · exact hnone hpos env hmem
      · intro hboth
        rcases hboth with ⟨⟨hpair, hfirst⟩, -⟩
        exact ⟨hfirst, fun _ env hmem => hpair _ hmem message env rfl rfl⟩
    | loop env =>
      by_cases hidle : f.queue.lenght = 0
      · have hstep := messageLoop_idle env hidle
        have hrest := ih (f := messageLoop env f)
          (atRest_of_loopIdle f (.loop env) h hidle)
        have hlenght : (messageLoop env f).queue.lenght = 0 := by rw [hstep]; exact hidle
        simp only [Run.Each, LoopIdle, hidle, true_and, queueStep, LoopsFirst, List.pairwise_cons]
        rw [hrest]
        simp [hlenght, LoopsFirst]
      · simp only [Run.Each, LoopIdle]
        exact iff_of_false (fun hbad => hidle hbad.1)
          (fun hbad => hbad.2 hidle env (List.mem_cons_self ..))

/-- Nothing is stranded in any state of a run exactly when the run never gets to
serve a message. -/
theorem run_nothingStranded_iff (f : Firmware) (as : List QueueAction) :
    Run.Always queueStep (fun f => f.queue.NothingStranded) f.afterInit as ↔ LoopsFirst as := by
  refine (Run.always_iff_each (fun f => f.queue.AtRest 0) LoopIdle
    (fun f h => h.nothingStranded) atRest_of_loopIdle stranded_of_loop (afterInit_atRest f)
    as).trans ?_
  rw [each_loopIdle_iff as (afterInit_atRest f)]
  have hempty : f.afterInit.queue.lenght = 0 := rfl
  exact and_iff_left fun hbad => absurd hempty hbad

/-- One message and one call: the filler is dispatched twice, the message never,
and the counter is back at 0. -/
theorem run_strands :
    ¬ ∀ (f : Firmware) (as : List QueueAction),
      Run.Always queueStep (fun f => f.queue.NothingStranded) f.afterInit as := by
  intro hall
  have hrun := hall bootFirmware [.new messageDefault, .loop fun _ => noAnswer]
  obtain ⟨d, hd, hticket⟩ := hrun.last.drained (by decide) 0 (by decide)
  have hnone : ∀ d ∈ (Run.final queueStep bootFirmware.afterInit [.new messageDefault,
      .loop fun _ => noAnswer]).queue.history.dispatched, d.ticket = none := by decide
  rw [hnone d hd] at hticket
  cases hticket

end Queue

end Recirculador
