/-
The queue is first in, first out behind one filler.

The messages in the queue occupy consecutive slots in the order of acceptance.
`Fifo q lo cnt next` says which: `cnt` slots from distance `lo` of the pointer on,
of ranks `next`, `next + 1`, ...; rank 0 is the filler `message_Init` leaves at the
pointer, rank `k + 1` the message accepted as number `k`.  Every statement that
touches the queue moves these three numbers.
-/
import Recirculador.Common.Run
import Recirculador.Message.Loop

namespace Recirculador

open Ring

/-- The filler first, then the acceptances in order. -/
def rank : Option Nat → Nat
  | none => 0
  | some k => k + 1

theorem rank_inj {t t' : Option Nat} (h : rank t = rank t') : t = t' := by
  cases t <;> cases t' <;> simp [rank] at h <;> simp [h]

namespace Queue

/-- `m` is the message accepted as number `k`, but for address and checksum. -/
def IsAccepted (q : Queue) (k : Nat) (m : I2cModbus) : Prop :=
  ∃ m₀, q.history.accepted[k]? = some m₀ ∧ m.contents = m₀.contents

structure Fifo (q : Queue) (lo cnt next : Nat) : Prop where
  ready : q.init = true
  linked : ∀ i, (q.slots i).ptrNext = slot i 1
  fits : lo + cnt ≤ sysModbusMessageQueueSize
  total : next + cnt = q.history.accepted.length + 1
  line : ∀ i, i < cnt → rank (q.history.holder (slot q.ptrQueue (lo + i))) = next + i
  stored : ∀ i, i < cnt → ∀ k, q.history.holder (slot q.ptrQueue (lo + i)) = some k →
    q.IsAccepted k (q.slots (slot q.ptrQueue (lo + i))).message
  tail : ∀ i, i + 1 = cnt → q.history.lastWritten = slot q.ptrQueue (lo + i)
  reached : ∀ d ∈ q.history.dispatched, rank d.ticket ≤ next
  current : ∀ d ∈ q.history.dispatched, rank d.ticket = next → d.call = q.history.calls
  complete : ∀ k, k + 1 < next → ∃ d ∈ q.history.dispatched, d.ticket = some k
  same : ∀ d ∈ q.history.dispatched, ∀ k, d.ticket = some k → q.IsAccepted k d.message
  ordered : q.history.dispatched.Pairwise fun d d' =>
    rank d.ticket ≤ rank d'.ticket ∧ (d.ticket = d'.ticket → d.call = d'.call)

def Fresh (q : Queue) (next : Nat) : Prop := ∀ d ∈ q.history.dispatched, rank d.ticket ≠ next

def Opened (q : Queue) (next : Nat) : Prop := ∃ d ∈ q.history.dispatched, rank d.ticket = next

variable {q : Queue} {lo cnt next : Nat}

theorem messageInit_fifo : (messageInit bootQueue).Fifo 0 1 0 where
  ready := rfl
  linked := fun _ => rfl
  fits := by decide
  total := rfl
  line := by
    intro i hi
    obtain rfl := Nat.lt_one_iff.mp hi
    rfl
  stored := by
    intro i hi k hk
    cases hk
  tail := by
    intro i hi
    obtain rfl : i = 0 := by omega
    rfl
  reached := by simp [messageInit, bootQueue]
  current := by simp [messageInit, bootQueue]
  complete := by
    intro k hk
    omega
  same := by simp [messageInit, bootQueue]
  ordered := List.Pairwise.nil

/-! ## Accepting a message -/

theorem messageNew_full (hready : q.init = true) (hfull : q.lenght = 14) (m : I2cModbus) :
    messageNew m q = (.queueOverload, q) :=
  have h : q.Full := ⟨hready, hfull⟩
  Prod.ext (messageNew_overload_iff.mpr h) (messageNew_refuses h.not_accepts m).2

theorem enqueueAll_full (hready : q.init = true) (hfull : q.lenght = 14) (ms : List I2cModbus) :
    enqueueAll ms q = q := by
  induction ms with
  | nil => rfl
  | cons m ms ih =>
    rw [enqueueAll, List.foldl_cons, messageNew_full hready hfull]
    exact ih

def push (m : I2cModbus) (q : Queue) : Queue :=
  ({ q with lenght := q.lenght + 1 }.setMessage (slot q.ptrQueue (q.lenght + 1))
    m).recordAccepted (slot q.ptrQueue (q.lenght + 1)) m

/-- `message_New` writes one slot past the length it found. -/
theorem messageNew_room (hready : q.init = true) (hlinked : ∀ i, (q.slots i).ptrNext = slot i 1)
    (hroom : q.lenght ≠ 14) (m : I2cModbus) :
    messageNew m q = (.ok, q.push m) := by
  obtain ⟨cell, hcell, hnew⟩ := messageNew_accepts ⟨hready, hroom⟩ m
  rw [walk_eq_slot hlinked] at hcell
  rw [hnew, hcell]
  rfl

@[simp] theorem push_init (m : I2cModbus) : (q.push m).init = q.init := rfl
@[simp] theorem push_ptrQueue (m : I2cModbus) : (q.push m).ptrQueue = q.ptrQueue := rfl
@[simp] theorem push_lenght (m : I2cModbus) : (q.push m).lenght = q.lenght + 1 := rfl
@[simp] theorem push_calls (m : I2cModbus) : (q.push m).history.calls = q.history.calls := rfl

@[simp] theorem push_accepted (m : I2cModbus) :
    (q.push m).history.accepted = q.history.accepted ++ [m] := rfl

@[simp] theorem push_dispatched (m : I2cModbus) :
    (q.push m).history.dispatched = q.history.dispatched := rfl

theorem push_holder (m : I2cModbus) (i : Slot) : (q.push m).history.holder i =
    if i = slot q.ptrQueue (q.lenght + 1) then some q.history.accepted.length
    else q.history.holder i := rfl

theorem push_slots (m : I2cModbus) (i : Slot) : (q.push m).slots i =
    if i = slot q.ptrQueue (q.lenght + 1) then { q.slots i with message := m } else q.slots i :=
  rfl

theorem IsAccepted.push {k : Nat} {m : I2cModbus} (h : q.IsAccepted k m) (new : I2cModbus) :
    (q.push new).IsAccepted k m := by
  obtain ⟨m₀, hm₀, hcontents⟩ := h
  have hk : k < q.history.accepted.length := (List.getElem?_eq_some_iff.mp hm₀).1
  exact ⟨m₀, by rw [push_accepted, List.getElem?_append_left hk, hm₀], hcontents⟩

theorem Fifo.push (h : q.Fifo lo cnt next) (hend : lo + cnt = q.lenght + 1)
    (hroom : q.lenght ≠ 14) (m : I2cModbus) : (q.push m).Fifo lo (cnt + 1) next := by
  have hfits := h.fits
  have htotal := h.total
  simp only [sysModbusMessageQueueSize] at hfits
  have hother : ∀ i, i < cnt → slot q.ptrQueue (lo + i) ≠ slot q.ptrQueue (q.lenght + 1) := by
    intro i hi heq
    have hdist := (slot_inj (by simp; omega) (by simp; omega)).mp heq
    omega
  constructor
  case ready => exact h.ready
  case linked =>
    intro i
    rw [push_slots]
    split <;> exact h.linked i
  case fits =>
    simp only [sysModbusMessageQueueSize]
    omega
  case total =>
    rw [push_accepted, List.length_append, List.length_singleton]
    omega
  case line =>
    intro i hi
    rw [push_ptrQueue, push_holder]
    rcases Nat.lt_succ_iff_lt_or_eq.mp hi with hlt | rfl
    · rw [if_neg (hother i hlt)]
      exact h.line i hlt
    · rw [hend, if_pos rfl, rank]
      omega
  case stored =>
    intro i hi k hk
    rw [push_ptrQueue] at hk ⊢
    rw [push_holder] at hk
    rw [push_slots]
    rcases Nat.lt_succ_iff_lt_or_eq.mp hi with hlt | rfl
    · rw [if_neg (hother i hlt)] at hk ⊢
      exact (h.stored i hlt k hk).push m
    · rw [hend, if_pos rfl] at hk
      obtain rfl := Option.some.inj hk
      rw [hend, if_pos rfl]
      exact ⟨m, by rw [push_accepted, List.getElem?_concat_length], rfl⟩
  case tail =>
    intro i hi
    obtain rfl := Nat.succ.inj hi
    rw [hend]
    rfl
  case reached => exact h.reached
  case current => exact h.current
  case complete => exact h.complete
  case same =>
    intro d hd k hk
    exact (h.same d hd k hk).push m
  case ordered => exact h.ordered

/-! ## The exchange with a slave -/

/-- The message at the pointer may change its address and its checksum. -/
theorem Fifo.setHead (h : q.Fifo 0 cnt next) {m : I2cModbus}
    (hm : m.contents = q.head.contents) : (q.setMessage q.ptrQueue m).Fifo 0 cnt next := by
  constructor
  case ready => exact h.ready
  case linked =>
    intro i
    simp only [setMessage]
    split <;> exact h.linked i
  case fits => exact h.fits
  case total => exact h.total
  case line => exact h.line
  case stored =>
    intro i hi k hk
    have hstored := h.stored i hi k hk
    simp only [setMessage]
    split
    · rename_i heq
      rw [heq] at hstored
      obtain ⟨m₀, hm₀, hcontents⟩ := hstored
      exact ⟨m₀, hm₀, hm.trans hcontents⟩
    · exact hstored
  case tail => exact h.tail
  case reached => exact h.reached
  case current => exact h.current
  case complete => exact h.complete
  case same => exact h.same
  case ordered => exact h.ordered

theorem Fifo.head_rank (h : q.Fifo 0 cnt next) (hcnt : 0 < cnt) :
    rank (q.history.holder q.ptrQueue) = next := by
  have hline := h.line 0 hcnt
  rwa [Nat.add_zero, slot_zero, Nat.add_zero] at hline

theorem Fifo.recordDispatch (h : q.Fifo 0 cnt next) (hcnt : 0 < cnt) :
    q.recordDispatch.Fifo 0 cnt next ∧ q.recordDispatch.Opened next := by
  have hhead := h.head_rank hcnt
  refine ⟨?_, ⟨_, List.mem_append_right _ (List.mem_singleton_self _), hhead⟩⟩
  constructor
  case ready => exact h.ready
  case linked => exact h.linked
  case fits => exact h.fits
  case total => exact h.total
  case line => exact h.line
  case stored => exact h.stored
  case tail => exact h.tail
  case reached =>
    intro d hd
    rcases List.mem_append.mp hd with hold | hnew
    · exact h.reached d hold
    · obtain rfl := List.mem_singleton.mp hnew
      exact Nat.le_of_eq hhead
  case current =>
    intro d hd hrank
    rcases List.mem_append.mp hd with hold | hnew
    · exact h.current d hold hrank
    · obtain rfl := List.mem_singleton.mp hnew
      rfl
  case complete =>
    intro k hk
    obtain ⟨d, hd, hticket⟩ := h.complete k hk
    exact ⟨d, List.mem_append_left _ hd, hticket⟩
  case same =>
    intro d hd k hk
    rcases List.mem_append.mp hd with hold | hnew
    · exact h.same d hold k hk
    · obtain rfl := List.mem_singleton.mp hnew
      have hstored := h.stored 0 hcnt k
      rw [Nat.add_zero, slot_zero] at hstored
      exact hstored hk
  case ordered =>
    refine List.pairwise_append.mpr ⟨h.ordered, List.pairwise_singleton _ _, ?_⟩
    intro d hd d' hd'
    obtain rfl := List.mem_singleton.mp hd'
    refine ⟨Nat.le_trans (h.reached d hd) (Nat.le_of_eq hhead.symm), fun hticket => ?_⟩
    exact h.current d hd (by rw [hticket]; exact hhead)

theorem Fifo.recordCall (h : q.Fifo lo cnt next) (hfresh : q.Fresh next) :
    q.recordCall.Fifo lo cnt next where
  ready := h.ready
  linked := h.linked
  fits := h.fits
  total := h.total
  line := h.line
  stored := h.stored
  tail := h.tail
  reached := h.reached
  current := fun d hd hrank => absurd hrank (hfresh d hd)
  complete := h.complete
  same := h.same
  ordered := h.ordered

/-! ## Releasing the slot -/

theorem Fifo.resetSlot (h : q.Fifo 0 (cnt + 1) next) (hopened : q.Opened next) :
    q.resetSlot.Fifo 1 cnt (next + 1) ∧ q.resetSlot.Fresh (next + 1) := by
  have hfits := h.fits
  have htotal := h.total
  simp only [sysModbusMessageQueueSize] at hfits
  have hother : ∀ i, i < cnt → slot q.ptrQueue (1 + i) ≠ q.ptrQueue := by
    intro i hi heq
    rw [← slot_zero q.ptrQueue, slot_slot] at heq
    have hdist := (slot_inj (by simp; omega) (by simp)).mp heq
    omega
  refine ⟨?_, ?_⟩
  · constructor
    case ready => exact h.ready
    case linked =>
      intro i
      simp only [Queue.resetSlot, setMessage, setHolder]
      split <;> exact h.linked i
    case fits =>
      simp only [sysModbusMessageQueueSize]
      omega
    case total =>
      show next + 1 + cnt = q.history.accepted.length + 1
      omega
    case line =>
      intro i hi
      have hline := h.line (i + 1) (by omega)
      rw [Nat.zero_add, Nat.add_comm i 1] at hline
      simp only [Queue.resetSlot, setMessage, setHolder, if_neg (hother i hi)]
      omega
    case stored =>
      intro i hi k hk
      have hstored := h.stored (i + 1) (by omega) k
      rw [Nat.zero_add, Nat.add_comm i 1] at hstored
      simp only [Queue.resetSlot, setMessage, setHolder, if_neg (hother i hi)] at hk ⊢
      exact hstored hk
    case tail =>
      intro i hi
      have htail := h.tail (i + 1) (by omega)
      rwa [Nat.zero_add, Nat.add_comm i 1] at htail
    case reached =>
      intro d hd
      exact Nat.le_succ_of_le (h.reached d hd)
    case current =>
      intro d hd hrank
      have hle := h.reached d hd
      omega
    case complete =>
      intro k hk
      rcases Nat.lt_succ_iff_lt_or_eq.mp hk with hlt | heq
      · exact h.complete k hlt
      · obtain ⟨d, hd, hrank⟩ := hopened
        exact ⟨d, hd, rank_inj (hrank.trans heq.symm)⟩
    case same => exact h.same
    case ordered => exact h.ordered
  · intro d hd hrank
    have hle := h.reached d hd
    omega

theorem Fifo.moveHead (h : q.Fifo 1 cnt next) : q.moveHead.Fifo 0 cnt next := by
  have hslot : ∀ i, slot q.moveHead.ptrQueue (0 + i) = slot q.ptrQueue (1 + i) := by
    intro i
    rw [Queue.moveHead, h.linked, slot_slot, Nat.zero_add]
  constructor
  case ready => exact h.ready
  case linked => exact h.linked
  case fits =>
    have hfits := h.fits
    omega
  case total => exact h.total
  case line =>
    intro i hi
    rw [hslot]
    exact h.line i hi
  case stored =>
    intro i hi k hk
    rw [hslot] at hk ⊢
    exact h.stored i hi k hk
  case tail =>
    intro i hi
    rw [hslot]
    exact h.tail i hi
  case reached => exact h.reached
  case current => exact h.current
  case complete => exact h.complete
  case same => exact h.same
  case ordered => exact h.ordered

theorem Fifo.decrement (h : q.Fifo lo cnt next) : q.decrement.Fifo lo cnt next where
  ready := h.ready
  linked := h.linked
  fits := h.fits
  total := h.total
  line := h.line
  stored := h.stored
  tail := h.tail
  reached := h.reached
  current := h.current
  complete := h.complete
  same := h.same
  ordered := h.ordered

end Queue

end Recirculador
