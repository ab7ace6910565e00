/-
Runs of a deterministic transition system.

A run is a list of actions folded through a step function.  `Always` speaks of
every state a run passes through, `Each` of every action together with the state
it is taken in.  A safety theorem is a step lemma and one of the rules below.
-/

namespace Run

universe u v

variable {σ : Type u} {α : Type v}

def final (step : σ → α → σ) (s : σ) : List α → σ
  | [] => s
  | a :: as => final step (step s a) as

/-- `P` holds in every state of the run, the first and the last included. -/
def Always (step : σ → α → σ) (P : σ → Prop) (s : σ) : List α → Prop
  | [] => P s
  | a :: as => P s ∧ Always step P (step s a) as

/-- Every action of the run is taken in a state `ok` accepts it in. -/
def Each (step : σ → α → σ) (ok : σ → α → Prop) (s : σ) : List α → Prop
  | [] => True
  | a :: as => ok s a ∧ Each step ok (step s a) as

variable {step : σ → α → σ} {P Q Inv : σ → Prop} {ok ok' : σ → α → Prop}

theorem Always.head {s : σ} {as : List α} (h : Always step P s as) : P s := by
  cases as with
  | nil => exact h
  | cons a as => exact h.1

theorem Always.last {s : σ} {as : List α} (h : Always step P s as) : P (final step s as) := by
  induction as generalizing s with
  | nil => exact h
  | cons a as ih => exact ih h.2

theorem Always.mono (hPQ : ∀ s, P s → Q s) {s : σ} {as : List α} (h : Always step P s as) :
    Always step Q s as := by
  induction as generalizing s with
  | nil => exact hPQ s h
  | cons a as ih => exact ⟨hPQ s h.1, ih h.2⟩

/-- Invariant rule: an invariant kept by every accepted action holds in every
state of a run whose actions are all accepted. -/
theorem Always.of_step (hstep : ∀ s a, Inv s → ok s a → Inv (step s a)) {s : σ}
    {as : List α} (hs : Inv s) (hok : Each step ok s as) : Always step Inv s as := by
  induction as generalizing s with
  | nil => exact hs
  | cons a as ih => exact ⟨hs, ih (hstep s a hs hok.1) hok.2⟩

theorem Always.of_invariant (hstep : ∀ s a, Inv s → Inv (step s a)) {s : σ} (hs : Inv s)
    (as : List α) : Always step Inv s as := by
  induction as generalizing s with
  | nil => exact hs
  | cons a as ih => exact ⟨hs, ih (hstep s a hs)⟩

theorem final_of_invariant (Inv : σ → Prop) (hstep : ∀ s a, Inv s → Inv (step s a)) {s : σ}
    (hs : Inv s) (as : List α) : Inv (final step s as) :=
  (Always.of_invariant hstep hs as).last

/-- Two conditions on actions that agree under an invariant accept the same runs,
if the first keeps the invariant. -/
theorem Each.iff_of_invariant (Inv : σ → Prop) (hstep : ∀ s a, Inv s → ok s a → Inv (step s a))
    (hiff : ∀ s a, Inv s → (ok s a ↔ ok' s a)) {s : σ} (hs : Inv s) (as : List α) :
    Each step ok s as ↔ Each step ok' s as := by
  induction as generalizing s with
  | nil => exact Iff.rfl
  | cons a as ih =>
    constructor
    · intro h
      exact ⟨(hiff s a hs).mp h.1, (ih (hstep s a hs h.1)).mp h.2⟩
    · intro h
      have hok := (hiff s a hs).mpr h.1
      exact ⟨hok, (ih (hstep s a hs hok)).mpr h.2⟩

theorem Each.congr (hstep : ∀ s a, Inv s → Inv (step s a))
    (hiff : ∀ s a, Inv s → (ok s a ↔ ok' s a)) {s : σ} (hs : Inv s) (as : List α) :
    Each step ok s as ↔ Each step ok' s as :=
  Each.iff_of_invariant Inv (fun s a hs _ => hstep s a hs) hiff hs as

theorem final_append (s : σ) (as bs : List α) :
    final step s (as ++ bs) = final step (final step s as) bs := by
  induction as generalizing s with
  | nil => rfl
  | cons a as ih => exact ih (step s a)

theorem Always.append {s : σ} {as bs : List α} (h : Always step P s as)
    (h' : Always step P (final step s as) bs) : Always step P s (as ++ bs) := by
  induction as generalizing s with
  | nil => exact h'
  | cons a as ih => exact ⟨h.1, ih h.2 h'⟩

theorem Each.append {s : σ} {as bs : List α} (h : Each step ok s as)
    (h' : Each step ok (final step s as) bs) : Each step ok s (as ++ bs) := by
  induction as generalizing s with
  | nil => exact h'
  | cons a as ih => exact ⟨h.1, ih h.2 h'⟩

theorem each_append_iff {s : σ} {as bs : List α} :
    Each step ok s (as ++ bs) ↔ Each step ok s as ∧ Each step ok (final step s as) bs := by
  induction as generalizing s with
  | nil => exact (iff_of_eq (true_and _)).symm
  | cons a as ih => exact (and_congr_right fun _ => ih).trans and_assoc.symm

theorem Each.of_forall (h : ∀ s a, ok s a) (s : σ) (as : List α) : Each step ok s as := by
  induction as generalizing s with
  | nil => exact trivial
  | cons a as ih => exact ⟨h s a, ih _⟩

theorem Each.of_mem {ok : α → Prop} {as : List α} (h : ∀ a ∈ as, ok a) (s : σ) :
    Each step (fun _ a => ok a) s as := by
  induction as generalizing s with
  | nil => exact trivial
  | cons a as ih =>
    exact ⟨h a List.mem_cons_self, ih (fun b hb => h b (List.mem_cons_of_mem a hb)) _⟩

/-- Under an invariant that accepted actions keep, one condition gives another. -/
theorem Each.mono_of_invariant (Inv : σ → Prop)
    (hstep : ∀ s a, Inv s → ok s a → Inv (step s a)) (hmono : ∀ s a, Inv s → ok s a → ok' s a)
    {s : σ} (hs : Inv s) {as : List α} (h : Each step ok s as) : Each step ok' s as := by
  induction as generalizing s with
  | nil => exact trivial
  | cons a as ih => exact ⟨hmono s a hs h.1, ih (hstep s a hs h.1) h.2⟩

/-- Exactness rule for runs that meet a side condition throughout: if accepted actions
keep an invariant that implies `P`, and the first action that is not accepted breaks
`P`, then `P` holds throughout a run exactly when all its actions are accepted. -/
theorem always_iff_each_of (Inv : σ → Prop) (pre ok : σ → α → Prop) (hP : ∀ s, Inv s → P s)
    (hstep : ∀ s a, Inv s → pre s a → ok s a → Inv (step s a))
    (hbad : ∀ s a, Inv s → pre s a → ¬ ok s a → ¬ P (step s a)) {s : σ} (hs : Inv s)
    {as : List α} (hpre : Each step pre s as) :
    Always step P s as ↔ Each step ok s as := by
  induction as generalizing s with
  | nil => exact iff_of_true (hP s hs) trivial
  | cons a as ih =>
    constructor
    · intro h
      by_cases ha : ok s a
      · exact ⟨ha, (ih (hstep s a hs hpre.1 ha) hpre.2).mp h.2⟩
      · exact absurd h.2.head (hbad s a hs hpre.1 ha)
    · intro h
      exact ⟨hP s hs, (ih (hstep s a hs hpre.1 h.1) hpre.2).mpr h.2⟩

/-- Two properties hold throughout the same runs, if the second keeps an invariant
under which it implies the first, and the first is broken where the second ends. -/
theorem always_iff_always (Inv : σ → Prop) (hP : ∀ s, Inv s → Q s → P s)
    (hstep : ∀ s a, Inv s → Q s → Inv (step s a))
    (hbad : ∀ s a, Inv s → Q s → ¬ Q (step s a) → ¬ P (step s a)) {s : σ} (hs : Inv s) (hq : Q s)
    (as : List α) : Always step P s as ↔ Always step Q s as := by
  induction as generalizing s with
  | nil => exact iff_of_true (hP s hs hq) hq
  | cons a as ih =>
    have hnext := hstep s a hs hq
    constructor
    · intro h
      by_cases ha : Q (step s a)
      · exact ⟨hq, (ih hnext ha).mp h.2⟩
      · exact absurd h.2.head (hbad s a hs hq ha)
    · intro h
      exact ⟨hP s hs hq, (ih hnext h.2.head).mpr h.2⟩

/-- The exactness rule without a side condition. -/
theorem always_iff_each (Inv : σ → Prop) (ok : σ → α → Prop) (hP : ∀ s, Inv s → P s)
    (hstep : ∀ s a, Inv s → ok s a → Inv (step s a))
    (hbad : ∀ s a, Inv s → ¬ ok s a → ¬ P (step s a)) {s : σ} (hs : Inv s) (as : List α) :
    Always step P s as ↔ Each step ok s as :=
  always_iff_each_of Inv (fun _ _ => True) ok hP (fun s a h _ => hstep s a h)
    (fun s a h _ => hbad s a h) hs (Each.of_forall (fun _ _ => trivial) s as)

/-! ## Refinement -/

section Refinement

universe w x

variable {τ : Type w} {β : Type x} {step' : τ → β → τ} {abs : σ → τ} {emit : σ → α → List β}

/-- What the actions of a run amount to, one level up. -/
def trace (step : σ → α → σ) (emit : σ → α → List β) (s : σ) : List α → List β
  | [] => []
  | a :: as => emit s a ++ trace step emit (step s a) as

/-- Refinement rule: if every action amounts to a run one level up, so does a run. -/
theorem abs_final (hstep : ∀ s a, abs (step s a) = final step' (abs s) (emit s a)) (s : σ)
    (as : List α) : abs (final step s as) = final step' (abs s) (trace step emit s as) := by
  induction as generalizing s with
  | nil => rfl
  | cons a as ih =>
    rw [trace, final_append, ← hstep]
    exact ih (step s a)

end Refinement

/-! ## Runs that may fail -/

/-- Invariant rule for steps that may fail: what every successful step keeps holds at the end
of a successful run. -/
theorem foldlM_invariant {ε : Type u} {τ : Type u} {β : Type v} {next : τ → β → Except ε τ}
    (Keeps : τ → Prop) (hstep : ∀ s a s', Keeps s → next s a = .ok s' → Keeps s') {s s' : τ}
    {as : List β} (hs : Keeps s) (hrun : as.foldlM next s = .ok s') : Keeps s' := by
  induction as generalizing s with
  | nil => exact Except.ok.inj hrun ▸ hs
  | cons a as ih =>
    rw [List.foldlM_cons] at hrun
    cases hnext : next s a with
    | error e =>
      rw [hnext] at hrun
      exact nomatch hrun
    | ok t =>
      rw [hnext] at hrun
      exact ih (hstep s a t hs hnext) hrun

/-! ## Totals -/

/-- What the actions of a run amount to. -/
def total (step : σ → α → σ) (amount : σ → α → Nat) (s : σ) : List α → Nat
  | [] => 0
  | a :: as => amount s a + total step amount (step s a) as

/-- Accounting rule: an account each action enters its amount in has the total in the end. -/
theorem total_of_step {amount : σ → α → Nat} (Account : σ → Nat → Prop)
    (hstep : ∀ s a n, Account s n → Account (step s a) (n + amount s a)) {s : σ} {n : Nat}
    (hs : Account s n) (as : List α) :
    Account (final step s as) (n + total step amount s as) := by
  induction as generalizing s n with
  | nil => exact hs
  | cons a as ih =>
    have hrest := ih (hstep s a n hs)
    rwa [Nat.add_assoc] at hrest

theorem total_eq_zero_iff {amount : σ → α → Nat} (s : σ) (as : List α) :
    total step amount s as = 0 ↔ Each step (fun s a => amount s a = 0) s as := by
  induction as generalizing s with
  | nil => exact iff_of_true rfl trivial
  | cons a as ih => exact Nat.add_eq_zero_iff.trans (and_congr_right fun _ => ih (step s a))

/-! ## Countdowns -/

/-- Progress rule: if every accepted action keeps a countdown and a counted one takes it one
down, a run takes it down by its counted actions. -/
theorem countdown {Waits : Nat → σ → Prop} (counts : α → Bool)
    (hstep : ∀ s a b, Waits b s → ok s a → Waits (if counts a then b - 1 else b) (step s a))
    {s : σ} {b : Nat} {as : List α} (hs : Waits b s) (hok : Each step ok s as) :
    Waits (b - as.countP counts) (final step s as) := by
  induction as generalizing s b with
  | nil => exact hs
  | cons a as ih =>
    have hrest := ih (hstep s a b hs hok.1) hok.2
    rw [List.countP_cons]
    by_cases hcounts : counts a = true
    · rw [if_pos hcounts] at hrest ⊢
      rwa [Nat.sub_sub, Nat.add_comm 1] at hrest
    · rw [if_neg hcounts] at hrest ⊢
      exact hrest

end Run
