/-
Switches with hysteresis.

A switch that turns on only below a lower bound and off only above an upper one cannot
chatter: its switchings alternate, so between two of them the value crosses the band.
-/
import Mathlib.Data.List.Chain
import Recirculador.Common.Run

namespace Hysteresis

universe u v

variable {σ : Type u} {α : Type v}

/-- A change of the switch: its new position and the value it was made at. -/
structure Switching where
  on : Bool
  value : Int

variable (step : σ → α → σ) (on : σ → Bool) (value : α → Int)

/-- The switchings of a run in order. -/
def switchings (s : σ) : List α → List Switching
  | [] => []
  | a :: as =>
    if on (step s a) = on s then switchings (step s a) as
    else ⟨on (step s a), value a⟩ :: switchings (step s a) as

def Switching.Outside (low high : Int) (w : Switching) : Prop :=
  if w.on then w.value < low else high < w.value

/-- The action leaves the switch alone or turns it outside the band. -/
def Banded (low high : Int) (s : σ) (a : α) : Prop :=
  on (step s a) = on s ∨ Switching.Outside low high ⟨on (step s a), value a⟩

variable {step on value} {low high : Int}

theorem switchings_outside {s : σ} {as : List α}
    (h : Run.Each step (Banded step on value low high) s as) :
    ∀ w ∈ switchings step on value s as, w.Outside low high := by
  induction as generalizing s with
  | nil => exact fun w hw => nomatch hw
  | cons a as ih =>
    rw [switchings]
    split
    · exact ih h.2
    · rename_i hturned
      intro w hw
      rcases List.mem_cons.mp hw with hw | hw
      · rw [hw]
        exact h.1.resolve_left hturned
      · exact ih h.2 w hw

/-- The first switching leaves the position the run starts in. -/
theorem switchings_head {s : σ} {as : List α} {w : Switching}
    (h : (switchings step on value s as).head? = some w) : w.on ≠ on s := by
  induction as generalizing s with
  | nil => exact nomatch h
  | cons a as ih =>
    rw [switchings] at h
    split at h
    · rename_i hsame
      rw [← hsame]
      exact ih h
    · rename_i hturned
      rw [← Option.some.inj h]
      exact hturned

/-- Two positions outside the band on opposite sides. -/
theorem Switching.Outside.apart {w w' : Switching} (h : w.Outside low high)
    (h' : w'.Outside low high) (hne : w'.on ≠ w.on) :
    high - low < ((w.value - w'.value).natAbs : Int) := by
  unfold Outside at h h'
  cases hon : w.on <;> cases hon' : w'.on <;> simp [hon, hon'] at h h' hne <;> omega

theorem switchings_isChain {s : σ} {as : List α}
    (h : Run.Each step (Banded step on value low high) s as) :
    (switchings step on value s as).IsChain fun w w' =>
      w'.on ≠ w.on ∧ high - low < ((w.value - w'.value).natAbs : Int) := by
  induction as generalizing s with
  | nil => exact List.isChain_nil
  | cons a as ih =>
    rw [switchings]
    split
    · exact ih h.2
    · rename_i hturned
      rw [List.isChain_cons]
      refine ⟨fun w hw => ?_, ih h.2⟩
      have hne := switchings_head hw
      have hout := switchings_outside h.2 w (List.mem_of_mem_head? hw)
      exact ⟨hne, (h.1.resolve_left hturned).apart hout hne⟩

end Hysteresis
