import Mathlib.Data.List.Basic
import Miuturn.Trace

set_option autoImplicit false

/-! # Stores that are swept from time to time

A store holds items, each with a time it is due. Steps add items and renew them, and now and then a
step sweeps the store: afterwards it holds nothing that was due before. This file is about any such
system. If sweeps are never more than a period apart, an item is gone a period after it was due, or
after it was last renewed if that was later (`Sweeper.due`). -/

namespace Sweep

variable {σ ε ι : Type} (time : ε → ℕ) (tick : ε → Bool)

/-- The time of the last sweep, if `t` was that of the one before the step. -/
def after (t : ℕ) (e : ε) : ℕ := if tick e then time e else t

/-- The time of the last sweep of a history, which begins with one at `t`. -/
def lastTick (t : ℕ) (tr : List ε) : ℕ := tr.foldl (after time tick) t

/-- No step of the history comes more than a period after the last sweep before it. -/
def punctual (period : ℕ) : ℕ → List ε → Bool
  | _, [] => true
  | t, e :: tr => decide (time e ≤ t + period) && punctual period (after time tick t e) tr

/-- What sweeps and the other steps do to a store. -/
structure Sweeper (step : σ → ε → σ → Prop) (Inv : σ → Prop) (clock : σ → ℕ)
    (Holds : σ → ι → ℕ → Prop) (Renews : ε → ι → ℕ → Prop) : Prop where
  inv : ∀ {s e s'}, Inv s → step s e s' → Inv s'
  clock_le : ∀ {s e s'}, step s e s' → clock s ≤ time e
  clock_eq : ∀ {s e s'}, step s e s' → clock s' = time e
  /-- What is held was held before, due at the same time, or the step has entered or renewed it. -/
  origin : ∀ {s e s' i d}, Inv s → step s e s' → Holds s' i d → Holds s i d ∨ Renews e i d
  /-- What a sweep leaves is not due yet. -/
  survives : ∀ {s e s' i d}, Inv s → step s e s' → tick e = true → Holds s' i d → time e ≤ d

variable {time tick} {step : σ → ε → σ → Prop} {Inv : σ → Prop} {clock : σ → ℕ}
  {Holds : σ → ι → ℕ → Prop} {Renews : ε → ι → ℕ → Prop} {s₀ s : σ} {tr : List ε} {period : ℕ}

theorem lastTick_snoc (t : ℕ) (tr : List ε) (e : ε) :
    lastTick time tick t (tr ++ [e]) = after time tick (lastTick time tick t tr) e := by
  rw [lastTick, List.foldl_append]
  rfl

theorem punctual_snoc (t : ℕ) (tr : List ε) (e : ε) :
    punctual time tick period t (tr ++ [e]) = true ↔
      punctual time tick period t tr = true ∧ time e ≤ lastTick time tick t tr + period := by
  induction tr generalizing t with
  | nil => simp [punctual, lastTick]
  | cons x tr ih =>
      rw [List.cons_append, punctual, punctual, Bool.and_eq_true, Bool.and_eq_true, ih, and_assoc]
      rfl

theorem Sweeper.run_inv (h : Sweeper time tick step Inv clock Holds Renews)
    (hrun : Trace.Run step s₀ tr s) (hinv : Inv s₀) : Inv s :=
  Trace.Run.invariant (P := fun _ s => Inv s) hrun hinv
    (fun _ _ _ _ _ hinv hstep => h.inv hinv hstep)

theorem Sweeper.lastTick_le (h : Sweeper time tick step Inv clock Holds Renews)
    (hrun : Trace.Run step s₀ tr s) : lastTick time tick (clock s₀) tr ≤ clock s := by
  refine Trace.Run.invariant (P := fun tr s => lastTick time tick (clock s₀) tr ≤ clock s) hrun
    le_rfl ?_
  intro tr s e s' _ ih hstep
  rw [lastTick_snoc, h.clock_eq hstep, after]
  split
  · exact le_rfl
  · exact ih.trans (h.clock_le hstep)

/-- What is held was entered or renewed by a step of the history, and the last sweep came before
    that or before it was due. -/
theorem Sweeper.renewed (h : Sweeper time tick step Inv clock Holds Renews)
    (hrun : Trace.Run step s₀ tr s) (hinv : Inv s₀) (hnone : ∀ i d, ¬ Holds s₀ i d) :
    ∀ i d, Holds s i d → ∃ e ∈ tr, Renews e i d ∧
      lastTick time tick (clock s₀) tr ≤ max (time e) d := by
  induction hrun with
  | nil => exact fun i d hheld => absurd hheld (hnone i d)
  | @snoc tr s s' e hprev hstep ih =>
      intro i d hheld
      have hinvs := h.run_inv hprev hinv
      rw [lastTick_snoc, after]
      rcases h.origin hinvs hstep hheld with hold | hnew
      · obtain ⟨e₀, he₀, hrenews, hle⟩ := ih i d hold
        refine ⟨e₀, List.mem_append_left _ he₀, hrenews, ?_⟩
        split
        · next htick => exact le_max_of_le_right (h.survives hinvs hstep htick hheld)
        · exact hle
      · refine ⟨e, List.mem_append_right _ (List.mem_singleton_self e), hnew, le_max_of_le_left ?_⟩
        split
        · exact le_rfl
        · exact (h.lastTick_le hprev).trans (h.clock_le hstep)

theorem Sweeper.clock_le_lastTick (h : Sweeper time tick step Inv clock Holds Renews)
    (hrun : Trace.Run step s₀ tr s)
    (hpunctual : punctual time tick period (clock s₀) tr = true) :
    clock s ≤ lastTick time tick (clock s₀) tr + period := by
  cases hrun with
  | nil => exact Nat.le_add_right _ _
  | snoc hprev hstep =>
      obtain ⟨-, hle⟩ := (punctual_snoc _ _ _).1 hpunctual
      rw [lastTick_snoc, after, h.clock_eq hstep]
      split
      · exact Nat.le_add_right _ _
      · exact hle

/-- With punctual sweeps an item is gone a period after it was due, or after the step that entered
    or last renewed it if that came later. -/
theorem Sweeper.due (h : Sweeper time tick step Inv clock Holds Renews)
    (hrun : Trace.Run step s₀ tr s) (hinv : Inv s₀) (hnone : ∀ i d, ¬ Holds s₀ i d)
    (hpunctual : punctual time tick period (clock s₀) tr = true) {i : ι} {d : ℕ}
    (hheld : Holds s i d) :
    ∃ e ∈ tr, Renews e i d ∧ clock s ≤ max (time e) d + period := by
  obtain ⟨e, he, hrenews, hle⟩ := h.renewed hrun hinv hnone i d hheld
  refine ⟨e, he, hrenews, ?_⟩
  exact (h.clock_le_lastTick hrun hpunctual).trans (Nat.add_le_add_right hle period)

end Sweep
