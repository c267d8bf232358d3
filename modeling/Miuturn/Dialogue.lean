import Mathlib.Logic.Basic

set_option autoImplicit false

/-! # Programs that talk to a partner

A `Dialogue` is a program that makes calls, each of which comes back with an answer, and that ends
with a result or an exception. Its partner is a relation: in the state `s` a call may be answered
with `n`, and `s'` is the partner's state after it. `Runs` is a dialogue held to its end.

Dialogues are put together with `do`, and `runs_bind_iff` takes a run of the whole apart into runs
of its pieces. -/

/-- A program with calls of `μ`, answers of `ν`, exceptions of `ε` and a result of `α`. -/
inductive Dialogue (μ ν ε α : Type) where
  | done (result : Except ε α)
  | call (message : μ) (next : ν → Dialogue μ ν ε α)

namespace Dialogue

variable {μ ν ε α β σ : Type}

/-- One dialogue after the other; an exception ends both. -/
def bind (f : α → Dialogue μ ν ε β) : Dialogue μ ν ε α → Dialogue μ ν ε β
  | done (.ok a) => f a
  | done (.error e) => done (.error e)
  | call message next => call message (fun n => bind f (next n))

instance : Monad (Dialogue μ ν ε) where
  pure a := done (.ok a)
  bind d f := bind f d

/-- The dialogue held with a partner that starts in one state and ends in another. -/
inductive Runs (answers : σ → μ → ν → σ → Prop) :
    Dialogue μ ν ε α → σ → Except ε α → σ → Prop where
  | done {r : Except ε α} {s : σ} : Runs answers (.done r) s r s
  | call {message : μ} {next : ν → Dialogue μ ν ε α} {n : ν} {r : Except ε α} {s s' s'' : σ} :
      answers s message n s' → Runs answers (next n) s' r s'' →
      Runs answers (.call message next) s r s''

variable {answers : σ → μ → ν → σ → Prop} {s s' : σ}

theorem runs_done_iff {r r' : Except ε α} :
    Runs answers (.done r' : Dialogue μ ν ε α) s r s' ↔ r = r' ∧ s' = s := by
  constructor
  · rintro ⟨⟩
    exact ⟨rfl, rfl⟩
  · rintro ⟨rfl, rfl⟩
    exact .done

theorem runs_pure_iff {r : Except ε α} {a : α} :
    Runs answers (pure a : Dialogue μ ν ε α) s r s' ↔ r = .ok a ∧ s' = s :=
  runs_done_iff

theorem runs_call_iff {message : μ} {next : ν → Dialogue μ ν ε α} {r : Except ε α} :
    Runs answers (.call message next) s r s' ↔
      ∃ n s₁, answers s message n s₁ ∧ Runs answers (next n) s₁ r s' := by
  constructor
  · rintro (_ | ⟨hanswer, hrest⟩)
    exact ⟨_, _, hanswer, hrest⟩
  · rintro ⟨n, s₁, hanswer, hrest⟩
    exact .call hanswer hrest

/-- A dialogue made of two is held by holding one after the other. -/
theorem runs_bind_iff {d : Dialogue μ ν ε α} {f : α → Dialogue μ ν ε β} {r : Except ε β} :
    Runs answers (d >>= f) s r s' ↔
      (∃ a s₁, Runs answers d s (.ok a) s₁ ∧ Runs answers (f a) s₁ r s') ∨
        ∃ e, r = .error e ∧ Runs answers d s (.error e) s' := by
  show Runs answers (bind f d) s r s' ↔ _
  induction d generalizing s with
  | done result =>
      cases result with
      | ok a =>
          refine ⟨fun h => Or.inl ⟨a, s, .done, h⟩, ?_⟩
          rintro (⟨a', s₁, hd, hf⟩ | ⟨e, -, hd⟩)
          · obtain ⟨heq, rfl⟩ := runs_done_iff.1 hd
            obtain rfl := Except.ok.inj heq
            exact hf
          · exact absurd (runs_done_iff.1 hd).1 (by simp)
      | error e =>
          refine ⟨fun h => ?_, ?_⟩
          · obtain ⟨rfl, rfl⟩ := runs_done_iff.1 h
            exact Or.inr ⟨e, rfl, .done⟩
          · rintro (⟨a', s₁, hd, -⟩ | ⟨e', rfl, hd⟩)
            · exact absurd (runs_done_iff.1 hd).1 (by simp)
            · obtain ⟨heq, rfl⟩ := runs_done_iff.1 hd
              obtain rfl := Except.error.inj heq
              exact .done
  | call message next ih =>
      constructor
      · intro h
        obtain ⟨n, s₁, hanswer, hrest⟩ := runs_call_iff.1 h
        rcases (ih n).1 hrest with ⟨a, s₂, hd, hf⟩ | ⟨e, rfl, hd⟩
        · exact Or.inl ⟨a, s₂, .call hanswer hd, hf⟩
        · exact Or.inr ⟨e, rfl, .call hanswer hd⟩
      · rintro (⟨a, s₂, hd, hf⟩ | ⟨e, rfl, hd⟩)
        · obtain ⟨n, s₁, hanswer, hrest⟩ := runs_call_iff.1 hd
          exact .call hanswer ((ih n).2 (Or.inl ⟨a, s₂, hrest, hf⟩))
        · obtain ⟨n, s₁, hanswer, hrest⟩ := runs_call_iff.1 hd
          exact .call hanswer ((ih n).2 (Or.inr ⟨e, rfl, hrest⟩))

/-- What every answer of the partner keeps, the whole dialogue keeps. -/
theorem Runs.invariant {d : Dialogue μ ν ε α} {r : Except ε α} {P : σ → Prop}
    (h : Runs answers d s r s') (hstart : P s)
    (hstep : ∀ s message n s', answers s message n s' → P s → P s') : P s' := by
  induction h with
  | done => exact hstart
  | call hanswer _ ih => exact ih (hstep _ _ _ _ hanswer hstart)

end Dialogue
