import Mathlib.Algebra.BigOperators.Group.Finset.Basic
import Mathlib.Algebra.Order.BigOperators.Group.Finset
import Mathlib.Algebra.Order.Group.Multiset
import Mathlib.Data.Fintype.Basic
import Mathlib.Tactic.Abel

set_option autoImplicit false

/-! # Runs of a transition system, and ledgers of owned resources

A transition system is a relation `step : σ → ε → σ → Prop` between states, labelled by what
happened. `Run` keeps the labels of a run, oldest first, so that a property may speak about the
history that led to a state. `Run.invariant` is the induction every safety proof uses, and
`Run.invariant_while` the form of it for what holds as long as the labels meet a condition;
`Run.since` finds the step that brought something about, `Since` says of a history that one thing
has happened and another not since, and `Passes` that a run came through a state of some kind.
`Run.length_le` bounds the length of runs by a potential.

The second half is for systems whose agents each own some resources of one pool: the ledger is the
single equation "what the agents own, added up, is the pool", and a step that changes what one agent
owns changes the sum by exactly that. -/

namespace Trace

variable {σ ε : Type}

/-- A run from `s` to `s'` with its labels, oldest first. -/
inductive Run (step : σ → ε → σ → Prop) (s : σ) : List ε → σ → Prop where
  | nil : Run step s [] s
  | snoc {tr : List ε} {s' s'' : σ} {e : ε} :
      Run step s tr s' → step s' e s'' → Run step s (tr ++ [e]) s''

variable {step : σ → ε → σ → Prop}

/-- A property of histories and states that holds at the start and that every step from a reached
    state keeps, holds at the end of every run. -/
theorem Run.invariant {s s' : σ} {tr : List ε} {P : List ε → σ → Prop} (h : Run step s tr s')
    (hinit : P [] s)
    (hstep : ∀ tr s' e s'', Run step s tr s' → P tr s' → step s' e s'' → P (tr ++ [e]) s'') :
    P tr s' := by
  induction h with
  | nil => exact hinit
  | snoc hrun he ih => exact hstep _ _ _ _ hrun ih he

/-- The same for a property of states that steps keep as long as their labels meet a condition. -/
theorem Run.invariant_while {s s' : σ} {tr : List ε} {P : σ → Prop} {C : ε → Prop}
    (h : Run step s tr s') (hC : ∀ e ∈ tr, C e) (hinit : P s)
    (hstep : ∀ tr s₁ e s₂, Run step s tr s₁ → C e → P s₁ → step s₁ e s₂ → P s₂) : P s' := by
  induction h with
  | nil => exact hinit
  | @snoc tr s₁ s₂ e hrun he ih =>
      have hstart := ih (fun e' he' => hC e' (List.mem_append_left _ he'))
      exact hstep tr s₁ e s₂ hrun (hC e (by simp)) hstart he

theorem Run.single {s s' : σ} {e : ε} (h : step s e s') : Run step s [e] s' := Run.snoc .nil h

theorem Run.append {s s' s'' : σ} {tr tr' : List ε} (h : Run step s tr s')
    (h' : Run step s' tr' s'') : Run step s (tr ++ tr') s'' := by
  induction h' with
  | nil => rwa [List.append_nil]
  | snoc _ he ih =>
      rw [← List.append_assoc]
      exact Run.snoc ih he

theorem run_snoc_iff {s s'' : σ} {tr : List ε} {e : ε} :
    Run step s (tr ++ [e]) s'' ↔ ∃ s', Run step s tr s' ∧ step s' e s'' := by
  constructor
  · intro h
    generalize htr : tr ++ [e] = tr' at h
    cases h with
    | nil => exact absurd htr (by simp)
    | snoc hrun he =>
        obtain ⟨rfl, hlast⟩ := List.append_inj' htr rfl
        obtain rfl := List.singleton_inj.1 hlast
        exact ⟨_, hrun, he⟩
  · rintro ⟨s', hrun, he⟩
    exact hrun.snoc he

/-- The method of potentials: a run is no longer than its first potential and the credits of its
    steps pay for. -/
theorem Run.length_le {s s' : σ} {tr : List ε} (Φ : σ → ℕ) (credit : ε → ℕ)
    (h : Run step s tr s') (hstep : ∀ s e s', step s e s' → Φ s' + 1 ≤ Φ s + credit e) :
    Φ s' + tr.length ≤ Φ s + (tr.map credit).sum := by
  induction h with
  | nil => simp
  | @snoc tr s₁ s₂ e _ he ih =>
      have hlast := hstep s₁ e s₂ he
      simp only [List.length_append, List.length_singleton, List.map_append, List.map_singleton,
        List.sum_append, List.sum_singleton]
      omega

/-- The run `tr` from `s` to `s'` passes through a state of `Q`. -/
def Passes (step : σ → ε → σ → Prop) (s : σ) (tr : List ε) (s' : σ) (Q : σ → Prop) : Prop :=
  ∃ tr₁ tr₂ s₁, tr = tr₁ ++ tr₂ ∧ Run step s tr₁ s₁ ∧ Run step s₁ tr₂ s' ∧ Q s₁

theorem Run.passes {s s' : σ} {tr : List ε} {Q : σ → Prop} (h : Run step s tr s') (hQ : Q s') :
    Passes step s tr s' Q :=
  ⟨tr, [], s', (List.append_nil tr).symm, h, .nil, hQ⟩

theorem Passes.snoc {s s' s'' : σ} {tr : List ε} {e : ε} {Q : σ → Prop}
    (h : Passes step s tr s' Q) (he : step s' e s'') : Passes step s (tr ++ [e]) s'' Q := by
  obtain ⟨tr₁, tr₂, s₁, rfl, h₁, h₂, hQ⟩ := h
  exact ⟨tr₁, tr₂ ++ [e], s₁, List.append_assoc _ _ _, h₁, h₂.snoc he, hQ⟩

theorem forall₂_snoc_left {ε' : Type} {L : ε → ε' → Prop} {tr : List ε} {e : ε} {tr' : List ε'}
    (h : List.Forall₂ L (tr ++ [e]) tr') :
    ∃ tr₁ e', tr' = tr₁ ++ [e'] ∧ List.Forall₂ L tr tr₁ ∧ L e e' := by
  induction tr generalizing tr' with
  | nil =>
      obtain ⟨e', rest, he, hrest, rfl⟩ := List.forall₂_cons_left_iff.1 h
      obtain rfl := List.forall₂_nil_left_iff.1 hrest
      exact ⟨[], e', rfl, .nil, he⟩
  | cons x tr ih =>
      obtain ⟨y, rest, hxy, hrest, rfl⟩ := List.forall₂_cons_left_iff.1 h
      obtain ⟨tr₁, e', rfl, htr, he⟩ := ih hrest
      exact ⟨y :: tr₁, e', rfl, .cons hxy htr, he⟩

/-- A system that can match each step of another from related states matches its runs. -/
theorem Run.simulate {σ' ε' : Type} {step' : σ' → ε' → σ' → Prop} {R : σ → σ' → Prop}
    {L : ε → ε' → Prop} {s s₁ : σ} {s' : σ'} {tr : List ε} {tr' : List ε'}
    (hstep : ∀ s e s₁ s' e', step s e s₁ → R s s' → L e e' → ∃ s₁', step' s' e' s₁' ∧ R s₁ s₁')
    (h : Run step s tr s₁) (hR : R s s') (hL : List.Forall₂ L tr tr') :
    ∃ s₁', Run step' s' tr' s₁' ∧ R s₁ s₁' := by
  induction h generalizing tr' with
  | nil =>
      obtain rfl := List.forall₂_nil_left_iff.1 hL
      exact ⟨s', .nil, hR⟩
  | snoc _ he ih =>
      obtain ⟨tr₁, e', rfl, htr, hlabel⟩ := forall₂_snoc_left hL
      obtain ⟨s₂', hrun, hR₂⟩ := ih htr
      obtain ⟨s₁', hlast, hR₁⟩ := hstep _ _ _ _ _ he hR₂ hlabel
      exact ⟨s₁', hrun.snoc hlast, hR₁⟩

/-- A run can be cut anywhere. -/
theorem Run.split {s s' : σ} {tr tr' : List ε} (h : Run step s (tr ++ tr') s') :
    ∃ s₁, Run step s tr s₁ ∧ Run step s₁ tr' s' := by
  induction tr' using List.reverseRecOn generalizing s' with
  | nil =>
      rw [List.append_nil] at h
      exact ⟨s', h, .nil⟩
  | append_singleton tr' e ih =>
      rw [← List.append_assoc] at h
      obtain ⟨s₂, hrun, he⟩ := run_snoc_iff.1 h
      obtain ⟨s₁, hfirst, hrest⟩ := ih hrun
      exact ⟨s₁, hfirst, hrest.snoc he⟩

/-- Each label of a run is a step from a state reached by the labels before it. -/
theorem Run.at {s s' : σ} {tr pre post : List ε} {e : ε} (h : Run step s tr s')
    (hsplit : tr = pre ++ e :: post) :
    ∃ s₁ s₂, Run step s pre s₁ ∧ step s₁ e s₂ ∧ Run step s₂ post s' := by
  rw [hsplit, List.append_cons] at h
  obtain ⟨s₂, hfirst, hrest⟩ := h.split
  obtain ⟨s₁, hpre, he⟩ := run_snoc_iff.1 hfirst
  exact ⟨s₁, s₂, hpre, he, hrest⟩

/-- A label of a run with the labels up to it. -/
theorem Run.of_mem {s s' : σ} {tr : List ε} {e : ε} (h : Run step s tr s') (he : e ∈ tr) :
    ∃ pre s₁ s₂, (∀ e' ∈ pre ++ [e], e' ∈ tr) ∧ Run step s pre s₁ ∧ step s₁ e s₂ := by
  obtain ⟨pre, post, rfl⟩ := List.append_of_mem he
  obtain ⟨s₁, s₂, hpre, hstep, -⟩ := h.at rfl
  refine ⟨pre, s₁, s₂, fun e' he' => ?_, hpre, hstep⟩
  rw [List.append_cons]
  exact List.mem_append_left _ he'

/-- What each of the last labels brings about holds at the end. -/
theorem Run.ends_with {s s' : σ} {pre tr : List ε} {e : ε} {P : σ → Prop}
    (h : Run step s (pre ++ e :: tr) s')
    (hP : ∀ e' ∈ e :: tr, ∀ s₁ s₂, step s₁ e' s₂ → P s₂) : P s' := by
  rcases List.eq_nil_or_concat tr with rfl | ⟨tr, e', rfl⟩
  · obtain ⟨s₁, -, hstep⟩ := run_snoc_iff.1 h
    exact hP e (List.mem_singleton_self e) s₁ s' hstep
  · rw [List.concat_eq_append, ← List.cons_append, ← List.append_assoc] at h
    obtain ⟨s₁, -, hstep⟩ := run_snoc_iff.1 h
    exact hP e' (by simp) s₁ s' hstep

/-- What holds at the end of a run and not at its start came about at some step and has held since:
    `Still` is what it means for a label that it held after the step. -/
theorem Run.since {s s' : σ} {tr : List ε} {P : σ → Prop} {Born Still : ε → Prop}
    (h : Run step s tr s') (hinit : ¬ P s)
    (hstep : ∀ tr s₁ e s₂, Run step s tr s₁ → step s₁ e s₂ → P s₂ → Still e ∧ (P s₁ ∨ Born e))
    (hP : P s') : ∃ pre e post, tr = pre ++ e :: post ∧ Born e ∧ ∀ e' ∈ e :: post, Still e' := by
  induction h with
  | nil => exact absurd hP hinit
  | @snoc tr s₁ s₂ e hrun he ih =>
      obtain ⟨hstill, hP₁ | hborn⟩ := hstep tr s₁ e s₂ hrun he hP
      · obtain ⟨pre, e₁, post, rfl, hborn, hsince⟩ := ih hP₁
        refine ⟨pre, e₁, post ++ [e], by simp, hborn, fun e' he' => ?_⟩
        rw [← List.cons_append, List.mem_append, List.mem_singleton] at he'
        rcases he' with he' | rfl
        · exact hsince e' he'
        · exact hstill
      · refine ⟨tr, e, [], rfl, hborn, fun e' he' => ?_⟩
        obtain rfl := List.mem_singleton.1 he'
        exact hstill

/-- `P` has happened, and `Q` has not happened since. -/
def Since (P Q : ε → Prop) (tr : List ε) : Prop :=
  ∃ pre e post, tr = pre ++ e :: post ∧ P e ∧ ∀ e' ∈ post, ¬ Q e'

theorem not_since_nil {P Q : ε → Prop} : ¬ Since P Q [] := by
  rintro ⟨pre, e, post, heq, -⟩
  exact absurd heq (by simp)

theorem since_snoc {P Q : ε → Prop} {tr : List ε} {e : ε} :
    Since P Q (tr ++ [e]) ↔ P e ∨ (Since P Q tr ∧ ¬ Q e) := by
  constructor
  · rintro ⟨pre, e₁, post, heq, hP, hpost⟩
    rcases List.eq_nil_or_concat post with rfl | ⟨post, e₂, rfl⟩
    · obtain ⟨-, hlast⟩ := List.append_inj' heq rfl
      obtain rfl := List.singleton_inj.1 hlast
      exact Or.inl hP
    · rw [List.concat_eq_append, ← List.cons_append, ← List.append_assoc] at heq
      obtain ⟨rfl, hlast⟩ := List.append_inj' heq rfl
      obtain rfl := List.singleton_inj.1 hlast
      exact Or.inr ⟨⟨pre, e₁, post, rfl, hP, fun e' he' => hpost e' (by simp [he'])⟩,
        hpost e (by simp)⟩
  · rintro (hP | ⟨⟨pre, e₁, post, rfl, hP, hpost⟩, hQ⟩)
    · exact ⟨tr, e, [], rfl, hP, by simp⟩
    · refine ⟨pre, e₁, post ++ [e], by simp, hP, fun e' he' => ?_⟩
      rcases List.mem_append.1 he' with he' | he'
      · exact hpost e' he'
      · rwa [List.mem_singleton.1 he']

/-- Of two things that exclude each other, one of which has happened, one was the last. -/
theorem since_iff_not_since {P Q : ε → Prop} {tr : List ε} (hexcl : ∀ e, P e → ¬ Q e)
    (hP : ∃ e ∈ tr, P e) : Since P Q tr ↔ ¬ Since Q P tr := by
  induction tr using List.reverseRecOn with
  | nil =>
      obtain ⟨e, he, -⟩ := hP
      exact absurd he (by simp)
  | append_singleton tr e ih =>
      rw [since_snoc, since_snoc]
      by_cases hPe : P e
      · simp [hPe, hexcl e hPe]
      · by_cases hQe : Q e
        · simp [hPe, hQe]
        · -- the last label says nothing
          obtain ⟨e₁, he₁, hPe₁⟩ := hP
          rcases List.mem_append.1 he₁ with he₁ | he₁
          · simp [hPe, hQe, ih ⟨e₁, he₁, hPe₁⟩]
          · rw [List.mem_singleton.1 he₁] at hPe₁
            exact absurd hPe₁ hPe

/-- Of two labels of a history, the first comes after the second or is it, or the second comes
    later. -/
theorem mem_or_later {x y : ε} {pre xs pre' ys : List ε} (h : pre ++ x :: xs = pre' ++ y :: ys) :
    x ∈ y :: ys ∨ ∃ mid, pre' = pre ++ x :: mid ∧ xs = mid ++ y :: ys := by
  rcases List.append_eq_append_iff.1 h with ⟨mid, rfl, hmid⟩ | ⟨mid, rfl, hmid⟩
  · cases mid with
    | nil =>
        obtain ⟨rfl, -⟩ := List.cons.inj hmid
        exact Or.inl (List.mem_cons_self ..)
    | cons z mid =>
        obtain ⟨rfl, rfl⟩ := List.cons.inj hmid
        exact Or.inr ⟨mid, rfl, rfl⟩
  · left
    rw [hmid]
    exact List.mem_append_right _ (List.mem_cons_self ..)

/-- What is read off a history grows at the end. -/
theorem filterMap_snoc {α : Type} (f : ε → Option α) (tr : List ε) (e : ε) :
    (tr ++ [e]).filterMap f = tr.filterMap f ++ (f e).toList := by
  rw [List.filterMap_append]
  cases he : f e with
  | none => rw [List.filterMap_cons_none he, List.filterMap_nil, Option.toList_none]
  | some x => rw [List.filterMap_cons_some he, List.filterMap_nil, Option.toList_some]

/-- The state a functional system reaches by a list of labels, if each can happen in turn. -/
def exec (next : σ → ε → Option σ) (s : σ) : List ε → Option σ
  | [] => some s
  | e :: tr => (next s e).bind (fun s' => exec next s' tr)

theorem Run.of_exec {next : σ → ε → Option σ} {tr : List ε} :
    ∀ {s s' : σ}, exec next s tr = some s' → Run (fun s e s' => next s e = some s') s tr s' := by
  induction tr with
  | nil =>
      intro s s' h
      obtain rfl := Option.some.inj h
      exact .nil
  | cons e tr ih =>
      intro s s' h
      obtain ⟨s₁, he, hrest⟩ := Option.bind_eq_some_iff.1 h
      exact (Run.single he).append (ih hrest)

/-! ## Ledgers -/

section Ledger

variable {ι κ : Type} [Fintype ι] {own : ι → Multiset κ}

/-- A share is part of the total. -/
theorem share_le_sum (i : ι) : own i ≤ ∑ j, own j :=
  Finset.single_le_sum (fun _ _ => Multiset.zero_le _) (Finset.mem_univ i)

variable [DecidableEq ι]

/-- When one agent's share changes, the total changes by the same amount. -/
theorem sum_add_eq_of_eq_off {M : Type} [AddCommMonoid M] {f f' : ι → M} (i : ι)
    (hoff : ∀ j, j ≠ i → f' j = f j) : ∑ j, f' j + f i = ∑ j, f j + f' i := by
  have hrest : ∑ j ∈ Finset.univ.erase i, f' j = ∑ j ∈ Finset.univ.erase i, f j :=
    Finset.sum_congr rfl (fun j hj => hoff j (Finset.ne_of_mem_erase hj))
  rw [← Finset.add_sum_erase Finset.univ f' (Finset.mem_univ i),
    ← Finset.add_sum_erase Finset.univ f (Finset.mem_univ i), hrest]
  abel

/-- If the total has no duplicates, no resource is owned by two agents. -/
theorem disjoint_of_nodup_sum (hnodup : (∑ j, own j).Nodup) {i j : ι} (hij : i ≠ j) {k : κ}
    (hi : k ∈ own i) : k ∉ own j := by
  intro hj
  have hle : own i + own j ≤ ∑ j, own j := by
    rw [← Finset.add_sum_erase Finset.univ own (Finset.mem_univ i)]
    have hmem : j ∈ Finset.univ.erase i := Finset.mem_erase.2 ⟨Ne.symm hij, Finset.mem_univ j⟩
    exact add_le_add_right (Finset.single_le_sum (fun _ _ => Multiset.zero_le _) hmem) _
  have := Multiset.nodup_add.1 (Multiset.nodup_of_le hle hnodup)
  exact Multiset.disjoint_left.1 this.2.2 hi hj

end Ledger

end Trace
