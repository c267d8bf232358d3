import Miuturn.ConcurrentPorts
import Miuturn.PortSearch

set_option autoImplicit false

/-! # Concurrent callers get their answers

`ConcurrentPorts.lean` shows that no port has two holders. Here: under every schedule the callers
together get on, so that every call of `allocate` and `release` has returned soon after the last one
was started; and an `allocate` that returns no port has seen every port taken. (While others keep
starting calls, a single call may lose every exchange.)

The loops have no bound of their own: an exchange that fails is tried again. But an exchange fails
because another one has succeeded since the word was read, or spuriously; and the call whose
exchange succeeds is done with exchanging. So each success is worth one failure of every other
caller, and this is the potential that the atomic operations use up.

A call that returns no port has not seen one moment at which all ports were taken: it reads word
after word, and other callers take and release ports meanwhile. What it has seen is, for each port,
a moment at which that port was taken. -/

open RustStd

namespace Miuturn

namespace ConcurrentPorts

variable (r : PortRange) {ι : Type}

/-- How much a call has left to do, if no exchange fails. -/
def rank : Pc → ℕ
  | .idle => 0
  | .load _ _ bitmapIdx => 3 * (r.numWords - bitmapIdx) + 4
  | .probe _ _ bitmapIdx _ _ => 3 * (r.numWords - bitmapIdx) + 3
  | .lowest _ _ bitmapIdx _ _ => 3 * (r.numWords - bitmapIdx) + 2
  | .countUp _ _ => 1
  | .releaseLoad _ => 3
  | .releaseSwap _ _ => 2
  | .countDown => 1

/-- Will the next exchange fail because the word has changed? -/
def stale (mem : Memory) : Pc → ℕ
  | .probe startIdx _ bitmapIdx current _ | .lowest startIdx _ bitmapIdx current _ =>
    if mem.allocated.word (r.actualIdx startIdx bitmapIdx) = current then 0 else 1
  | .releaseSwap port current =>
    if mem.allocated.word (position r port / 64) = current then 0 else 1
  | _ => 0

/-- Can the call still change the bitmap? -/
def pending : Pc → ℕ
  | .load _ _ _ | .probe _ _ _ _ _ | .lowest _ _ _ _ _ | .releaseLoad _ | .releaseSwap _ _ => 1
  | .idle | .countUp _ _ | .countDown => 0

/-- What a call adds to the potential, among `n` callers. -/
def weight (n : ℕ) (mem : Memory) (pc : Pc) : ℕ := rank r pc + stale r mem pc + n * pending pc

variable {r}

theorem stale_le_one (mem : Memory) (pc : Pc) : stale r mem pc ≤ 1 := by
  cases pc <;> simp only [stale] <;> (try split) <;> omega

theorem pending_le_one (pc : Pc) : pending pc ≤ 1 := by
  cases pc <;> simp [pending]

theorem rank_le (pc : Pc) : rank r pc ≤ 3 * r.numWords + 4 := by
  cases pc <;> simp only [rank] <;> omega

/-- The next word is less work, and nothing stale is carried into it. -/
theorem weight_nextWord (n : ℕ) (mem : Memory) (s o k : ℕ) :
    weight r n mem (nextWord r s o (k + 1)) ≤ 3 * (r.numWords - k) + 1 + n := by
  unfold nextWord
  split
  · simp only [weight, rank, stale, pending]
    omega
  · simp only [weight, rank, stale, pending]
    omega

/-- And so is another try with the word as it is now. -/
theorem weight_tryLowest (n : ℕ) (mem : Memory) (s o k : ℕ) :
    weight r n mem (tryLowest r s o k (mem.allocated.word (r.actualIdx s k)))
      ≤ 3 * (r.numWords - k) + 2 + n := by
  unfold tryLowest
  split
  · simp only [weight, rank, stale, pending, if_true]
    omega
  · exact (weight_nextWord n mem s o k).trans (by omega)

theorem weight_afterLoad (n : ℕ) (mem : Memory) (s o k : ℕ) :
    weight r n mem (afterLoad r s o k (mem.allocated.word (r.actualIdx s k)))
      ≤ 3 * (r.numWords - k) + 3 + n := by
  unfold afterLoad
  split
  · exact (weight_nextWord n mem s o k).trans (by omega)
  · split
    · simp only [weight, rank, stale, pending, if_true]
      omega
    · exact (weight_tryLowest n mem s o k).trans (by omega)

theorem weight_tryRelease (n : ℕ) (mem : Memory) (port : UInt16) :
    weight r n mem (tryRelease r port (mem.allocated.word (position r port / 64))) ≤ 2 + n := by
  unfold tryRelease
  split
  · simp only [weight, rank, stale, pending]
    omega
  · simp only [weight, rank, stale, pending, if_true]
    omega

variable [Fintype ι] [DecidableEq ι]

section Potential

variable (r) (st : State ι)

/-- The potential of all calls. -/
def potential : ℕ := ∑ i, weight r (Fintype.card ι) st.memory (st.pc i)

/-- What becomes of the potential if one caller moves and the others' next exchanges may go
    stale. -/
theorem potential_update (i : ι) (mem : Memory) (pc : Pc) (held : ι → List UInt16) {δ : ℕ}
    (hδ : ∀ p, stale r mem p ≤ stale r st.memory p + δ) :
    potential r ⟨mem, Function.update st.pc i pc, held⟩
        + weight r (Fintype.card ι) st.memory (st.pc i)
      ≤ potential r st + weight r (Fintype.card ι) mem pc + (Fintype.card ι - 1) * δ := by
  have hothers : ∑ j ∈ Finset.univ.erase i,
        weight r (Fintype.card ι) mem (Function.update st.pc i pc j)
      ≤ ∑ j ∈ Finset.univ.erase i, (weight r (Fintype.card ι) st.memory (st.pc j) + δ) := by
    refine Finset.sum_le_sum fun j hj => ?_
    rw [Function.update_of_ne (Finset.ne_of_mem_erase hj)]
    have := hδ (st.pc j)
    unfold weight
    omega
  have hconst : ∑ _ ∈ Finset.univ.erase i, δ = (Fintype.card ι - 1) * δ := by
    rw [Finset.sum_const_nat (fun _ _ => rfl), Finset.card_erase_of_mem (Finset.mem_univ i),
      Finset.card_univ]
  have hbefore := Finset.add_sum_erase Finset.univ
    (fun j => weight r (Fintype.card ι) st.memory (st.pc j)) (Finset.mem_univ i)
  have hafter := Finset.add_sum_erase Finset.univ
    (fun j => weight r (Fintype.card ι) mem (Function.update st.pc i pc j)) (Finset.mem_univ i)
  rw [Function.update_self] at hafter
  rw [Finset.sum_add_distrib, hconst] at hothers
  unfold potential
  dsimp only
  omega

/-- A move that leaves the bitmap alone. -/
theorem potential_of_quiet (i : ι) (mem : Memory) (hmem : mem.allocated = st.memory.allocated)
    (pc : Pc) (held : ι → List UInt16) :
    potential r ⟨mem, Function.update st.pc i pc, held⟩
        + weight r (Fintype.card ι) st.memory (st.pc i)
      ≤ potential r st + weight r (Fintype.card ι) st.memory pc := by
  have hstale : ∀ p, stale r mem p = stale r st.memory p := by
    intro p
    cases p <;> simp only [stale, hmem]
  have h := potential_update r st i mem pc held (δ := 0) (fun p => (hstale p).le)
  have hweight : weight r (Fintype.card ι) mem pc = weight r (Fintype.card ι) st.memory pc := by
    rw [weight, weight, hstale]
  rw [hweight, Nat.mul_zero] at h
  exact h

/-- A successful exchange pays for the failures it causes. -/
theorem potential_of_exchange (i : ι) (mem : Memory) (pc : Pc) (held : ι → List UInt16)
    (hbefore : 2 + Fintype.card ι ≤ weight r (Fintype.card ι) st.memory (st.pc i))
    (hafter : weight r (Fintype.card ι) mem pc = 1) :
    potential r ⟨mem, Function.update st.pc i pc, held⟩ + 1 ≤ potential r st := by
  have h := potential_update r st i mem pc held (δ := 1)
    (fun p => (stale_le_one mem p).trans (Nat.le_add_left _ _))
  have hpos : 0 < Fintype.card ι := Fintype.card_pos_iff.2 ⟨i⟩
  omega

/-- Either exchange of `allocate`, in round `k`: the call weighs at least this before it. -/
theorem potential_of_take (i : ι) (spurious : Bool) (s o k : ℕ) (current : Word) (bit : ℕ)
    {pc : Pc} (hpc : st.pc i = pc)
    (hrank : 3 * (r.numWords - k) + 2 ≤ rank r pc) (hpending : pending pc = 1)
    (hstale : st.memory.allocated.word (r.actualIdx s k) ≠ current → stale r st.memory pc = 1)
    {mem : Memory} {pc' : Pc} {returned : Option UInt16}
    (hadv : advance r st.memory spurious (.lowest s o k current bit) = (mem, pc', returned)) :
    potential r ⟨mem, Function.update st.pc i pc',
        Function.update st.held i (returned.toList ++ st.held i)⟩ + 1
      ≤ potential r st + spurious.toNat := by
  have hweight : 3 * (r.numWords - k) + 2 + stale r st.memory pc + Fintype.card ι
      ≤ weight r (Fintype.card ι) st.memory (st.pc i) := by
    rw [hpc, weight, hpending]
    omega
  simp only [advance] at hadv
  split at hadv
  · obtain ⟨rfl, rfl, rfl⟩ := hadv
    have := potential_of_exchange r st i
      ⟨st.memory.allocated.set (r.actualIdx s k) (current ||| BitVec.twoPow 64 bit),
        st.memory.allocatedCount⟩ (.countUp (r.actualIdx s k) bit)
      (Function.update st.held i (none.toList ++ st.held i)) (by omega) rfl
    omega
  · next hfailed =>
      obtain ⟨rfl, rfl, rfl⟩ := hadv
      have h := potential_of_quiet r st i st.memory rfl
        (tryLowest r s o k (st.memory.allocated.word (r.actualIdx s k)))
        (Function.update st.held i (none.toList ++ st.held i))
      have hafter := weight_tryLowest (r := r) (Fintype.card ι) st.memory s o k
      -- the exchange has failed because the word has changed, or spuriously
      by_cases hword : st.memory.allocated.word (r.actualIdx s k) = current
      · have hspurious : spurious = true := Bool.eq_true_of_not_eq_false fun h => hfailed ⟨hword, h⟩
        rw [hspurious, Bool.toNat_true]
        omega
      · have := hstale hword
        omega

/-- The exchange of `release`. -/
theorem potential_of_clear (i : ι) (spurious : Bool) {port : UInt16} {current : Word}
    (hpc : st.pc i = .releaseSwap port current) {mem : Memory} {pc' : Pc}
    {returned : Option UInt16}
    (hadv : advance r st.memory spurious (.releaseSwap port current) = (mem, pc', returned)) :
    potential r ⟨mem, Function.update st.pc i pc',
        Function.update st.held i (returned.toList ++ st.held i)⟩ + 1
      ≤ potential r st + spurious.toNat := by
  have hweight : weight r (Fintype.card ι) st.memory (st.pc i)
      = 2 + stale r st.memory (.releaseSwap port current) + Fintype.card ι := by
    rw [hpc, weight, rank, pending, Nat.mul_one]
  simp only [advance] at hadv
  split at hadv
  · obtain ⟨rfl, rfl, rfl⟩ := hadv
    have := potential_of_exchange r st i
      ⟨st.memory.allocated.set (position r port / 64)
        (current &&& ~~~BitVec.twoPow 64 (position r port % 64)),
        st.memory.allocatedCount⟩ .countDown
      (Function.update st.held i (none.toList ++ st.held i)) (by omega) rfl
    omega
  · next hfailed =>
      obtain ⟨rfl, rfl, rfl⟩ := hadv
      have h := potential_of_quiet r st i st.memory rfl
        (tryRelease r port (st.memory.allocated.word (position r port / 64)))
        (Function.update st.held i (none.toList ++ st.held i))
      have hafter := weight_tryRelease (r := r) (Fintype.card ι) st.memory port
      by_cases hword : st.memory.allocated.word (position r port / 64) = current
      · have hspurious : spurious = true := Bool.eq_true_of_not_eq_false fun h => hfailed ⟨hword, h⟩
        rw [hspurious, Bool.toNat_true]
        omega
      · rw [stale, if_neg hword] at hweight
        omega

end Potential

variable {st : State ι}

/-- Each atomic operation lowers the potential, but for an exchange that fails spuriously. -/
theorem potential_atomic (i : ι) (spurious : Bool) {st' : State ι}
    (hstep : Step r st (i, .atomic spurious) st') :
    potential r st' + 1 ≤ potential r st + spurious.toNat := by
  simp only [Step, act] at hstep
  split at hstep
  · exact absurd hstep (by simp)
  · next hbusy =>
      obtain rfl := Option.some.inj hstep
      cases hpc : st.pc i with
      | idle => exact absurd hpc hbusy
      | load s o k =>
          have h := potential_of_quiet r st i st.memory rfl
            (afterLoad r s o k (st.memory.allocated.word (r.actualIdx s k)))
            (Function.update st.held i (none.toList ++ st.held i))
          have hafter := weight_afterLoad (r := r) (Fintype.card ι) st.memory s o k
          rw [hpc] at h
          have hbefore : weight r (Fintype.card ι) st.memory (.load s o k)
              = 3 * (r.numWords - k) + 4 + Fintype.card ι := by simp [weight, rank, stale, pending]
          simp only [advance]
          omega
      | probe s o k current bit =>
          exact potential_of_take r st i spurious s o k current bit hpc (by simp only [rank]; omega)
            rfl (fun hword => if_neg hword) rfl
      | lowest s o k current bit =>
          exact potential_of_take r st i spurious s o k current bit hpc le_rfl rfl
            (fun hword => if_neg hword) rfl
      | countUp idx bit =>
          have h := potential_of_quiet r st i
            ⟨st.memory.allocated, st.memory.allocatedCount + 1⟩ rfl .idle
            (Function.update st.held i
              ((some (r.minPort + PortRange.portIndex idx bit)).toList ++ st.held i))
          rw [hpc] at h
          simp only [weight, rank, stale, pending, advance] at h ⊢
          omega
      | releaseLoad port =>
          have h := potential_of_quiet r st i st.memory rfl
            (tryRelease r port (st.memory.allocated.word (position r port / 64)))
            (Function.update st.held i (none.toList ++ st.held i))
          have hafter := weight_tryRelease (r := r) (Fintype.card ι) st.memory port
          rw [hpc] at h
          have hbefore : weight r (Fintype.card ι) st.memory (.releaseLoad port)
              = 3 + Fintype.card ι := by simp [weight, rank, stale, pending]
          simp only [advance]
          omega
      | releaseSwap port current => exact potential_of_clear r st i spurious hpc rfl
      | countDown =>
          have h := potential_of_quiet r st i
            ⟨st.memory.allocated, st.memory.allocatedCount - 1⟩ rfl .idle
            (Function.update st.held i (none.toList ++ st.held i))
          rw [hpc] at h
          simp only [weight, rank, stale, pending, advance] at h ⊢
          omega

/-- An idle caller starts a call. -/
theorem potential_call {i : ι} (hidle : st.pc i = .idle) {pc : Pc} {held : ι → List UInt16}
    (hpc : weight r (Fintype.card ι) st.memory pc ≤ 3 * r.numWords + 4 + Fintype.card ι) :
    potential r ⟨st.memory, Function.update st.pc i pc, held⟩ + 1
      ≤ potential r st + (3 * r.numWords + 4 + Fintype.card ι + 1) := by
  have h := potential_of_quiet r st i st.memory rfl pc held
  have hzero : weight r (Fintype.card ι) st.memory .idle = 0 := by
    simp [weight, rank, stale, pending]
  rw [hidle, hzero] at h
  omega

omit [DecidableEq ι] in
theorem weight_le (mem : Memory) {pc : Pc} (hstale : stale r mem pc = 0) :
    weight r (Fintype.card ι) mem pc ≤ 3 * r.numWords + 4 + Fintype.card ι := by
  have hrank := rank_le (r := r) pc
  have hpending := Nat.mul_le_mul_left (Fintype.card ι) (pending_le_one pc)
  unfold weight
  omega

/-! ## The cost of a run -/

/-- Does the action start a call? -/
def Action.isCall : Action → Bool
  | .allocate _ _ | .release _ => true
  | .atomic _ => false

/-- Does the schedule make an exchange fail here? -/
def Action.isSpurious : Action → Bool
  | .atomic spurious => spurious
  | _ => false

variable (r ι) in
/-- What an action adds to the potential, and one for itself. -/
def credit : Action → ℕ
  | .atomic spurious => spurious.toNat
  | _ => 3 * r.numWords + 4 + Fintype.card ι + 1

theorem potential_step {e : ι × Action} {st' : State ι} (hstep : Step r st e st') :
    potential r st' + 1 ≤ potential r st + credit r ι e.2 := by
  obtain ⟨i, action⟩ := e
  cases action with
  | allocate startRand bitRand =>
      simp only [Step, act] at hstep
      split at hstep
      · next hidle =>
          obtain rfl := Option.some.inj hstep
          refine potential_call hidle (weight_le _ ?_)
          unfold nextWord
          split <;> rfl
      · exact absurd hstep (by simp)
  | release port =>
      simp only [Step, act] at hstep
      split at hstep
      · next hheld =>
          obtain rfl := Option.some.inj hstep
          refine potential_call hheld.1 (weight_le _ ?_)
          unfold startRelease
          split
          · rfl
          · split <;> rfl
      · exact absurd hstep (by simp)
  | atomic spurious => exact potential_atomic i spurious hstep

omit [DecidableEq ι] in
theorem sum_credit (tr : List (ι × Action)) :
    (tr.map fun e => credit r ι e.2).sum
      = tr.countP (fun e => e.2.isCall) * (3 * r.numWords + 4 + Fintype.card ι + 1)
        + tr.countP (fun e => e.2.isSpurious) := by
  induction tr with
  | nil => simp
  | cons e tr ih =>
      rw [List.map_cons, List.sum_cons, ih, List.countP_cons, List.countP_cons]
      obtain ⟨i, action⟩ := e
      cases action with
      | allocate _ _ | release _ =>
          simp only [credit, Action.isCall, Action.isSpurious, if_true, Bool.false_eq_true,
            if_false]
          rw [Nat.add_mul]
          omega
      | atomic spurious => cases spurious <;> simp [credit, Action.isCall, Action.isSpurious]; omega

/-- However the calls of `n` callers are scheduled, a run spends at most `3 * w + 4 + n` atomic
    operations for each call started in it, where the bitmap has `w` words, not counting exchanges
    that fail spuriously. -/
theorem operations_le {a : PortAllocator} {tr : List (ι × Action)} {st : State ι}
    (hrun : Trace.Run (Step a.toPortRange) (start a) tr st) :
    tr.countP (fun e => !e.2.isCall)
      ≤ tr.countP (fun e => e.2.isCall) * (3 * a.numWords + 4 + Fintype.card ι)
        + tr.countP (fun e => e.2.isSpurious) := by
  have hlen := hrun.length_le (potential a.toPortRange) (fun e => credit a.toPortRange ι e.2)
    (fun _ _ _ => potential_step)
  have hstart : potential a.toPortRange (start a : State ι) = 0 := by
    simp [potential, start, weight, rank, stale, pending]
  have hcount := List.length_eq_countP_add_countP (fun e : ι × Action => e.2.isCall) (l := tr)
  rw [hstart, sum_credit, Nat.mul_succ] at hlen
  simp only [Bool.not_eq_true, Bool.decide_eq_false] at hcount
  omega

omit [Fintype ι] in
/-- No call waits for another caller. -/
theorem exists_step {a : PortAllocator} {st : State ι} {i : ι} (hbusy : st.pc i ≠ .idle) :
    ∃ st', Step a.toPortRange st (i, .atomic false) st' :=
  ⟨_, by simp only [Step, act, if_neg hbusy]; rfl⟩

/-- **Calls return.** The operations of a run are bounded by the calls started in it, spurious
    failures apart; a call in progress can always go on; and when no more calls start, all have
    returned after so many operations, in whatever order they come. -/
theorem calls_return {a : PortAllocator} {tr : List (ι × Action)} {st : State ι}
    (hrun : Trace.Run (Step a.toPortRange) (start a) tr st) :
    tr.countP (fun e => !e.2.isCall)
        ≤ tr.countP (fun e => e.2.isCall) * (3 * a.numWords + 4 + Fintype.card ι)
          + tr.countP (fun e => e.2.isSpurious) ∧
      (∀ i, st.pc i ≠ .idle → ∃ st', Step a.toPortRange st (i, .atomic false) st') ∧
      ∀ later st', Trace.Run (Step a.toPortRange) st later st' →
        (∀ e ∈ later, e.2.isCall = false) →
        tr.countP (fun e => e.2.isCall) * (3 * a.numWords + 4 + Fintype.card ι)
          + (tr ++ later).countP (fun e => e.2.isSpurious) ≤ later.length →
        ∀ i, st'.pc i = .idle := by
  refine ⟨operations_le hrun, fun i hbusy => exists_step hbusy, ?_⟩
  intro later st' hlater hnone hlong i
  by_contra hbusy
  -- one more operation would be one too many
  obtain ⟨st'', hstep⟩ := exists_step hbusy
  have hbound := operations_le ((hrun.append hlater).snoc hstep)
  have hcalls : later.countP (fun e => e.2.isCall) = 0 := by
    rw [List.countP_eq_zero]
    intro e he
    simp [hnone e he]
  have hoperations : later.countP (fun e => !e.2.isCall) = later.length := by
    rw [List.countP_eq_length]
    intro e he
    simp [hnone e he]
  have hcall : (Action.atomic false).isCall = false := rfl
  have hspurious : (Action.atomic false).isSpurious = false := rfl
  simp only [List.countP_append, List.countP_singleton, hcall, hspurious, hcalls, hoperations,
    Bool.not_false, Bool.false_eq_true, if_true, if_false, Nat.add_zero] at hbound hlong
  omega

/-- Two callers race for the first port of a range of two, and the loser's second exchange fails
    spuriously: eight operations for two calls. -/
theorem calls_return_race : ∃ (a : PortAllocator) (st : State (Fin 2)),
    Trace.Run (Step a.toPortRange) (start a)
      [(0, .allocate 0 0), (1, .allocate 0 0), (0, .atomic false), (1, .atomic false),
        (0, .atomic false), (1, .atomic false), (1, .atomic true), (1, .atomic false),
        (1, .atomic false), (0, .atomic false)] st ∧
    (∀ i, st.pc i = .idle) ∧ 8 ≤ 2 * (3 * a.numWords + 4 + Fintype.card (Fin 2)) + 1 := by
  let a : PortAllocator :=
    { minPort := 5, maxPort := 6, portCount := 2, size := by decide, nonempty := by decide,
      allocated := [0#64], allocatedCount := 0, words := by decide }
  have hexec : (Trace.exec (fun st e => act a.toPortRange st e.1 e.2) (start a : State (Fin 2))
      [(0, .allocate 0 0), (1, .allocate 0 0), (0, .atomic false), (1, .atomic false),
        (0, .atomic false), (1, .atomic false), (1, .atomic true), (1, .atomic false),
        (1, .atomic false), (0, .atomic false)]).map (fun st => (st.pc 0, st.pc 1))
      = some (.idle, .idle) := by decide +kernel
  obtain ⟨st, hst, hpc⟩ := Option.map_eq_some_iff.1 hexec
  obtain ⟨h0, h1⟩ := Prod.ext_iff.1 hpc
  exact ⟨a, st, Trace.Run.of_exec hst, Fin.forall_fin_two.2 ⟨h0, h1⟩,
    (calls_return (Trace.Run.of_exec hst)).1⟩

/-! ## What `None` means -/

section Looked

variable (r) {Seen Seen' : ℕ → Prop} {held₀ : List UInt16}

/-- The positions of the range in word `idx` have been seen taken. -/
def WordSeen (Seen : ℕ → Prop) (idx : ℕ) : Prop :=
  ∀ bit < 64, idx * 64 + bit < r.portCount.toNat → Seen (idx * 64 + bit)

/-- How far an `allocate` of a caller that held `held₀` has come: the words of the rounds before
    this one have been seen full. -/
def Looked (Seen : ℕ → Prop) (held₀ : List UInt16) (pc : Pc) (held : List UInt16) : Prop :=
  match pc with
  | .load s _ k | .probe s _ k _ _ | .lowest s _ k _ _ =>
    held = held₀ ∧ ∀ round < k, WordSeen r Seen (r.actualIdx s round)
  | .countUp _ _ => held = held₀
  | .idle => held = held₀ → ∀ k < r.portCount.toNat, Seen k
  | .releaseLoad _ | .releaseSwap _ _ | .countDown => False

variable {r}

theorem Looked.mono (hsub : ∀ k, Seen k → Seen' k) {pc : Pc} {held : List UInt16}
    (h : Looked r Seen held₀ pc held) : Looked r Seen' held₀ pc held := by
  cases pc with
  | load _ _ _ | probe _ _ _ _ _ | lowest _ _ _ _ _ =>
      exact ⟨h.1, fun round hround bit hbit hk => hsub _ (h.2 round hround bit hbit hk)⟩
  | countUp _ _ => exact h
  | idle => exact fun hheld k hk => hsub k (h hheld k hk)
  | releaseLoad _ | releaseSwap _ _ | countDown => exact h

/-- The rounds visit every word, so after the last one every port has been seen taken. -/
theorem looked_nextWord (s o k : ℕ)
    (hseen : ∀ round < k, WordSeen r Seen (r.actualIdx s round)) :
    Looked r Seen held₀ (nextWord r s o k) held₀ := by
  unfold nextWord
  split
  · exact ⟨rfl, hseen⟩
  · next hlast =>
      intro _ j hj
      have hword : j / 64 < r.numWords := by
        unfold PortRange.numWords
        omega
      obtain ⟨round, hround, hidx⟩ := PortAllocator.exists_actualIdx r s hword
      have hsplit : j / 64 * 64 + j % 64 = j := by omega
      have hseen := hseen round (by omega) (j % 64) (Nat.mod_lt _ (by decide))
      rw [hidx, hsplit] at hseen
      exact hseen hj

variable {s k : ℕ} {current : Word}
  (hseen : ∀ round < k, WordSeen r Seen (r.actualIdx s round))
  (hcurrent : ∀ bit < 64, current.getLsbD bit = true → Seen (r.actualIdx s k * 64 + bit))

include hseen hcurrent

/-- A word without a free bit ends its round. -/
theorem looked_of_full (o : ℕ) (hfull : r.Full (r.actualIdx s k) current) :
    Looked r Seen held₀ (nextWord r s o (k + 1)) held₀ := by
  refine looked_nextWord s o (k + 1) fun round hround bit hbit hk => ?_
  rcases Nat.lt_succ_iff_lt_or_eq.1 hround with hbefore | rfl
  · exact hseen round hbefore bit hbit hk
  · exact hcurrent bit hbit (hfull bit hbit hk)

theorem looked_tryLowest (o : ℕ) : Looked r Seen held₀ (tryLowest r s o k current) held₀ := by
  unfold tryLowest
  split
  · exact ⟨rfl, hseen⟩
  · next hnone =>
      exact looked_of_full hseen hcurrent o
        (PortRange.full_of_lowestFree (r.actualIdx_lt s k) hnone)

theorem looked_afterLoad (o : ℕ) : Looked r Seen held₀ (afterLoad r s o k current) held₀ := by
  unfold afterLoad
  split
  · next hones =>
      exact looked_of_full hseen hcurrent o (by rw [hones]; exact r.full_allOnes _)
  · split
    · exact ⟨rfl, hseen⟩
    · exact looked_tryLowest hseen hcurrent o

end Looked

/-- An atomic operation of the call, when what is marked in the memory has been seen. -/
theorem looked_advance {Seen : ℕ → Prop} {held₀ held : List UInt16} {pc : Pc} {mem : Memory}
    (h : Looked r Seen held₀ pc held) (hbusy : pc ≠ .idle)
    (hmem : ∀ k, mem.allocated.bit k = true → Seen k) (spurious : Bool) :
    Looked r Seen held₀ (advance r mem spurious pc).2.1
      ((advance r mem spurious pc).2.2.toList ++ held) := by
  have hword : ∀ s k, ∀ bit < 64,
      (mem.allocated.word (r.actualIdx s k)).getLsbD bit = true →
      Seen (r.actualIdx s k * 64 + bit) := fun s k bit hbit hset =>
    hmem _ (Bitmap.mem_setBits.1 (Bitmap.mem_setBits_pos hbit hset))
  cases pc with
  | idle => exact absurd rfl hbusy
  | load s o k =>
      obtain ⟨rfl, hseen⟩ := h
      exact looked_afterLoad hseen (hword s k) o
  | probe s o k current bit | lowest s o k current bit =>
      obtain ⟨rfl, hseen⟩ := h
      simp only [advance]
      split
      · exact rfl
      · exact looked_tryLowest hseen (hword s k) o
  | countUp idx bit =>
      intro hheld
      have hlen := congrArg List.length hheld
      simp only [Looked] at h
      simp [advance, h] at hlen
  | releaseLoad _ | releaseSwap _ _ | countDown => exact h.elim

omit [Fintype ι] in
/-- A caller stays where it is while others act. -/
theorem step_of_ne {e : ι × Action} {st' : State ι} (hstep : Step r st e st') {i : ι}
    (hi : i ≠ e.1) : st'.pc i = st.pc i ∧ st'.held i = st.held i := by
  obtain ⟨j, action⟩ := e
  cases action with
  | allocate _ _ | release _ =>
      simp only [Step, act] at hstep
      split at hstep
      · obtain rfl := Option.some.inj hstep
        exact ⟨by simp [hi], by simp [hi]⟩
      · exact absurd hstep (by simp)
  | atomic _ =>
      simp only [Step, act] at hstep
      split at hstep
      · exact absurd hstep (by simp)
      · obtain rfl := Option.some.inj hstep
        exact ⟨by simp [hi], by simp [hi]⟩

/-- The actions of caller `i` in a run are atomic operations: it starts no other call. -/
def SameCall (i : ι) (tr : List (ι × Action)) : Prop :=
  ∀ e ∈ tr, e.1 = i → e.2.isCall = false

variable (r) in
/-- In the run `tr` from `st₁` to `st` there is a moment at which position `k` is marked. -/
def Marked (st₁ : State ι) (tr : List (ι × Action)) (st : State ι) (k : ℕ) : Prop :=
  Trace.Passes (Step r) st₁ tr st fun st' => st'.memory.allocated.bit k = true

omit [Fintype ι] in
theorem looked_step {st₁ st' : State ι} {tr : List (ι × Action)} {e : ι × Action} {i : ι}
    {held₀ : List UInt16} (hrun : Trace.Run (Step r) st₁ tr st) (hstep : Step r st e st')
    (hatomic : e.1 = i → e.2.isCall = false)
    (h : Looked r (Marked r st₁ tr st) held₀ (st.pc i) (st.held i)) :
    Looked r (Marked r st₁ (tr ++ [e]) st') held₀ (st'.pc i) (st'.held i) := by
  have hlater : Looked r (Marked r st₁ (tr ++ [e]) st') held₀ (st.pc i) (st.held i) :=
    h.mono fun _ hk => Trace.Passes.snoc hk hstep
  by_cases hi : i = e.1
  · obtain ⟨j, action⟩ := e
    obtain rfl := hi
    cases action with
    | allocate _ _ | release _ => exact absurd (hatomic rfl) (by simp [Action.isCall])
    | atomic spurious =>
        have hmem : ∀ k, st.memory.allocated.bit k = true →
            Marked r st₁ (tr ++ [(i, .atomic spurious)]) st' k := fun k hk =>
          Trace.Passes.snoc (hrun.passes hk) hstep
        simp only [Step, act] at hstep
        split at hstep
        · exact absurd hstep (by simp)
        · next hbusy =>
            have hnext := looked_advance hlater hbusy hmem spurious
            obtain rfl := Option.some.inj hstep
            simpa only [Function.update_self] using hnext
  · obtain ⟨hpc, hheld⟩ := step_of_ne hstep hi
    rw [hpc, hheld]
    exact hlater

omit [Fintype ι] in
theorem looked_run {st₁ : State ι} {tr : List (ι × Action)} {i : ι} {held₀ : List UInt16}
    (hstart : Looked r (Marked r st₁ [] st₁) held₀ (st₁.pc i) (st₁.held i))
    (hrun : Trace.Run (Step r) st₁ tr st) :
    SameCall i tr → Looked r (Marked r st₁ tr st) held₀ (st.pc i) (st.held i) := by
  refine hrun.invariant
    (P := fun tr st => SameCall i tr → Looked r (Marked r st₁ tr st) held₀ (st.pc i) (st.held i))
    (fun _ => hstart) ?_
  intro tr st e st' hrun ih hstep hsame
  exact looked_step hrun hstep (hsame e (by simp))
    (ih fun e' he' => hsame e' (List.mem_append_left _ he'))

/-- **`None` means taken.** If an `allocate` returns no port, however the other callers' operations
    fall between its own, then for each port of the range there is a moment between its first
    operation and its last at which the port is somebody's: held, about to be returned by an
    `allocate` or not yet freed by a `release`. -/
theorem none_means_taken {minPort maxPort : UInt16} {a : PortAllocator}
    (hnew : PortAllocator.new minPort maxPort = .ok a) {tr₀ tr : List (ι × Action)}
    {st₀ st₁ st : State ι} {i : ι} {startRand bitRand : UInt64}
    (hbefore : Trace.Run (Step a.toPortRange) (start a) tr₀ st₀)
    (hcall : Step a.toPortRange st₀ (i, .allocate startRand bitRand) st₁)
    (hrun : Trace.Run (Step a.toPortRange) st₁ tr st) (hsame : SameCall i tr)
    (hdone : st.pc i = .idle) (hnone : st.held i = st₀.held i)
    {port : UInt16} (hmin : minPort ≤ port) (hmax : port ≤ maxPort) :
    Trace.Passes (Step a.toPortRange) st₁ tr st fun st' =>
      ∃ j, position a.toPortRange port ∈ share a.toPortRange (st'.pc j) (st'.held j) := by
  obtain ⟨rfl, rfl, hempty, hcount⟩ := PortAllocator.new_eq_ok hnew
  have hstart : Looked a.toPortRange (Marked a.toPortRange st₁ [] st₁) (st₀.held i) (st₁.pc i)
      (st₁.held i) := by
    simp only [Step, act] at hcall
    split at hcall
    · obtain rfl := Option.some.inj hcall
      dsimp only
      rw [Function.update_self]
      exact looked_nextWord _ _ 0 (fun _ hround => absurd hround (Nat.not_lt_zero _))
    · exact absurd hcall (by simp)
  have hlooked := looked_run hstart hrun hsame
  rw [hdone] at hlooked
  obtain ⟨tr₁, tr₂, st', rfl, hrun₁, hrun₂, hbit⟩ := hlooked hnone _ (position_lt hmin hmax)
  refine ⟨tr₁, tr₂, st', rfl, hrun₁, hrun₂, ?_⟩
  -- at that moment the ledger says whose the port is
  have hinv : Inv a.toPortRange st' :=
    ((hbefore.snoc hcall).append hrun₁).invariant (P := fun _ st => Inv a.toPortRange st)
      (inv_start hempty hcount) (fun _ _ _ _ _ hinv hstep => inv_step hinv hstep)
  exact hinv.exists_share (Bitmap.mem_setBits.2 hbit)

/-- Two callers race for the only port: the loser gets none before the winner's call has
    returned. -/
theorem none_means_taken_race : ∃ (a : PortAllocator) (st₀ st₁ st : State (Fin 2)),
    PortAllocator.new 5 5 = .ok a ∧
    Trace.Run (Step a.toPortRange) (start a) [(0, .allocate 0 0)] st₀ ∧
    Step a.toPortRange st₀ (1, .allocate 0 0) st₁ ∧
    Trace.Run (Step a.toPortRange) st₁
      [(0, .atomic false), (1, .atomic false), (0, .atomic false), (1, .atomic false)] st ∧
    st.pc 1 = .idle ∧ st.held 1 = st₀.held 1 ∧ st.held 0 = [] ∧
    Trace.Passes (Step a.toPortRange) st₁
      [(0, .atomic false), (1, .atomic false), (0, .atomic false), (1, .atomic false)] st
      (fun st' => ∃ j, position a.toPortRange 5 ∈ share a.toPortRange (st'.pc j) (st'.held j)) := by
  let a : PortAllocator :=
    { minPort := 5, maxPort := 5, portCount := 1, size := by decide, nonempty := by decide,
      allocated := [0#64], allocatedCount := 0, words := by decide }
  let next := fun (st : State (Fin 2)) (e : Fin 2 × Action) => act a.toPortRange st e.1 e.2
  have hexec : ((next (start a) (0, .allocate 0 0)).bind fun st₀ =>
      (next st₀ (1, .allocate 0 0)).bind fun st₁ =>
        (Trace.exec next st₁ [(0, .atomic false), (1, .atomic false), (0, .atomic false),
          (1, .atomic false)]).map fun st => (st.pc 1, st.held 1, st₀.held 1, st.held 0))
      = some (.idle, [], [], []) := by decide +kernel
  obtain ⟨st₀, h₀, hexec⟩ := Option.bind_eq_some_iff.1 hexec
  obtain ⟨st₁, h₁, hexec⟩ := Option.bind_eq_some_iff.1 hexec
  obtain ⟨st, hst, hend⟩ := Option.map_eq_some_iff.1 hexec
  simp only [Prod.mk.injEq] at hend
  obtain ⟨hpc, hheld, hheld₀, hwinner⟩ := hend
  have hnew : PortAllocator.new 5 5 = .ok a := rfl
  have hbefore : Trace.Run (Step a.toPortRange) (start a) [(0, .allocate 0 0)] st₀ :=
    Trace.Run.single h₀
  have hrun : Trace.Run (Step a.toPortRange) st₁
      [(0, .atomic false), (1, .atomic false), (0, .atomic false), (1, .atomic false)] st :=
    Trace.Run.of_exec hst
  have hsame : SameCall (1 : Fin 2)
      [(0, .atomic false), (1, .atomic false), (0, .atomic false), (1, .atomic false)] := by
    simp [SameCall, Action.isCall]
  exact ⟨a, st₀, st₁, st, hnew, hbefore, h₁, hrun, hpc, hheld.trans hheld₀.symm, hwinner,
    none_means_taken hnew hbefore h₁ hrun hsame hpc (hheld.trans hheld₀.symm) (by decide)
      (by decide)⟩

end ConcurrentPorts

end Miuturn
