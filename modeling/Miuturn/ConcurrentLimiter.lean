import Miuturn.RateLimiter

set_option autoImplicit false

/-! # Concurrent callers of a limiter

A limiter keeps its tokens in one atomic word and the time of its last refill behind a lock of its
own. `try_consume` reads the time, loads the tokens, tries to exchange them (weakly, so that it may
fail although the word is as expected) and, once that has succeeded, writes the time. Here any
number of callers do this at once, one such operation at a time; what a call computes between two of
them belongs to the operation before it.

Between the exchange and the write the limiter has new tokens and an old time. Every call that reads
the time meanwhile adds the same refill once more. -/

open RustStd TokenBucket

namespace Miuturn

namespace ConcurrentLimiter

/-- Where a caller is: the operation it performs next. -/
inductive Pc where
  | idle
  | readTime (now size : ℕ)
  | load (now size tokensToAdd : ℕ)
  | exchange (now size tokensToAdd current : ℕ)
  | writeTime (now : ℕ)
  deriving DecidableEq

/-- The head of the loop of `try_consume`, with the tokens last seen. -/
def tryExchange (l : BandwidthLimiter) (now size tokensToAdd current : ℕ) : Pc :=
  if l.available tokensToAdd current < size then .idle else .exchange now size tokensToAdd current

/-- The next operation of a call: the limiter after it, where the call goes on, and the size that it
    has been granted. `spurious` makes an exchange fail whose word is as expected. -/
def advance (l : BandwidthLimiter) (spurious : Bool) : Pc → BandwidthLimiter × Pc × ℕ
  | .idle => (l, .idle, 0)
  | .readTime now size =>
    let elapsed := now - l.lastUpdate
    (l, .load now size (BandwidthLimiter.tokensToAdd l.rateBytesPerSec elapsed), 0)
  | .load now size tokensToAdd => (l, tryExchange l now size tokensToAdd l.tokens, 0)
  | .exchange now size tokensToAdd current =>
    if l.tokens = current ∧ spurious = false then
      ({ l with tokens := l.available tokensToAdd current - size }, .writeTime now, size)
    -- a failed exchange hands back the word it found
    else (l, tryExchange l now size tokensToAdd l.tokens, 0)
  | .writeTime now => ({ l with lastUpdate := now }, .idle, 0)

/-- The limiter, the time, where each caller is, and the sizes granted so far, added up. -/
structure State (ι : Type) where
  limiter : BandwidthLimiter
  clock : ℕ
  pc : ι → Pc
  granted : ℕ

inductive Action (ι : Type) where
  | tick (nanos : ℕ)
  | call (i : ι) (size : ℕ)
  | atomic (i : ι) (spurious : Bool)

variable {ι : Type}

/-- Time passes, an idle caller takes a reading of the clock and calls `try_consume`, or a busy one
    performs its next operation. -/
def act [DecidableEq ι] (st : State ι) : Action ι → Option (State ι)
  | .tick nanos => some { st with clock := st.clock + nanos }
  | .call i size =>
    if st.pc i = .idle then
      some { st with pc := Function.update st.pc i (.readTime st.clock size) }
    else none
  | .atomic i spurious =>
    if st.pc i = .idle then none
    else
      let (limiter, pc, size) := advance st.limiter spurious (st.pc i)
      some { st with limiter, pc := Function.update st.pc i pc, granted := st.granted + size }

def Step [DecidableEq ι] (st : State ι) (a : Action ι) (st' : State ι) : Prop := act st a = some st'

/-- A new limiter, nobody calling. -/
def start (now₀ rate burst : ℕ) : State ι := ⟨.new now₀ rate burst, now₀, fun _ => .idle, 0⟩

/-! ## Without a refill

At rate 0, and with a burst of 0, the refill of no time adds anything, and what has been granted and
what is left are the burst at most, whatever the callers do. -/

/-- No refill adds to the tokens. -/
def NoCredit (l : BandwidthLimiter) : Prop :=
  ∀ elapsed current,
    l.available (BandwidthLimiter.tokensToAdd l.rateBytesPerSec elapsed) current ≤ current

theorem noCredit_of_zero {l : BandwidthLimiter} (h : l.rateBytesPerSec = 0 ∨ l.maxTokens = 0) :
    NoCredit l := by
  intro elapsed current
  have hle := l.available_le l.rateBytesPerSec elapsed current
  rcases h with hrate | hmax
  · rw [hrate, Nat.zero_mul, Nat.zero_div, Nat.add_zero] at hle
    rw [hrate]
    exact hle.trans (min_le_left _ _)
  · rw [hmax, Nat.min_zero] at hle
    exact hle.trans (Nat.zero_le current)

/-- What a caller knows between two operations: what it adds is the refill of some time, and what it
    is about to take was there when it last looked. -/
def PcOk (l : BandwidthLimiter) : Pc → Prop
  | .load _ _ add => ∃ elapsed, add = BandwidthLimiter.tokensToAdd l.rateBytesPerSec elapsed
  | .exchange _ size add current =>
    (∃ elapsed, add = BandwidthLimiter.tokensToAdd l.rateBytesPerSec elapsed) ∧
      size ≤ l.available add current
  | _ => True

theorem pcOk_tryExchange {l : BandwidthLimiter} {add : ℕ} (now size current : ℕ)
    (hadd : ∃ elapsed, add = BandwidthLimiter.tokensToAdd l.rateBytesPerSec elapsed) :
    PcOk l (tryExchange l now size add current) := by
  unfold tryExchange
  split
  · trivial
  · next hge => exact ⟨hadd, not_lt.1 hge⟩

/-- An operation changes the two shared words only. -/
theorem advance_fixed (l : BandwidthLimiter) (spurious : Bool) (pc : Pc) :
    (advance l spurious pc).1.rateBytesPerSec = l.rateBytesPerSec ∧
      (advance l spurious pc).1.maxTokens = l.maxTokens := by
  cases pc with
  | idle | readTime _ _ | load _ _ _ | writeTime _ => exact ⟨rfl, rfl⟩
  | exchange now size add current =>
      rw [advance]
      split <;> exact ⟨rfl, rfl⟩

theorem PcOk.congr {l l' : BandwidthLimiter} {pc : Pc} (h : PcOk l pc)
    (hrate : l'.rateBytesPerSec = l.rateBytesPerSec) (hmax : l'.maxTokens = l.maxTokens) :
    PcOk l' pc := by
  cases pc with
  | idle | readTime _ _ | writeTime _ => trivial
  | load now size add =>
      unfold PcOk
      rw [hrate]
      exact h
  | exchange now size add current =>
      unfold PcOk BandwidthLimiter.available
      rw [hrate, hmax]
      exact h

theorem pcOk_advance {l : BandwidthLimiter} {pc : Pc} (hok : PcOk l pc) (spurious : Bool) :
    PcOk l (advance l spurious pc).2.1 := by
  cases pc with
  | idle | writeTime _ => trivial
  | readTime now size => exact ⟨_, rfl⟩
  | load now size add => exact pcOk_tryExchange now size l.tokens hok
  | exchange now size add current =>
      rw [advance]
      split
      · trivial
      · exact pcOk_tryExchange now size l.tokens hok.1

/-- Without a refill an operation takes from the tokens what it grants, or more. -/
theorem advance_ledger {l : BandwidthLimiter} {pc : Pc} (hcredit : NoCredit l) (hok : PcOk l pc)
    (spurious : Bool) :
    (advance l spurious pc).2.2 + (advance l spurious pc).1.tokens ≤ l.tokens := by
  cases pc with
  | idle | readTime _ _ | load _ _ _ | writeTime _ => exact (Nat.zero_add _).le
  | exchange now size add current =>
      obtain ⟨⟨elapsed, rfl⟩, hsize⟩ := hok
      have hcredited := hcredit elapsed current
      rw [advance]
      split
      · next hsuccess =>
          rw [hsuccess.1]
          dsimp only
          omega
      · exact (Nat.zero_add _).le

/-- The tokens that are left and those granted are the burst at most. -/
structure Inv (rate burst : ℕ) (st : State ι) : Prop where
  rate_eq : st.limiter.rateBytesPerSec = rate
  max_eq : st.limiter.maxTokens = burst
  pcOk : ∀ i, PcOk st.limiter (st.pc i)
  ledger : st.granted + st.limiter.tokens ≤ burst

theorem inv_start (now₀ rate burst : ℕ) : Inv rate burst (start now₀ rate burst : State ι) :=
  ⟨rfl, rfl, fun _ => trivial, (Nat.zero_add burst).le⟩

variable [DecidableEq ι] {rate burst now₀ : ℕ} {st st' : State ι} {a : Action ι}
  {history : List (Action ι)}

/-- What an action can do. -/
theorem step_cases (h : Step st a st') :
    (∃ nanos, st' = { st with clock := st.clock + nanos }) ∨
    (∃ i size, st' = { st with pc := Function.update st.pc i (.readTime st.clock size) }) ∨
    ∃ i spurious, st' = { st with
      limiter := (advance st.limiter spurious (st.pc i)).1,
      pc := Function.update st.pc i (advance st.limiter spurious (st.pc i)).2.1,
      granted := st.granted + (advance st.limiter spurious (st.pc i)).2.2 } := by
  unfold Step act at h
  cases a with
  | tick nanos => exact Or.inl ⟨nanos, (Option.some.inj h).symm⟩
  | call i size =>
      dsimp only at h
      split at h
      · exact Or.inr (Or.inl ⟨i, size, (Option.some.inj h).symm⟩)
      · cases h
  | atomic i spurious =>
      dsimp only at h
      split at h
      · cases h
      · exact Or.inr (Or.inr ⟨i, spurious, (Option.some.inj h).symm⟩)

theorem Inv.step (hzero : rate = 0 ∨ burst = 0) (h : Inv rate burst st) (hstep : Step st a st') :
    Inv rate burst st' := by
  obtain ⟨hrate, hmax, hok, hledger⟩ := h
  rcases step_cases hstep with ⟨nanos, rfl⟩ | ⟨i, size, rfl⟩ | ⟨i, spurious, rfl⟩
  · exact ⟨hrate, hmax, hok, hledger⟩
  · exact ⟨hrate, hmax, (Function.forall_update_iff st.pc fun _ pc => PcOk st.limiter pc).2
      ⟨trivial, fun j _ => hok j⟩, hledger⟩
  · obtain ⟨hrate', hmax'⟩ := advance_fixed st.limiter spurious (st.pc i)
    have hcredit : NoCredit st.limiter := noCredit_of_zero (by rwa [hrate, hmax])
    have htaken := advance_ledger hcredit (hok i) spurious
    refine ⟨hrate'.trans hrate, hmax'.trans hmax, ?_, ?_⟩
    · exact (Function.forall_update_iff st.pc
        fun _ pc => PcOk (advance st.limiter spurious (st.pc i)).1 pc).2
          ⟨(pcOk_advance (hok i) spurious).congr hrate' hmax',
            fun j _ => (hok j).congr hrate' hmax'⟩
    · show st.granted + _ + _ ≤ burst
      rw [Nat.add_assoc]
      exact (Nat.add_le_add_left htaken _).trans hledger

/-- Then no more than the burst is ever granted. -/
theorem granted_le_burst (hzero : rate = 0 ∨ burst = 0)
    (h : Trace.Run Step (start now₀ rate burst : State ι) history st) : st.granted ≤ burst := by
  have hinv : Inv rate burst st := h.invariant (P := fun _ st => Inv rate burst st)
    (inv_start now₀ rate burst) (fun _ _ _ _ _ hP hstep => hP.step hzero hstep)
  exact (Nat.le_add_right _ _).trans hinv.ledger

/-- Time does not go back. -/
theorem clock_le (h : Trace.Run Step (start now₀ rate burst : State ι) history st) :
    now₀ ≤ st.clock := by
  refine h.invariant (P := fun _ st => now₀ ≤ st.clock) le_rfl ?_
  intro _ st a st' _ hclock hstep
  rcases step_cases hstep with ⟨nanos, rfl⟩ | ⟨i, size, rfl⟩ | ⟨i, spurious, rfl⟩
  · exact hclock.trans (Nat.le_add_right _ _)
  · exact hclock
  · exact hclock

/-! ## Callers that overlap -/

/-- A caller gets as far as the write of the time without anybody else doing anything. -/
theorem run_exchange (st : State ι) (i : ι) {size : ℕ} (hidle : st.pc i = .idle)
    (hsize : size ≤ st.limiter.found st.clock) :
    Trace.Run Step st [.call i size, .atomic i false, .atomic i false, .atomic i false]
      { st with
        limiter := { st.limiter with tokens := st.limiter.found st.clock - size },
        pc := Function.update st.pc i (.writeTime st.clock),
        granted := st.granted + size } := by
  refine @Trace.Run.of_exec _ _ act _ _ _ ?_
  have henough : ¬ st.limiter.available (BandwidthLimiter.tokensToAdd st.limiter.rateBytesPerSec
      (st.clock - st.limiter.lastUpdate)) st.limiter.tokens < size := not_lt.2 hsize
  simp [Trace.exec, act, advance, tryExchange, hidle, henough, BandwidthLimiter.found]

/-- A caller whom nobody disturbs does what `tryConsume` says. -/
theorem run_alone (st : State ι) (i : ι) (size : ℕ) (hidle : st.pc i = .idle) :
    ∃ n, Trace.Run Step st (.call i size :: List.replicate n (.atomic i false))
      { st with
        limiter := (st.limiter.tryConsume st.clock size).1,
        granted := st.granted
          + if (st.limiter.tryConsume st.clock size).2.isSome then size else 0 } := by
  have hback : Function.update st.pc i .idle = st.pc := by
    rw [← hidle, Function.update_eq_self]
  rcases lt_or_ge (st.limiter.found st.clock) size with hlt | hle
  · refine ⟨2, @Trace.Run.of_exec _ _ act _ _ _ ?_⟩
    have hless : st.limiter.available (BandwidthLimiter.tokensToAdd st.limiter.rateBytesPerSec
        (st.clock - st.limiter.lastUpdate)) st.limiter.tokens < size := hlt
    rw [BandwidthLimiter.tryConsume_of_lt hlt]
    simp [Trace.exec, act, advance, tryExchange, hidle, hless, hback]
  · refine ⟨4, ?_⟩
    rw [BandwidthLimiter.tryConsume_of_le hle]
    refine (run_exchange st i hidle hle).snoc ?_
    simp [Step, act, advance, hback]

/-- A first call takes the burst; a second later any number of callers, each of whom has not yet
    written the time, have taken the refill of that second. -/
theorem exists_overlapping_run (now₀ : ℕ) (hrate : rate ≤ u64Max) (hburst : burst ≤ u64Max)
    (n : ℕ) : ∃ (history : List (Action ℕ)) (st : State ℕ),
      Trace.Run Step (start now₀ rate burst) history st ∧
      st.limiter = ⟨burst, 0, rate, now₀⟩ ∧ st.clock = now₀ + 1000000000 ∧
      (∀ i, n ≤ i → st.pc i = .idle) ∧ st.granted = burst + n * min rate burst := by
  induction n with
  | zero =>
      have hfound := BandwidthLimiter.found_new hrate hburst now₀
      obtain ⟨k, hdrain⟩ := run_alone (start now₀ rate burst : State ℕ) 0 burst rfl
      have htick : ∀ st : State ℕ, Step st (.tick 1000000000)
          { st with clock := st.clock + 1000000000 } := fun _ => rfl
      refine ⟨_, _, hdrain.snoc (htick _), ?_, rfl, fun _ _ => rfl, ?_⟩
      · show (BandwidthLimiter.tryConsume (.new now₀ rate burst) now₀ burst).1 = _
        rw [BandwidthLimiter.tryConsume_of_le hfound.ge, hfound, Nat.sub_self]
        rfl
      · show 0 + (if (BandwidthLimiter.tryConsume (.new now₀ rate burst) now₀ burst).2.isSome
          then burst else 0) = _
        rw [if_pos (BandwidthLimiter.tryConsume_isSome.2 hfound.ge), Nat.zero_mul, Nat.zero_add,
          Nat.add_zero]
  | succ n ih =>
      obtain ⟨history, st, hrun, hlimiter, hclock, hidle, hgranted⟩ := ih
      have hfound : st.limiter.found st.clock = min rate burst := by
        rw [hlimiter, hclock, BandwidthLimiter.found, BandwidthLimiter.available_eq hrate hburst]
        dsimp only
        rw [Nat.add_sub_cancel_left, Nat.mul_div_cancel _ (by norm_num), Nat.zero_add]
      have htake := run_exchange st n (hidle n le_rfl) hfound.ge
      refine ⟨_, _, hrun.append htake, ?_, hclock, fun i hi => ?_, ?_⟩
      · dsimp only
        rw [hfound, Nat.sub_self, hlimiter]
      · show Function.update st.pc n _ i = .idle
        rw [Function.update_of_ne (by omega)]
        exact hidle i (by omega)
      · show st.granted + min rate burst = _
        rw [hgranted, Nat.add_assoc, Nat.succ_mul]

/-- **Concurrent calls.** However many callers there are and however their operations interleave,
    what is granted from the creation of the limiter on is at most the burst and the rate times the
    time since: this holds exactly for the limiters that never refill, with rate 0 or burst 0. -/
theorem concurrent_grants_within_iff (rate burst : UInt64) (now₀ : ℕ) :
    (∀ (history : List (Action ℕ)) (st : State ℕ),
      Trace.Run Step (start now₀ rate.toNat burst.toNat) history st →
        (st.granted : ℚ) ≤ burst.toNat + rate.toNat * (seconds st.clock - seconds now₀)) ↔
    rate = 0 ∨ burst = 0 := by
  have hzero : rate = 0 ∨ burst = 0 ↔ rate.toNat = 0 ∨ burst.toNat = 0 := by
    rw [← UInt64.toNat_inj, ← UInt64.toNat_inj]
    rfl
  rw [hzero]
  constructor
  · intro hall
    by_contra hnot
    obtain ⟨hrate, hburst⟩ := not_or.1 hnot
    obtain ⟨history, st, hrun, -, hclock, -, hgranted⟩ := exists_overlapping_run now₀
      (Nat.le_of_lt_succ rate.toNat_lt) (Nat.le_of_lt_succ burst.toNat_lt) (rate.toNat + 1)
    have hbound := hall history st hrun
    have hsecond : seconds (now₀ + 1000000000) - seconds now₀ = 1 := by
      unfold seconds
      push_cast
      ring
    rw [hclock, hsecond, mul_one, ← Nat.cast_add, Nat.cast_le, hgranted] at hbound
    have hone : 1 ≤ min rate.toNat burst.toNat := by omega
    have hmany := Nat.mul_le_mul_left (rate.toNat + 1) hone
    omega
  · intro hnone history st hrun
    obtain ⟨hclock, hgranted⟩ :
        now₀ ≤ st.clock ∧ st.granted ≤ burst.toNat := ⟨clock_le hrun, granted_le_burst hnone hrun⟩
    have hcast : (st.granted : ℚ) ≤ burst.toNat := Nat.cast_le.2 hgranted
    have helapsed : 0 ≤ (rate.toNat : ℚ) * (seconds st.clock - seconds now₀) :=
      mul_nonneg (Nat.cast_nonneg _) (sub_nonneg.2 (seconds_le.2 hclock))
    exact hcast.trans (le_add_of_nonneg_right helapsed)

/-- Ten bytes per second and a burst of ten. The burst is taken; after a second two callers read the
    time of the last refill before either has written it, and each takes the ten bytes of that
    second. -/
def twoAtOnce : List (Action ℕ) :=
  [.call 0 10, .atomic 0 false, .atomic 0 false, .atomic 0 false, .atomic 0 false,
    .tick 1000000000,
    .call 0 10, .call 1 10, .atomic 0 false, .atomic 1 false,
    .atomic 0 false, .atomic 0 false, .atomic 1 false, .atomic 1 false,
    .atomic 0 false, .atomic 1 false]

/-- All calls have returned, and thirty bytes were granted where twenty are allowed. -/
theorem concurrent_grants_exceed :
    ∃ st, Trace.Run Step (start 0 10 10) twoAtOnce st ∧ st.pc 0 = .idle ∧ st.pc 1 = .idle ∧
      st.granted = 30 ∧ (10 : ℚ) + 10 * (seconds st.clock - seconds 0) = 20 := by
  have hexec : (Trace.exec act (start 0 10 10) twoAtOnce).map
      (fun st => (st.pc 0, st.pc 1, st.granted, st.clock))
        = some (.idle, .idle, 30, 1000000000) := by
    decide +kernel
  obtain ⟨st, hst, hvalues⟩ := Option.map_eq_some_iff.1 hexec
  simp only [Prod.mk.injEq] at hvalues
  obtain ⟨hfirst, hsecond, hgranted, hclock⟩ := hvalues
  refine ⟨st, Trace.Run.of_exec hst, hfirst, hsecond, hgranted, ?_⟩
  rw [hclock]
  decide +kernel

end ConcurrentLimiter

end Miuturn
