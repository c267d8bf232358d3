import Miuturn.Bandwidth
import Miuturn.TokenBucket
import Miuturn.Trace
import Mathlib.Algebra.Order.Field.Rat
import Mathlib.Algebra.Order.Group.MinMax
import Mathlib.Data.Nat.Cast.Field
import Mathlib.Data.Nat.Cast.Order.Field

set_option autoImplicit false

/-! # The token bucket of `bandwidth.rs` against the exact one

`try_consume` counts in whole tokens and nanoseconds: it rounds the refill down, and a granted call
makes the time it was granted the start of the next refill, so that the rounded-off part is gone. In
one direction this is harmless: whatever is granted, the exact bucket of `TokenBucket.lean` had the
tokens for it (`Backed`), which is what bounds the traffic of a limiter. In the other direction the
exact bucket may be any number of tokens ahead. -/

open RustStd TokenBucket

namespace Miuturn

/-- A clock reading in seconds. -/
def seconds (t : ℕ) : ℚ := t / 1000000000

theorem seconds_le {t t' : ℕ} : seconds t ≤ seconds t' ↔ t ≤ t' := by
  unfold seconds
  rw [div_le_div_iff_of_pos_right (by norm_num), Nat.cast_le]

namespace BandwidthLimiter

variable {l : BandwidthLimiter} {rate elapsed now size : ℕ}

/-! ## The arithmetic of a refill -/

/-- Seconds and nanoseconds together are the whole refill, rounded down once. -/
theorem refill_split (rate elapsed : ℕ) :
    asSecs elapsed * rate + subsecNanos elapsed * rate / 1000000000
      = rate * elapsed / 1000000000 := by
  have hsplit : rate * elapsed
      = subsecNanos elapsed * rate + asSecs elapsed * rate * 1000000000 := by
    have h := Nat.div_add_mod elapsed 1000000000
    unfold subsecNanos asSecs nanosPerSec
    calc rate * elapsed
        = rate * (1000000000 * (elapsed / 1000000000) + elapsed % 1000000000) := by rw [h]
      _ = _ := by ring
  rw [hsplit, Nat.add_mul_div_right _ _ (by norm_num), Nat.add_comm]

/-- Saturation and truncation only lose tokens. -/
theorem tokensToAdd_le (rate elapsed : ℕ) :
    tokensToAdd rate elapsed ≤ rate * elapsed / 1000000000 := by
  rw [← refill_split]
  unfold tokensToAdd
  dsimp only
  have hmod := Nat.mod_le (subsecNanos elapsed * rate / 1000000000) (2 ^ 64)
  omega

/-- And on a 64-bit rate they lose nothing that would fit. -/
theorem tokensToAdd_eq (hrate : rate ≤ u64Max) (elapsed : ℕ) :
    tokensToAdd rate elapsed = min (rate * elapsed / 1000000000) u64Max := by
  have hnanos : subsecNanos elapsed * rate / 1000000000 ≤ u64Max := by
    have hlt : subsecNanos elapsed ≤ 1000000000 := (Nat.mod_lt elapsed (by decide)).le
    calc subsecNanos elapsed * rate / 1000000000
        ≤ 1000000000 * rate / 1000000000 := Nat.div_le_div_right (Nat.mul_le_mul_right _ hlt)
      _ = rate := Nat.mul_div_cancel_left _ (by norm_num)
      _ ≤ u64Max := hrate
  rw [← refill_split]
  unfold tokensToAdd
  dsimp only
  rw [Nat.mod_eq_of_lt (by unfold u64Max at hnanos; omega)]
  omega

theorem available_le (l : BandwidthLimiter) (rate elapsed current : ℕ) :
    l.available (tokensToAdd rate elapsed) current
      ≤ min (current + rate * elapsed / 1000000000) l.maxTokens := by
  have h := tokensToAdd_le rate elapsed
  unfold available
  omega

theorem available_eq (hrate : rate ≤ u64Max) (hmax : l.maxTokens ≤ u64Max)
    (elapsed current : ℕ) : l.available (tokensToAdd rate elapsed) current
      = min (current + rate * elapsed / 1000000000) l.maxTokens := by
  rw [tokensToAdd_eq hrate]
  unfold available
  omega

/-! ## One call -/

/-- The tokens that a call at `now` finds. -/
def found (l : BandwidthLimiter) (now : ℕ) : ℕ :=
  l.available (tokensToAdd l.rateBytesPerSec (now - l.lastUpdate)) l.tokens

theorem tryConsume_of_lt (h : l.found now < size) : l.tryConsume now size = (l, none) :=
  if_pos h

theorem tryConsume_of_le (h : size ≤ l.found now) : l.tryConsume now size
    = ({ l with tokens := l.found now - size, lastUpdate := now }, some (l.found now - size)) :=
  if_neg (not_lt.2 h)

theorem tryConsume_isSome : (l.tryConsume now size).2.isSome ↔ size ≤ l.found now := by
  rcases lt_or_ge (l.found now) size with h | h
  · simp [tryConsume_of_lt h, h]
  · simp [tryConsume_of_le h, h]

/-! ## The exact bucket behind a limiter -/

/-- The bucket that a limiter approximates, in tokens per second. -/
def bucket (l : BandwidthLimiter) : Bucket ℚ := ⟨l.rateBytesPerSec, l.maxTokens⟩

/-- The exact bucket, filled at `s`, had the tokens for the grants `gs` and still has as many as the
    limiter. -/
structure Backed (l : BandwidthLimiter) (s : Level ℚ) (gs : List (Grant ℚ)) : Prop where
  covered : l.bucket.Covered s gs
  time_le : (l.bucket.takeAll s gs).time ≤ seconds l.lastUpdate
  tokens_le : (l.tokens : ℚ) ≤ l.bucket.levelAt (l.bucket.takeAll s gs) (seconds l.lastUpdate)

theorem bucket_rate_nonneg (l : BandwidthLimiter) : 0 ≤ l.bucket.rate := Nat.cast_nonneg _

/-- A new limiter is full, and so is its bucket. -/
theorem backed_new (now rate burst : ℕ) :
    (BandwidthLimiter.new now rate burst).Backed ⟨burst, seconds now⟩ [] := by
  have hfull : (BandwidthLimiter.new now rate burst).bucket.levelAt ⟨burst, seconds now⟩
      (seconds now) = burst := Bucket.levelAt_self (le_refl (burst : ℚ))
  exact ⟨trivial, le_rfl, hfull.ge⟩

variable {s : Level ℚ} {gs : List (Grant ℚ)}

/-- What flows in between two readings, before it is rounded. -/
theorem cast_refill_le (rate : ℕ) {t t' : ℕ} (h : t ≤ t') :
    ((rate * (t' - t) / 1000000000 : ℕ) : ℚ) ≤ rate * (seconds t' - seconds t) := by
  calc ((rate * (t' - t) / 1000000000 : ℕ) : ℚ)
      ≤ ((rate * (t' - t) : ℕ) : ℚ) / (1000000000 : ℕ) := Nat.cast_div_le
    _ = rate * (seconds t' - seconds t) := by
        unfold seconds
        push_cast [Nat.cast_sub h]
        ring

/-- A call finds no more than the exact bucket holds. -/
theorem Backed.found_le (h : l.Backed s gs) (hnow : l.lastUpdate ≤ now) :
    (l.found now : ℚ) ≤ l.bucket.levelAt (l.bucket.takeAll s gs) (seconds now) := by
  have hfound := l.available_le l.rateBytesPerSec (now - l.lastUpdate) l.tokens
  have hrefill := cast_refill_le l.rateBytesPerSec hnow
  calc (l.found now : ℚ)
      ≤ (min (l.tokens + l.rateBytesPerSec * (now - l.lastUpdate) / 1000000000) l.maxTokens : ℕ) :=
        Nat.cast_le.2 hfound
    _ ≤ l.bucket.levelAt ⟨l.tokens, seconds l.lastUpdate⟩ (seconds now) := by
        rw [Nat.cast_min, Nat.cast_add]
        exact min_le_min_right _ (add_le_add_right hrefill _)
    _ ≤ l.bucket.levelAt ⟨l.bucket.levelAt (l.bucket.takeAll s gs) (seconds l.lastUpdate),
          seconds l.lastUpdate⟩ (seconds now) := Bucket.levelAt_mono h.tokens_le
    _ = l.bucket.levelAt (l.bucket.takeAll s gs) (seconds now) :=
        Bucket.levelAt_levelAt l.bucket_rate_nonneg (seconds_le.2 hnow)

/-- A call that is granted is backed. -/
theorem Backed.grant (h : l.Backed s gs) (hnow : l.lastUpdate ≤ now) (hsize : size ≤ l.found now) :
    (l.tryConsume now size).1.Backed s (gs ++ [⟨seconds now, size⟩]) := by
  have hfound := h.found_le hnow
  have hcast : (size : ℚ) ≤ l.found now := Nat.cast_le.2 hsize
  have htake : l.bucket.takeAll s (gs ++ [⟨seconds now, size⟩])
      = ⟨l.bucket.levelAt (l.bucket.takeAll s gs) (seconds now) - size, seconds now⟩ :=
    Bucket.takeAll_snoc
  have hburst := Bucket.levelAt_le_burst l.bucket (l.bucket.takeAll s gs) (seconds now)
  rw [tryConsume_of_le hsize]
  refine ⟨Bucket.covered_snoc.2 ⟨h.covered, h.time_le.trans (seconds_le.2 hnow),
    hcast.trans hfound⟩, ?_, ?_⟩
  · show (l.bucket.takeAll s _).time ≤ _
    rw [htake]
  · show ((l.found now - size : ℕ) : ℚ) ≤ l.bucket.levelAt (l.bucket.takeAll s _) (seconds now)
    have hnonneg : (0 : ℚ) ≤ size := Nat.cast_nonneg size
    have hself : l.bucket.levelAt
        ⟨l.bucket.levelAt (l.bucket.takeAll s gs) (seconds now) - size, seconds now⟩ (seconds now)
          = l.bucket.levelAt (l.bucket.takeAll s gs) (seconds now) - size :=
      Bucket.levelAt_self ((sub_le_self _ hnonneg).trans hburst)
    rw [htake, hself, Nat.cast_sub hsize]
    linarith

/-- So is a call that takes the tokens without being counted as a grant. -/
theorem Backed.charge (h : l.Backed s gs) (hnow : l.lastUpdate ≤ now) :
    (l.tryConsume now size).1.Backed s gs := by
  rcases lt_or_ge (l.found now) size with hlt | hsize
  · rw [tryConsume_of_lt hlt]
    exact h
  · rw [tryConsume_of_le hsize]
    refine ⟨h.covered, h.time_le.trans (seconds_le.2 hnow), ?_⟩
    show ((l.found now - size : ℕ) : ℚ) ≤ l.bucket.levelAt _ (seconds now)
    have hle : ((l.found now - size : ℕ) : ℚ) ≤ l.found now := Nat.cast_le.2 (Nat.sub_le _ _)
    exact hle.trans (h.found_le hnow)

/-! ## Predicting a call -/

/-- The limiters that `try_consume` and `reset` make of a new one. -/
inductive Reachable (rate burst : ℕ) : BandwidthLimiter → Prop
  | new (now : ℕ) : Reachable rate burst (BandwidthLimiter.new now rate burst)
  | consume {l : BandwidthLimiter} (now size : ℕ) :
      Reachable rate burst l → Reachable rate burst (l.tryConsume now size).1
  | reset {l : BandwidthLimiter} : Reachable rate burst l → Reachable rate burst l.reset

theorem found_le_max (l : BandwidthLimiter) (now : ℕ) : l.found now ≤ l.maxTokens :=
  min_le_right _ _

theorem Reachable.inv {rate burst : ℕ} (h : Reachable rate burst l) :
    l.rateBytesPerSec = rate ∧ l.maxTokens = burst ∧ l.tokens ≤ burst := by
  induction h with
  | new now => exact ⟨rfl, rfl, le_rfl⟩
  | @consume l now size _ ih =>
      obtain ⟨hrate, hmax, htokens⟩ := ih
      rcases lt_or_ge (l.found now) size with hlt | hle
      · rw [tryConsume_of_lt hlt]
        exact ⟨hrate, hmax, htokens⟩
      · rw [tryConsume_of_le hle]
        exact ⟨hrate, hmax, (Nat.sub_le _ _).trans ((l.found_le_max now).trans_eq hmax)⟩
  | reset _ ih => exact ⟨ih.1, ih.2.1, ih.2.1.le⟩

/-- The tokens a call finds, by whole seconds and the rest. -/
theorem found_eq (hrate : l.rateBytesPerSec ≤ u64Max) (hmax : l.maxTokens ≤ u64Max) (now : ℕ) :
    l.found now = min (l.tokens + (asSecs (now - l.lastUpdate) * l.rateBytesPerSec
      + subsecNanos (now - l.lastUpdate) * l.rateBytesPerSec / 1000000000)) l.maxTokens := by
  rw [found, available_eq hrate hmax, refill_split]

/-- A new limiter is found full. -/
theorem found_new {burst : ℕ} (hrate : rate ≤ u64Max) (hburst : burst ≤ u64Max) (now : ℕ) :
    (BandwidthLimiter.new now rate burst).found now = burst := by
  rw [found_eq hrate hburst]
  exact min_eq_right (Nat.le_add_right _ _)

/-- Without an overflow `available_tokens` is the same without the rest. -/
theorem availableTokens_eq_ok_iff {v : ℕ} : l.availableTokens .debug now = .ok v ↔
    l.tokens + asSecs (now - l.lastUpdate) * l.rateBytesPerSec ≤ u64Max ∧
      v = min (l.tokens + asSecs (now - l.lastUpdate) * l.rateBytesPerSec) l.maxTokens := by
  have hmax : u64Max + 1 = 2 ^ 64 := rfl
  unfold availableTokens Build.mul64 Build.add64 Build.overflow
  dsimp only
  by_cases hmul : asSecs (now - l.lastUpdate) * l.rateBytesPerSec < 2 ^ 64
  · rw [if_pos hmul, Rust.ok_bind]
    by_cases hadd : l.tokens + asSecs (now - l.lastUpdate) * l.rateBytesPerSec < 2 ^ 64
    · rw [if_pos hadd, Rust.ok_bind, Rust.pure_eq_ok, Except.ok.injEq, eq_comm]
      exact ⟨fun h => ⟨by omega, h⟩, fun h => h.2⟩
    · rw [if_neg hadd, Rust.error_bind]
      exact ⟨fun h => absurd h (by simp), fun h => absurd h.1 (by omega)⟩
  · rw [if_neg hmul, Rust.error_bind]
    exact ⟨fun h => absurd h (by simp), fun h => absurd h.1 (by omega)⟩

/-- **Predicting a call.** `available_tokens` is computed without overflow and says what
    `try_consume` grants at the same reading exactly if the tokens and the refill of the whole
    seconds fit 64 bits, and either the refill of the rest of a second is less than one token or the
    bucket is full without it. -/
theorem available_tokens_predicts_iff (rate burst : UInt64) {l : BandwidthLimiter}
    (h : Reachable rate.toNat burst.toNat l) (now : ℕ) :
    (∃ v, l.availableTokens .debug now = .ok v ∧
      ∀ size ≤ u64Max, ((l.tryConsume now size).2.isSome ↔ size ≤ v)) ↔
    l.tokens + asSecs (now - l.lastUpdate) * rate.toNat ≤ u64Max ∧
      (subsecNanos (now - l.lastUpdate) * rate.toNat < 1000000000 ∨
        burst.toNat ≤ l.tokens + asSecs (now - l.lastUpdate) * rate.toNat) := by
  obtain ⟨hrate, hmax, -⟩ := h.inv
  have hrate64 : l.rateBytesPerSec ≤ u64Max := hrate ▸ Nat.le_of_lt_succ rate.toNat_lt
  have hmax64 : l.maxTokens ≤ u64Max := hmax ▸ Nat.le_of_lt_succ burst.toNat_lt
  have hfound := found_eq hrate64 hmax64 now
  have hrest : subsecNanos (now - l.lastUpdate) * rate.toNat / 1000000000 = 0 ↔
      subsecNanos (now - l.lastUpdate) * rate.toNat < 1000000000 := by
    rw [Nat.div_eq_zero_iff]
    omega
  rw [← hrest]
  simp only [availableTokens_eq_ok_iff, tryConsume_isSome, hfound, hrate, hmax]
  rw [hmax] at hmax64
  generalize asSecs (now - l.lastUpdate) * rate.toNat = whole
  generalize subsecNanos (now - l.lastUpdate) * rate.toNat / 1000000000 = rest
  constructor
  · rintro ⟨v, ⟨hfits, rfl⟩, hall⟩
    have hsize := (hall (min (l.tokens + (whole + rest)) burst.toNat) (by omega)).1 le_rfl
    exact ⟨hfits, by omega⟩
  · rintro ⟨hfits, hsame⟩
    exact ⟨_, ⟨hfits, rfl⟩, fun size _ => by omega⟩

/-- A limiter of 1000 tokens per second, 3000 of whose 5000 tokens were taken two seconds ago. -/
theorem available_tokens_predicts_iff_two_seconds :
    Reachable (1000 : UInt64).toNat (5000 : UInt64).toNat
      ((BandwidthLimiter.new 0 1000 5000).tryConsume 0 3000).1 ∧
    ∃ v, ((BandwidthLimiter.new 0 1000 5000).tryConsume 0 3000).1.availableTokens .debug
        2000000000 = .ok v ∧
      ∀ size ≤ u64Max, ((((BandwidthLimiter.new 0 1000 5000).tryConsume 0 3000).1.tryConsume
        2000000000 size).2.isSome ↔ size ≤ v) := by
  have hreach : Reachable (1000 : UInt64).toNat (5000 : UInt64).toNat
      ((BandwidthLimiter.new 0 1000 5000).tryConsume 0 3000).1 := .consume 0 3000 (.new 0)
  exact ⟨hreach, (available_tokens_predicts_iff 1000 5000 hreach 2000000000).2
    ⟨by decide, Or.inl (by decide)⟩⟩

/-- Half a second after the bucket was emptied, `available_tokens` says 0 where 500 tokens are
    granted; and three seconds after a limiter for "unlimited" was made, it overflows. -/
theorem available_tokens_mispredicts :
    ((BandwidthLimiter.new 0 1000 5000).tryConsume 0 5000).1.availableTokens .debug 500000000
      = .ok 0 ∧
    (((BandwidthLimiter.new 0 1000 5000).tryConsume 0 5000).1.tryConsume 500000000 500).2
      = some 0 ∧
    (BandwidthLimiter.new 0 (u64Max / 2) u64Max).availableTokens .debug 3000000000
      = .error .arithmeticOverflow :=
  ⟨rfl, rfl, rfl⟩

end BandwidthLimiter

/-! ## How far the exact bucket can be ahead -/

/-- A call of `try_consume`, with its clock reading and whether it was granted. -/
structure Consumption where
  now : ℕ
  size : ℕ
  granted : Bool

/-- A limiter and the last clock reading. -/
structure Metered where
  limiter : BandwidthLimiter
  clock : ℕ

/-- One call after another, at readings that never go back. -/
structure Metered.Step (w : Metered) (c : Consumption) (w' : Metered) : Prop where
  clock_le : w.clock ≤ c.now
  size_le : c.size ≤ u64Max
  limiter : w'.limiter = (w.limiter.tryConsume c.now c.size).1
  granted : c.granted = (w.limiter.tryConsume c.now c.size).2.isSome
  clock : w'.clock = c.now

/-- The granted calls of a history, for the exact bucket. -/
def grantsOf (history : List Consumption) : List (Grant ℚ) :=
  (history.filter (·.granted)).map (fun c => ⟨seconds c.now, c.size⟩)

/-- The bucket with a rate and a burst. -/
def exactBucket (rate burst : ℕ) : Bucket ℚ := ⟨rate, burst⟩

/-- The exact bucket after the granted calls of a history that starts at `now₀` with a full
    bucket. -/
def exactLevel (rate burst now₀ : ℕ) (history : List Consumption) : Level ℚ :=
  (exactBucket rate burst).takeAll ⟨burst, seconds now₀⟩ (grantsOf history)

theorem exactLevel_snoc (rate burst now₀ : ℕ) (history : List Consumption) (c : Consumption) :
    exactLevel rate burst now₀ (history ++ [c]) = if c.granted then
      (exactBucket rate burst).take (exactLevel rate burst now₀ history) ⟨seconds c.now, c.size⟩
    else exactLevel rate burst now₀ history := by
  unfold exactLevel grantsOf
  by_cases hc : c.granted
  · rw [if_pos hc, List.filter_append, List.filter_cons_of_pos hc, List.filter_nil, List.map_append]
    exact Bucket.takeAll_snoc
  · rw [if_neg hc, List.filter_append, List.filter_cons_of_neg hc, List.filter_nil, List.append_nil]

/-- The exact bucket holds what the limiter has, or up to one token more. -/
structure WithinOne (rate burst now₀ : ℕ) (history : List Consumption) (w : Metered) : Prop where
  rate_eq : w.limiter.rateBytesPerSec = rate
  max_eq : w.limiter.maxTokens = burst
  tokens_le : w.limiter.tokens ≤ burst
  clock : w.limiter.lastUpdate ≤ w.clock
  time : (exactLevel rate burst now₀ history).time = seconds w.limiter.lastUpdate
  above : (w.limiter.tokens : ℚ) ≤ (exactLevel rate burst now₀ history).amount
  within : (exactLevel rate burst now₀ history).amount ≤ w.limiter.tokens + 1

variable {rate burst now₀ now : ℕ} {history : List Consumption} {w w' : Metered} {c : Consumption}

/-- The parameters for which rounding does no harm: a whole number of tokens per nanosecond, or a
    bucket that one nanosecond fills but for one token. -/
def RefillsExactly (rate burst : ℕ) : Prop :=
  rate % 1000000000 = 0 ∨ burst ≤ rate / 1000000000 + 1

/-- With such parameters a call finds the exact level, or less than that by one token at most. -/
theorem WithinOne.found (h : WithinOne rate burst now₀ history w) (hrate : rate ≤ u64Max)
    (hburst : burst ≤ u64Max) (hexact : RefillsExactly rate burst) (hnow : w.clock ≤ now) :
    (w.limiter.found now : ℚ)
        ≤ (exactBucket rate burst).levelAt (exactLevel rate burst now₀ history) (seconds now) ∧
      (exactBucket rate burst).levelAt (exactLevel rate burst now₀ history) (seconds now)
        ≤ w.limiter.found now + 1 := by
  set elapsed := now - w.limiter.lastUpdate with helapsed
  have hle : w.limiter.lastUpdate ≤ now := h.clock.trans hnow
  have hfound : w.limiter.found now
      = min (w.limiter.tokens + rate * elapsed / 1000000000) burst := by
    rw [BandwidthLimiter.found, BandwidthLimiter.available_eq (h.rate_eq.trans_le hrate)
      (h.max_eq.trans_le hburst), h.rate_eq, h.max_eq]
  have hlevel : (exactBucket rate burst).levelAt (exactLevel rate burst now₀ history) (seconds now)
      = min ((exactLevel rate burst now₀ history).amount
        + rate * (seconds now - seconds w.limiter.lastUpdate)) burst := by
    rw [Bucket.levelAt, h.time]
    rfl
  have hrefill := BandwidthLimiter.cast_refill_le rate hle
  have habove := h.above
  have hwithin := h.within
  rw [hfound, hlevel, Nat.cast_min, Nat.cast_add]
  refine ⟨min_le_min_right _ (add_le_add habove hrefill), ?_⟩
  rcases hexact with hwhole | hsmall
  · -- nothing is rounded off
    have hexactly : ((rate * elapsed / 1000000000 : ℕ) : ℚ)
        = rate * (seconds now - seconds w.limiter.lastUpdate) := by
      rw [Nat.cast_div (Dvd.dvd.mul_right (Nat.dvd_of_mod_eq_zero hwhole) _) (by norm_num)]
      unfold seconds
      push_cast [helapsed, Nat.cast_sub hle]
      ring
    rw [hexactly, min_add]
    exact min_le_min (by linarith) (by linarith)
  · rcases Nat.eq_zero_or_pos elapsed with hzero | hpos
    · -- no time has passed
      have hsame : now = w.limiter.lastUpdate := by omega
      have htokens : (w.limiter.tokens : ℚ) ≤ burst := Nat.cast_le.2 h.tokens_le
      rw [hzero, hsame, Nat.mul_zero, Nat.zero_div, Nat.cast_zero, sub_self, mul_zero, add_zero,
        add_zero, min_eq_left htokens]
      exact (min_le_left _ _).trans hwithin
    · -- one nanosecond is enough to fill the bucket but for one token
      have hrefilled : rate / 1000000000 ≤ rate * elapsed / 1000000000 :=
        Nat.div_le_div_right (Nat.le_mul_of_pos_right rate hpos)
      have hnat : burst ≤ min (w.limiter.tokens + rate * elapsed / 1000000000) burst + 1 := by omega
      have hcast : (burst : ℚ)
          ≤ (min (w.limiter.tokens + rate * elapsed / 1000000000) burst + 1 : ℕ) :=
        Nat.cast_le.2 hnat
      push_cast at hcast
      exact (min_le_right _ _).trans hcast

theorem withinOne_start (rate burst now₀ : ℕ) :
    WithinOne rate burst now₀ [] ⟨.new now₀ rate burst, now₀⟩ :=
  ⟨rfl, rfl, le_rfl, le_rfl, rfl, le_rfl, le_add_of_nonneg_right zero_le_one⟩

/-- A call keeps the two within one token: if it is granted, it takes the same from both. -/
theorem WithinOne.step (h : WithinOne rate burst now₀ history w) (hrate : rate ≤ u64Max)
    (hburst : burst ≤ u64Max) (hexact : RefillsExactly rate burst) (hstep : w.Step c w') :
    WithinOne rate burst now₀ (history ++ [c]) w' := by
  obtain ⟨l', clock'⟩ := w'
  obtain ⟨hclock, -, hlimiter, hgranted, rfl⟩ := hstep
  obtain rfl : l' = _ := hlimiter
  obtain ⟨hlow, hhigh⟩ := h.found hrate hburst hexact hclock
  rcases lt_or_ge (w.limiter.found c.now) c.size with hlt | hle
  · rw [BandwidthLimiter.tryConsume_of_lt hlt] at hgranted ⊢
    have hsame := exactLevel_snoc rate burst now₀ history c
    rw [hgranted, if_neg (by simp)] at hsame
    exact ⟨h.rate_eq, h.max_eq, h.tokens_le, h.clock.trans hclock, hsame ▸ h.time,
      hsame ▸ h.above, hsame ▸ h.within⟩
  · rw [BandwidthLimiter.tryConsume_of_le hle] at hgranted ⊢
    have htaken := exactLevel_snoc rate burst now₀ history c
    rw [hgranted, if_pos (by simp)] at htaken
    have hcast : ((w.limiter.found c.now - c.size : ℕ) : ℚ) = w.limiter.found c.now - c.size :=
      Nat.cast_sub hle
    refine ⟨h.rate_eq, h.max_eq, ?_, le_rfl, by rw [htaken]; rfl, ?_, ?_⟩
    · exact (Nat.sub_le _ _).trans ((w.limiter.found_le_max c.now).trans_eq h.max_eq)
    · rw [htaken]
      exact hcast.le.trans (sub_le_sub_right hlow _)
    · rw [htaken]
      show _ - (c.size : ℚ) ≤ ((w.limiter.found c.now - c.size : ℕ) : ℚ) + 1
      rw [hcast]
      linarith

/-! ### A run that loses what it rounds off -/

/-- A call for no more than is found is granted. -/
theorem Metered.step_grant (w : Metered) {now size : ℕ} (hclock : w.clock ≤ now)
    (hsize : size ≤ u64Max) (hle : size ≤ w.limiter.found now) :
    w.Step ⟨now, size, true⟩
      ⟨{ w.limiter with tokens := w.limiter.found now - size, lastUpdate := now }, now⟩ := by
  refine ⟨hclock, hsize, ?_, ?_, rfl⟩
  · rw [BandwidthLimiter.tryConsume_of_le hle]
  · rw [BandwidthLimiter.tryConsume_of_le hle]
    rfl

/-- A call for more is refused. -/
theorem Metered.step_refuse (w : Metered) {now size : ℕ} (hclock : w.clock ≤ now)
    (hsize : size ≤ u64Max) (hlt : w.limiter.found now < size) :
    w.Step ⟨now, size, false⟩ ⟨w.limiter, now⟩ := by
  refine ⟨hclock, hsize, ?_, ?_, rfl⟩
  · rw [BandwidthLimiter.tryConsume_of_lt hlt]
  · rw [BandwidthLimiter.tryConsume_of_lt hlt]
    rfl

/-- The rate per nanosecond: whole tokens and the fraction that is rounded off. -/
theorem rate_per_nano (rate : ℕ) : (rate : ℚ) / 1000000000
    = (rate / 1000000000 : ℕ) + ((rate % 1000000000 : ℕ) : ℚ) / 1000000000 := by
  have hsplit := congrArg (Nat.cast (R := ℚ)) (Nat.div_add_mod rate 1000000000)
  push_cast at hsplit
  linarith

/-- One nanosecond whose whole tokens are taken leaves the exact bucket the fraction. -/
theorem take_whole_tokens (rate burst now₀ k : ℕ) : (exactBucket rate burst).take
    ⟨min (k * ((rate % 1000000000 : ℕ) / 1000000000)) (burst - (rate / 1000000000 : ℕ)),
      seconds (now₀ + k)⟩ ⟨seconds (now₀ + (k + 1)), (rate / 1000000000 : ℕ)⟩
    = ⟨min ((k + 1 : ℕ) * ((rate % 1000000000 : ℕ) / 1000000000)) (burst - (rate / 1000000000 : ℕ)),
      seconds (now₀ + (k + 1))⟩ := by
  have hflow : (rate : ℚ) * (seconds (now₀ + (k + 1)) - seconds (now₀ + k))
      = rate / 1000000000 := by
    unfold seconds
    push_cast
    ring
  have hfraction : 0 ≤ ((rate % 1000000000 : ℕ) : ℚ) / 1000000000 := by positivity
  show (⟨min (_ + (rate : ℚ) * _) (burst : ℚ) - _, _⟩ : Level ℚ) = _
  rw [hflow, rate_per_nano rate, Level.mk.injEq]
  refine ⟨?_, rfl⟩
  push_cast
  generalize ((rate / 1000000000 : ℕ) : ℚ) = whole
  generalize ((rate % 1000000000 : ℕ) : ℚ) / 1000000000 = fraction at hfraction ⊢
  calc min (min (k * fraction) (burst - whole) + (whole + fraction)) burst - whole
      = min (min (k * fraction) (burst - whole) + fraction) (burst - whole) := by
        rw [← min_sub_sub_right]
        congr 1
        ring
    _ = min (k * fraction + fraction) (burst - whole) := by
        rw [← min_add_add_right, min_assoc, min_eq_right (le_add_of_nonneg_right hfraction)]
    _ = min ((k + 1) * fraction) (burst - whole) := by rw [add_mul, one_mul]

/-- The bucket is emptied, and then every nanosecond the whole tokens of that nanosecond are taken.
    The limiter stays empty, and the exact bucket keeps the fractions. -/
theorem exists_losing_run (now₀ : ℕ) (hrate : rate ≤ u64Max) (hburst : burst ≤ u64Max)
    (hroom : rate / 1000000000 + 2 ≤ burst) (k : ℕ) :
    ∃ history, Trace.Run Metered.Step ⟨.new now₀ rate burst, now₀⟩ history
        ⟨⟨burst, 0, rate, now₀ + k⟩, now₀ + k⟩ ∧
      exactLevel rate burst now₀ history
        = ⟨min (k * ((rate % 1000000000 : ℕ) / 1000000000)) (burst - (rate / 1000000000 : ℕ)),
          seconds (now₀ + k)⟩ := by
  have hroom' : ((rate / 1000000000 : ℕ) : ℚ) + 2 ≤ burst := by exact_mod_cast hroom
  induction k with
  | zero =>
      have hfound := BandwidthLimiter.found_new hrate hburst now₀
      have hstep := Metered.step_grant ⟨.new now₀ rate burst, now₀⟩ le_rfl hburst hfound.ge
      dsimp only at hstep
      rw [hfound, Nat.sub_self] at hstep
      refine ⟨_, Trace.Run.single hstep, ?_⟩
      have hfull : (exactBucket rate burst).levelAt ⟨burst, seconds now₀⟩ (seconds now₀) = burst :=
        Bucket.levelAt_self (le_refl (burst : ℚ))
      show (⟨_ - (burst : ℚ), _⟩ : Level ℚ) = _
      rw [hfull, sub_self, Nat.cast_zero, zero_mul, min_eq_left (by linarith)]
      rfl
  | succ k ih =>
      obtain ⟨history, hrun, hlevel⟩ := ih
      have hfound : (⟨burst, 0, rate, now₀ + k⟩ : BandwidthLimiter).found (now₀ + (k + 1))
          = rate / 1000000000 := by
        rw [BandwidthLimiter.found, BandwidthLimiter.available_eq hrate hburst]
        have hone : now₀ + (k + 1) - (now₀ + k) = 1 := by omega
        dsimp only
        rw [hone, Nat.mul_one]
        omega
      have hstep := Metered.step_grant ⟨⟨burst, 0, rate, now₀ + k⟩, now₀ + k⟩
        (show now₀ + k ≤ now₀ + (k + 1) by omega)
        (show rate / 1000000000 ≤ u64Max from (Nat.div_le_self _ _).trans hrate) hfound.ge
      dsimp only at hstep
      rw [hfound, Nat.sub_self] at hstep
      refine ⟨_, hrun.snoc hstep, ?_⟩
      rw [exactLevel_snoc, if_pos rfl, hlevel]
      exact take_whole_tokens rate burst now₀ k

/-- After two thousand million nanoseconds of that, two tokens at least have been rounded off: a
    call for one token is refused, and the exact bucket has two. -/
theorem exists_refusal_ahead (now₀ : ℕ) (hrate : rate ≤ u64Max) (hburst : burst ≤ u64Max)
    (hfraction : rate % 1000000000 ≠ 0) (hroom : rate / 1000000000 + 2 ≤ burst) :
    ∃ history w w', Trace.Run Metered.Step ⟨.new now₀ rate burst, now₀⟩ history w ∧
      w.Step ⟨now₀ + 2000000000, 1, false⟩ w' ∧
      2 ≤ (exactBucket rate burst).levelAt (exactLevel rate burst now₀ history)
        (seconds (now₀ + 2000000000)) := by
  obtain ⟨history, hrun, hlevel⟩ := exists_losing_run now₀ hrate hburst hroom 2000000000
  have hempty : (⟨burst, 0, rate, now₀ + 2000000000⟩ : BandwidthLimiter).found (now₀ + 2000000000)
      < 1 := by
    rw [BandwidthLimiter.found, BandwidthLimiter.available_eq hrate hburst]
    dsimp only
    rw [Nat.sub_self, Nat.mul_zero]
    omega
  refine ⟨history, _, _, hrun, Metered.step_refuse
    ⟨⟨burst, 0, rate, now₀ + 2000000000⟩, now₀ + 2000000000⟩ le_rfl (by decide) hempty, ?_⟩
  have hrest : (1 : ℚ) ≤ (rate % 1000000000 : ℕ) := by
    exact_mod_cast Nat.pos_of_ne_zero hfraction
  have hroom' : ((rate / 1000000000 : ℕ) : ℚ) + 2 ≤ burst := by exact_mod_cast hroom
  have hwhole : (0 : ℚ) ≤ (rate / 1000000000 : ℕ) := Nat.cast_nonneg _
  obtain ⟨amount, hamount⟩ : ∃ amount : ℚ, amount = min ((2000000000 : ℕ) *
      (((rate % 1000000000 : ℕ) : ℚ) / 1000000000))
      (burst - ((rate / 1000000000 : ℕ) : ℚ)) := ⟨_, rfl⟩
  have hmany : 2 ≤ amount := by
    rw [hamount]
    exact le_min (by push_cast; linarith) (by linarith)
  have hfits : amount ≤ burst := by
    rw [hamount]
    exact (min_le_right _ _).trans (sub_le_self _ hwhole)
  have hself : (exactBucket rate burst).levelAt ⟨amount, seconds (now₀ + 2000000000)⟩
      (seconds (now₀ + 2000000000)) = amount := Bucket.levelAt_self hfits
  rw [hlevel, ← hamount, hself]
  exact hmany

/-- **The exact refill.** Whenever a call is refused, the exact bucket, charged with the same
    granted calls, holds less than one token more than was asked for: this holds along every
    sequence of calls exactly if the rate is a whole number of tokens per nanosecond, or the burst
    is at most one token more than flows in per nanosecond. -/
theorem token_bucket_refills_iff (rate burst : UInt64) (now₀ : ℕ) :
    (∀ history w c w',
      Trace.Run Metered.Step ⟨.new now₀ rate.toNat burst.toNat, now₀⟩ history w → w.Step c w' →
      c.granted = false →
        (exactBucket rate.toNat burst.toNat).levelAt
          (exactLevel rate.toNat burst.toNat now₀ history) (seconds c.now) < c.size + 1) ↔
    rate.toNat % 1000000000 = 0 ∨ burst.toNat ≤ rate.toNat / 1000000000 + 1 := by
  have hrate : rate.toNat ≤ u64Max := Nat.le_of_lt_succ rate.toNat_lt
  have hburst : burst.toNat ≤ u64Max := Nat.le_of_lt_succ burst.toNat_lt
  constructor
  · intro hall
    by_contra hnot
    obtain ⟨hfraction, hroom⟩ := not_or.1 hnot
    obtain ⟨history, w, w', hrun, hstep, hahead⟩ :=
      exists_refusal_ahead now₀ hrate hburst hfraction (by omega)
    have hlow := hall history w _ w' hrun hstep rfl
    push_cast at hlow
    linarith
  · intro hexact history w c w' hrun hstep hrefused
    have hwithin : WithinOne rate.toNat burst.toNat now₀ history w :=
      hrun.invariant (P := WithinOne rate.toNat burst.toNat now₀) (withinOne_start _ _ _)
        fun _ _ _ _ _ hP hs => hP.step hrate hburst hexact hs
    have hhigh := (hwithin.found hrate hburst hexact hstep.clock_le).2
    have hlt : w.limiter.found c.now < c.size := by
      by_contra hle
      have hsome := BandwidthLimiter.tryConsume_isSome.2 (not_lt.1 hle)
      rw [← hstep.granted, hrefused] at hsome
      cases hsome
    have hcast : (w.limiter.found c.now : ℚ) + 1 ≤ c.size := by exact_mod_cast hlt
    linarith

/-- At a million tokens per second, an empty bucket is asked for one token every 1500 nanoseconds.
    After four of them the exact bucket holds two tokens, and a fifth is refused at that moment. -/
theorem token_bucket_falls_behind :
    ∃ history w w', Trace.Run Metered.Step ⟨.new 0 1000000 10000000, 0⟩ history w ∧
      w.Step ⟨6000, 1, false⟩ w' ∧
      (exactBucket 1000000 10000000).levelAt (exactLevel 1000000 10000000 0 history) (seconds 6000)
        = 2 := by
  have hempty : ∀ t, (⟨10000000, 0, 1000000, t⟩ : BandwidthLimiter).found (t + 1500) = 1 := by
    intro t
    rw [BandwidthLimiter.found, Nat.add_sub_cancel_left]
    dsimp only [BandwidthLimiter.available]
    decide
  have hdrain : Metered.Step ⟨.new 0 1000000 10000000, 0⟩ ⟨0, 10000000, true⟩
      ⟨⟨10000000, 0, 1000000, 0⟩, 0⟩ := ⟨by decide, by decide, rfl, rfl, rfl⟩
  have htake : ∀ t, Metered.Step ⟨⟨10000000, 0, 1000000, t⟩, t⟩ ⟨t + 1500, 1, true⟩
      ⟨⟨10000000, 0, 1000000, t + 1500⟩, t + 1500⟩ := by
    intro t
    have hstep := Metered.step_grant ⟨⟨10000000, 0, 1000000, t⟩, t⟩
      (Nat.le_add_right t 1500) (show 1 ≤ u64Max by decide) (hempty t).ge
    rw [hempty] at hstep
    exact hstep
  refine ⟨[⟨0, 10000000, true⟩, ⟨1500, 1, true⟩, ⟨3000, 1, true⟩, ⟨4500, 1, true⟩, ⟨6000, 1, true⟩],
    ⟨⟨10000000, 0, 1000000, 6000⟩, 6000⟩, ⟨⟨10000000, 0, 1000000, 6000⟩, 6000⟩, ?_, ?_, ?_⟩
  · exact ((((Trace.Run.single hdrain).snoc (htake 0)).snoc (htake 1500)).snoc (htake 3000)).snoc
      (htake 4500)
  · exact ⟨by decide, by decide, rfl, rfl, rfl⟩
  · decide +kernel

end Miuturn
