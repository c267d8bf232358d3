import Miuturn.RustStd.Basic
import Miuturn.RustStd.HashMap

set_option autoImplicit false

/-! # Bandwidth limits (`bandwidth.rs`)

The token bucket, the per-allocation trackers and the manager that consults them. The server
registers every allocation without a limit and never asks the manager before it relays, so what it
keeps of the manager is the table of trackers (`BandwidthManager`); the manager as the module offers
it, with its global limiter and its counter, is `FullBandwidthManager`.

The calls are modelled as made one at a time, at clock readings that they are given;
`ConcurrentLimiter.lean` takes `try_consume` apart into its atomic operations. -/

open RustStd

namespace Miuturn

/-- A token bucket, as `BandwidthLimiter::new` fills it. -/
structure BandwidthLimiter where
  maxTokens : ℕ
  tokens : ℕ
  rateBytesPerSec : ℕ
  lastUpdate : ℕ
  deriving DecidableEq

/-- `u64::MAX`. -/
def u64Max : ℕ := 18446744073709551615

/-- `BandwidthLimiter::new`. -/
def BandwidthLimiter.new (now rateBytesPerSec burstBytes : ℕ) : BandwidthLimiter :=
  ⟨burstBytes, burstBytes, rateBytesPerSec, now⟩

namespace BandwidthLimiter

/-- `tokens_to_add` of `try_consume`: saturating, with the part of a second computed on `u128`. -/
def tokensToAdd (rateBytesPerSec elapsed : ℕ) : ℕ :=
  let fromSeconds := min (asSecs elapsed * rateBytesPerSec) u64Max
  let fromNanos := subsecNanos elapsed * rateBytesPerSec / 1000000000 % 2 ^ 64
  min (fromSeconds + fromNanos) u64Max

/-- `available` in the loop of `try_consume`, for the tokens last seen. -/
def available (l : BandwidthLimiter) (tokensToAdd current : ℕ) : ℕ :=
  min (min (current + tokensToAdd) u64Max) l.maxTokens

/-- `BandwidthLimiter::try_consume`: the tokens that remain, or `None`. -/
def tryConsume (l : BandwidthLimiter) (now size : ℕ) : BandwidthLimiter × Option ℕ :=
  let elapsed := now - l.lastUpdate
  let available := l.available (tokensToAdd l.rateBytesPerSec elapsed) l.tokens
  if available < size then (l, none)
  else
    let newTokens := available - size
    ({ l with tokens := newTokens, lastUpdate := now }, some newTokens)

/-- `BandwidthLimiter::available_tokens`, whole seconds only and with plain arithmetic. -/
def availableTokens (build : Build) (l : BandwidthLimiter) (now : ℕ) : Rust ℕ := do
  let elapsed := now - l.lastUpdate
  let tokensToAdd ← build.mul64 (asSecs elapsed) l.rateBytesPerSec
  let sum ← build.add64 l.tokens tokensToAdd
  pure (min sum l.maxTokens)

/-- `BandwidthLimiter::reset`. -/
def reset (l : BandwidthLimiter) : BandwidthLimiter := { l with tokens := l.maxTokens }

end BandwidthLimiter

structure AllocationBandwidthTracker where
  relayedAddr : String
  limiter : BandwidthLimiter
  limitBytesPerSec : Option ℕ
  deriving DecidableEq

/-- `AllocationBandwidthTracker::new` followed by `with_relayed_addr`: the burst is ten seconds at
    the rate, saturating. -/
def AllocationBandwidthTracker.new (now : ℕ) (limitBytesPerSec : Option ℕ) (relayedAddr : String) :
    AllocationBandwidthTracker :=
  let rate := limitBytesPerSec.getD (u64Max / 2)
  let burst := min (rate * 10) u64Max
  ⟨relayedAddr, .new now rate burst, limitBytesPerSec⟩

/-- `AllocationBandwidthTracker::try_relay`. -/
def AllocationBandwidthTracker.tryRelay (tracker : AllocationBandwidthTracker) (now size : ℕ) :
    AllocationBandwidthTracker × Option ℕ :=
  match tracker.limitBytesPerSec with
  | none => (tracker, some u64Max)
  | some _ =>
    let (limiter, remaining) := tracker.limiter.tryConsume now size
    ({ tracker with limiter }, remaining)

structure BandwidthManager where
  trackers : HashMap String AllocationBandwidthTracker
  deriving DecidableEq

namespace BandwidthManager

/-- `BandwidthManager::register_allocation`. -/
def registerAllocation (bm : BandwidthManager) (now : ℕ) (relayedAddr : String)
    (limitBytesPerSec : Option ℕ) : BandwidthManager :=
  ⟨bm.trackers.insert relayedAddr (.new now limitBytesPerSec relayedAddr)⟩

/-- `BandwidthManager::unregister_allocation`. -/
def unregisterAllocation (bm : BandwidthManager) (relayedAddr : String) : BandwidthManager :=
  ⟨bm.trackers.erase relayedAddr⟩

theorem mem_registerAllocation {bm : BandwidthManager} {now : ℕ} {addr addr' : String}
    {limit : Option ℕ} :
    addr' ∈ (bm.registerAllocation now addr limit).trackers ↔ addr' = addr ∨ addr' ∈ bm.trackers :=
  AList.mem_insert bm.trackers

theorem mem_unregisterAllocation {bm : BandwidthManager} {addr addr' : String} :
    addr' ∈ (bm.unregisterAllocation addr).trackers ↔ addr' ≠ addr ∧ addr' ∈ bm.trackers :=
  AList.mem_erase

end BandwidthManager

/-- `BandwidthManager` with all its fields. -/
structure FullBandwidthManager extends BandwidthManager where
  globalLimiter : BandwidthLimiter
  totalBytes : ℕ
  globalLimit : Option ℕ

namespace FullBandwidthManager

/-- `BandwidthManager::new`. -/
def new (now : ℕ) (globalLimit : Option ℕ) : FullBandwidthManager :=
  let rate := globalLimit.getD (u64Max / 2)
  let burst := min (rate * 10) u64Max
  ⟨⟨∅⟩, .new now rate burst, 0, globalLimit⟩

/-- `BandwidthManager::register_allocation`. -/
def registerAllocation (bm : FullBandwidthManager) (now : ℕ) (relayedAddr : String)
    (limitBytesPerSec : Option ℕ) : FullBandwidthManager :=
  { bm with
    toBandwidthManager :=
      bm.toBandwidthManager.registerAllocation now relayedAddr limitBytesPerSec }

/-- `BandwidthManager::unregister_allocation`. -/
def unregisterAllocation (bm : FullBandwidthManager) (relayedAddr : String) :
    FullBandwidthManager :=
  { bm with toBandwidthManager := bm.toBandwidthManager.unregisterAllocation relayedAddr }

/-- The global limit in `try_relay`: the manager after it, and whether the packet may go on. -/
def chargeGlobal (bm : FullBandwidthManager) (now size : ℕ) : FullBandwidthManager × Bool :=
  match bm.globalLimit with
  | none => (bm, true)
  | some _ =>
    let (globalLimiter, remaining) := bm.globalLimiter.tryConsume now size
    ({ bm with globalLimiter }, remaining.isSome)

/-- `self.total_bytes.fetch_add(size as u64)`. -/
def count (bm : FullBandwidthManager) (size : ℕ) : FullBandwidthManager :=
  { bm with totalBytes := (bm.totalBytes + size) % 2 ^ 64 }

/-- `BandwidthManager::try_relay`. Each of the two limiters reads the clock, `now` and then
    `now'`. -/
def tryRelay (bm : FullBandwidthManager) (now now' : ℕ) (relayedAddr : String) (size : ℕ) :
    FullBandwidthManager × Bool :=
  match bm.chargeGlobal now size with
  | (bm, false) => (bm, false)
  | (bm, true) =>
    match bm.trackers.lookup relayedAddr with
    | some tracker =>
      let (tracker, remaining) := tracker.tryRelay now' size
      let bm := { bm with trackers := HashMap.modify relayedAddr (fun _ => tracker) bm.trackers }
      if remaining.isSome then (bm.count size, true) else (bm, false)
    -- no tracker means unlimited
    | none => (bm.count size, true)

end FullBandwidthManager

end Miuturn
