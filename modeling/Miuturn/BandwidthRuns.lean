import Miuturn.RateLimiter

set_option autoImplicit false

/-! # Runs of the bandwidth manager

`try_relay` consults the global limiter and then that of the allocation, each at a clock reading of
its own. First what one call does, field by field; then what runs of calls keep: along any run each
limiter is backed by the exact bucket (`BandwidthLimiter.Backed`), the global one for all that was
relayed, that of an allocation for what was relayed for it since it was registered. -/

open RustStd TokenBucket

namespace Miuturn

/-! ## One call -/

namespace BandwidthLimiter

variable (l : BandwidthLimiter) (now size : ℕ)

/-- A call changes the tokens and the time only. -/
theorem tryConsume_bucket : (l.tryConsume now size).1.bucket = l.bucket := by
  rcases lt_or_ge (l.found now) size with hlt | hle
  · rw [tryConsume_of_lt hlt]
  · rw [tryConsume_of_le hle]
    rfl

/-- A call that asks for something leaves the limiter as it was exactly if it is refused: the tokens
    that flow in during no time are none. -/
theorem tryConsume_eq_self_iff (hsize : 0 < size) :
    (l.tryConsume now size).1 = l ↔ (l.tryConsume now size).2 = none := by
  rcases lt_or_ge (l.found now) size with hlt | hle
  · rw [tryConsume_of_lt hlt]
    exact ⟨fun _ => rfl, fun _ => rfl⟩
  · rw [tryConsume_of_le hle]
    refine ⟨fun hsame => ?_, fun hnone => absurd hnone (by simp)⟩
    have htokens : l.found now - size = l.tokens := congrArg BandwidthLimiter.tokens hsame
    have htime : now = l.lastUpdate := congrArg BandwidthLimiter.lastUpdate hsame
    have hfound := l.available_le l.rateBytesPerSec (now - l.lastUpdate) l.tokens
    rw [htime, Nat.sub_self, Nat.mul_zero, Nat.zero_div, Nat.add_zero] at hfound
    have hle' : l.found now ≤ l.tokens := by
      rw [found, htime, Nat.sub_self]
      exact hfound.trans (min_le_left _ _)
    omega

theorem tryConsume_lastUpdate_le {clock : ℕ} (hl : l.lastUpdate ≤ clock) (hnow : clock ≤ now) :
    (l.tryConsume now size).1.lastUpdate ≤ now := by
  rcases lt_or_ge (l.found now) size with hlt | hle
  · rw [tryConsume_of_lt hlt]
    exact hl.trans hnow
  · rw [tryConsume_of_le hle]

end BandwidthLimiter

namespace AllocationBandwidthTracker

variable {tracker : AllocationBandwidthTracker} {now size : ℕ}

/-- A tracker lets a packet through if it has no limit or its limiter grants it. -/
def Admits (tracker : AllocationBandwidthTracker) (now size : ℕ) : Prop :=
  tracker.limitBytesPerSec = none ∨ size ≤ tracker.limiter.found now

theorem tryRelay_isSome : (tracker.tryRelay now size).2.isSome ↔ tracker.Admits now size := by
  unfold tryRelay Admits
  cases tracker.limitBytesPerSec with
  | none => simp
  | some limit =>
      simp only [reduceCtorEq, false_or]
      exact BandwidthLimiter.tryConsume_isSome

theorem tryRelay_of_limit {limit : ℕ} (h : tracker.limitBytesPerSec = some limit) :
    (tracker.tryRelay now size).1
      = { tracker with limiter := (tracker.limiter.tryConsume now size).1 } := by
  obtain ⟨relayedAddr, limiter, limit'⟩ := tracker
  obtain rfl : limit' = some limit := h
  rfl

/-- A packet that a tracker refuses has a size and leaves the tracker as it was. -/
theorem tryRelay_of_not_admits (h : ¬ tracker.Admits now size) :
    0 < size ∧ (tracker.tryRelay now size).1 = tracker := by
  obtain ⟨relayedAddr, limiter, limit⟩ := tracker
  obtain ⟨hlimit, hlt⟩ := not_or.1 h
  rw [not_le] at hlt
  refine ⟨Nat.zero_lt_of_lt hlt, ?_⟩
  unfold tryRelay
  cases limit with
  | none => exact absurd rfl hlimit
  | some limit =>
      dsimp only at hlt ⊢
      rw [BandwidthLimiter.tryConsume_of_lt hlt]

end AllocationBandwidthTracker

namespace FullBandwidthManager

variable {bm : FullBandwidthManager} {now now' size : ℕ} {addr a : String}

/-- The global limiter lets a packet through. -/
def GlobalAdmits (bm : FullBandwidthManager) (now size : ℕ) : Prop :=
  bm.globalLimit = none ∨ size ≤ bm.globalLimiter.found now

instance : Decidable (bm.GlobalAdmits now size) := inferInstanceAs (Decidable (_ ∨ _))

/-- The global limiter after a call. -/
def globalLimiterAfter (bm : FullBandwidthManager) (now size : ℕ) : BandwidthLimiter :=
  if bm.globalLimit.isSome then (bm.globalLimiter.tryConsume now size).1 else bm.globalLimiter

theorem chargeGlobal_eq : bm.chargeGlobal now size
    = ({ bm with globalLimiter := bm.globalLimiterAfter now size },
      decide (bm.GlobalAdmits now size)) := by
  obtain ⟨trackers, limiter, total, limit⟩ := bm
  unfold chargeGlobal globalLimiterAfter GlobalAdmits
  cases limit with
  | none => simp
  | some G =>
      rcases lt_or_ge (limiter.found now) size with hlt | hle
      · simp [BandwidthLimiter.tryConsume_of_lt hlt, hlt]
      · simp [BandwidthLimiter.tryConsume_of_le hle, hle]

/-- `try_relay` by its result. A refused packet has a size, and all that it changes is the global
    limiter; one that is relayed was let through by both limiters. -/
theorem tryRelay_cases (bm : FullBandwidthManager) (now now' : ℕ) (addr : String) (size : ℕ) :
    (0 < size ∧ bm.tryRelay now now' addr size
      = ({ bm with globalLimiter := bm.globalLimiterAfter now size }, false)) ∨
    (bm.GlobalAdmits now size ∧
      (∀ tracker, bm.trackers.lookup addr = some tracker → tracker.Admits now' size) ∧
      bm.tryRelay now now' addr size = (({ bm with
        globalLimiter := bm.globalLimiterAfter now size,
        trackers := HashMap.modify addr (fun tracker => (tracker.tryRelay now' size).1) bm.trackers
        } : FullBandwidthManager).count size, true)) := by
  unfold tryRelay
  rw [chargeGlobal_eq]
  by_cases hglobal : bm.GlobalAdmits now size
  · rw [decide_eq_true hglobal]
    dsimp only
    cases hlookup : bm.trackers.lookup addr with
    | none =>
        have hsame := HashMap.modify_eq_self (m := bm.trackers) (k := addr)
          (f := fun tracker => (tracker.tryRelay now' size).1)
          (fun tracker hsome => absurd (hlookup.symm.trans hsome) (by simp))
        rw [hsame]
        exact Or.inr ⟨hglobal, fun _ hsome => absurd hsome (by simp), rfl⟩
    | some tracker =>
        dsimp only
        by_cases hadmits : tracker.Admits now' size
        · have honly := HashMap.modify_congr (m := bm.trackers) (k := addr)
            (f := fun _ => (tracker.tryRelay now' size).1)
            (g := fun tracker => (tracker.tryRelay now' size).1)
            (fun v hv => by rw [Option.some.inj (hlookup.symm.trans hv)])
          rw [if_pos (AllocationBandwidthTracker.tryRelay_isSome.2 hadmits), honly]
          exact Or.inr ⟨hglobal, fun v hv => Option.some.inj hv ▸ hadmits, rfl⟩
        · obtain ⟨hsize, hkept⟩ := AllocationBandwidthTracker.tryRelay_of_not_admits hadmits
          have hsame := HashMap.modify_eq_self (m := bm.trackers) (k := addr)
            (f := fun _ => tracker) (fun v hv => Option.some.inj (hlookup.symm.trans hv))
          rw [if_neg (mt AllocationBandwidthTracker.tryRelay_isSome.1 hadmits), hkept, hsame]
          exact Or.inl ⟨hsize, rfl⟩
  · rw [decide_eq_false hglobal]
    exact Or.inl ⟨Nat.zero_lt_of_lt (not_le.1 (not_or.1 hglobal).2), rfl⟩

/-- What it leaves of the global limiter, whatever it returns. -/
theorem tryRelay_global (bm : FullBandwidthManager) (now now' : ℕ) (addr : String) (size : ℕ) :
    (bm.tryRelay now now' addr size).1.globalLimit = bm.globalLimit ∧
      (bm.tryRelay now now' addr size).1.globalLimiter = bm.globalLimiterAfter now size := by
  rcases bm.tryRelay_cases now now' addr size with ⟨-, h⟩ | ⟨-, -, h⟩
  · rw [h]
    exact ⟨rfl, rfl⟩
  · rw [h]
    exact ⟨rfl, rfl⟩

/-- A packet that is relayed was let through by both limiters. -/
theorem tryRelay_granted (h : (bm.tryRelay now now' addr size).2 = true) :
    bm.GlobalAdmits now size ∧
      ∀ tracker, bm.trackers.lookup addr = some tracker → tracker.Admits now' size := by
  rcases bm.tryRelay_cases now now' addr size with ⟨-, heq⟩ | ⟨hglobal, hadmits, -⟩
  · rw [heq] at h
    cases h
  · exact ⟨hglobal, hadmits⟩

/-- Exactly the packets that are relayed are counted. -/
theorem tryRelay_totalBytes (bm : FullBandwidthManager) (now now' : ℕ) (addr : String) (size : ℕ) :
    (bm.tryRelay now now' addr size).1.totalBytes
      = if (bm.tryRelay now now' addr size).2 then (bm.totalBytes + size) % 2 ^ 64
        else bm.totalBytes := by
  rcases bm.tryRelay_cases now now' addr size with ⟨-, h⟩ | ⟨-, -, h⟩
  · rw [h]
    rfl
  · rw [h]
    rfl

/-- Only a packet that is relayed changes a tracker, that of its address. -/
theorem tryRelay_lookup (bm : FullBandwidthManager) (now now' : ℕ) (addr : String) (size : ℕ)
    (a : String) : (bm.tryRelay now now' addr size).1.trackers.lookup a
      = if a = addr ∧ (bm.tryRelay now now' addr size).2 = true then
          (bm.trackers.lookup addr).map (fun tracker => (tracker.tryRelay now' size).1)
        else bm.trackers.lookup a := by
  rcases bm.tryRelay_cases now now' addr size with ⟨-, h⟩ | ⟨-, -, h⟩
  · rw [h, if_neg (by simp)]
  · rw [h]
    show (HashMap.modify addr _ bm.trackers).lookup a = _
    rw [HashMap.lookup_modify]
    by_cases ha : a = addr
    · rw [if_pos ha, if_pos ⟨ha, rfl⟩]
    · rw [if_neg ha, if_neg (fun h => ha h.1)]

/-- A refused packet has a size. -/
theorem size_pos_of_refused (h : (bm.tryRelay now now' addr size).2 = false) : 0 < size := by
  rcases bm.tryRelay_cases now now' addr size with ⟨hsize, -⟩ | ⟨-, -, heq⟩
  · exact hsize
  · rw [heq] at h
    cases h

/-- **Refused packets.** A refused packet leaves the tokens and the time of every limiter and the
    counter of bytes as they were exactly if there is no global limit or it is the global limiter
    that refused. -/
theorem refused_costs_nothing_iff (h : (bm.tryRelay now now' addr size).2 = false) :
    ((bm.tryRelay now now' addr size).1.globalLimiter = bm.globalLimiter ∧
      (∀ a, (bm.tryRelay now now' addr size).1.trackers.lookup a = bm.trackers.lookup a) ∧
      (bm.tryRelay now now' addr size).1.totalBytes = bm.totalBytes) ↔
    bm.globalLimit = none ∨ (bm.globalLimiter.tryConsume now size).2 = none := by
  have htrackers := bm.tryRelay_lookup now now' addr size
  have htotal := bm.tryRelay_totalBytes now now' addr size
  simp only [h, Bool.false_eq_true, and_false, if_false] at htrackers htotal
  have hglobal := (bm.tryRelay_global now now' addr size).2
  rw [hglobal, globalLimiterAfter]
  cases hlimit : bm.globalLimit with
  | none => exact ⟨fun _ => Or.inl rfl, fun _ => ⟨rfl, htrackers, htotal⟩⟩
  | some G =>
      rw [if_pos Option.isSome_some,
        BandwidthLimiter.tryConsume_eq_self_iff _ _ _ (size_pos_of_refused h)]
      simp only [reduceCtorEq, false_or]
      exact ⟨fun hcost => hcost.1, fun hnone => ⟨hnone, htrackers, htotal⟩⟩

/-- A new manager with one allocation. -/
def withAllocation (globalLimit : Option ℕ) (limit : ℕ) : FullBandwidthManager :=
  (new 0 globalLimit).registerAllocation 0 "a" (some limit)

/-- No global limit, and an allocation of ten bytes per second that asks for more than its burst. -/
theorem refused_costs_nothing_iff_unlimited :
    ((withAllocation none 10).tryRelay 0 0 "a" 101).2 = false ∧
    ((withAllocation none 10).tryRelay 0 0 "a" 101).1.globalLimiter
      = (withAllocation none 10).globalLimiter ∧
    (∀ a, ((withAllocation none 10).tryRelay 0 0 "a" 101).1.trackers.lookup a
      = (withAllocation none 10).trackers.lookup a) ∧
    ((withAllocation none 10).tryRelay 0 0 "a" 101).1.totalBytes
      = (withAllocation none 10).totalBytes := by
  have h : ((withAllocation none 10).tryRelay 0 0 "a" 101).2 = false := by decide +kernel
  exact ⟨h, (refused_costs_nothing_iff h).2 (Or.inl rfl)⟩

/-- A throttled allocation uses up the budget of the others: of a global burst of 10000 bytes, 9000
    are gone with a packet that the allocation's own limiter then refuses, and 5000 bytes for an
    address without a limit, which would have been let through before it, no longer are. -/
theorem refused_packet_charged :
    ((withAllocation (some 1000) 1).tryRelay 0 0 "a" 9000).2 = false ∧
    (withAllocation (some 1000) 1).globalLimiter = ⟨10000, 10000, 1000, 0⟩ ∧
    ((withAllocation (some 1000) 1).tryRelay 0 0 "a" 9000).1.globalLimiter
      = ⟨10000, 1000, 1000, 0⟩ ∧
    ((withAllocation (some 1000) 1).tryRelay 0 0 "b" 5000).2 = true ∧
    (((withAllocation (some 1000) 1).tryRelay 0 0 "a" 9000).1.tryRelay 0 0 "b" 5000).2 = false := by
  decide +kernel

end FullBandwidthManager

/-! ## Limiters along runs -/

namespace BandwidthLimiter

variable {l l' : BandwidthLimiter} {clock clock' : ℕ} {g : Option (Grant ℚ)} {b : Bucket ℚ}
  {s : Level ℚ} {gs : List (Grant ℚ)}

/-- What one call of the manager can do to a limiter between two readings of the clock: nothing,
    charge it for a packet that is not relayed after all, or grant it one that is. -/
inductive Used (l : BandwidthLimiter) (clock : ℕ) :
    Option (Grant ℚ) → BandwidthLimiter → ℕ → Prop
  | idle {clock' : ℕ} : clock ≤ clock' → Used l clock none l clock'
  | charged {now clock' : ℕ} (size : ℕ) : clock ≤ now → now ≤ clock' →
      Used l clock none (l.tryConsume now size).1 clock'
  | granted {now clock' size : ℕ} : clock ≤ now → now ≤ clock' → size ≤ l.found now →
      Used l clock (some ⟨seconds now, size⟩) (l.tryConsume now size).1 clock'

/-- A limiter that was full at `s` and has granted `gs` since, at the reading `clock`. -/
structure Metering (l : BandwidthLimiter) (clock : ℕ) (b : Bucket ℚ) (s : Level ℚ)
    (gs : List (Grant ℚ)) : Prop where
  bucket_eq : l.bucket = b
  time_le : l.lastUpdate ≤ clock
  backed : l.Backed s gs

theorem metering_new (now rate burst : ℕ) : (BandwidthLimiter.new now rate burst).Metering now
    ⟨rate, burst⟩ ⟨burst, seconds now⟩ [] :=
  ⟨rfl, le_rfl, backed_new now rate burst⟩

theorem Metering.used (h : l.Metering clock b s gs) (hused : l.Used clock g l' clock') :
    l'.Metering clock' b s (gs ++ g.toList) := by
  obtain ⟨hbucket, htime, hbacked⟩ := h
  cases hused with
  | idle hclock =>
      rw [Option.toList_none, List.append_nil]
      exact ⟨hbucket, htime.trans hclock, hbacked⟩
  | charged size hnow hclock =>
      rw [Option.toList_none, List.append_nil]
      exact ⟨(l.tryConsume_bucket _ size).trans hbucket,
        (l.tryConsume_lastUpdate_le _ size htime hnow).trans hclock,
        hbacked.charge (htime.trans hnow)⟩
  | granted hnow hclock hsize =>
      exact ⟨(l.tryConsume_bucket _ _).trans hbucket,
        (l.tryConsume_lastUpdate_le _ _ htime hnow).trans hclock,
        hbacked.grant (htime.trans hnow) hsize⟩

/-- What was granted in a window. -/
theorem Metering.windowSum_le {rate burst : ℕ} (h : l.Metering clock ⟨rate, burst⟩ s gs)
    {t₀ t₁ : ℕ} (ht : t₀ ≤ t₁) : windowSum (seconds t₀) (seconds t₁) gs
      ≤ burst + rate * (seconds t₁ - seconds t₀) := by
  have hcovered := h.backed.covered
  rw [h.bucket_eq] at hcovered
  exact hcovered.windowSum_le (Nat.cast_nonneg rate) (Nat.cast_nonneg burst) (seconds_le.2 ht)

/-- No call leaves more tokens than fit. -/
theorem tryConsume_tokens_le (h : l.tokens ≤ l.maxTokens) (now size : ℕ) :
    (l.tryConsume now size).1.tokens ≤ (l.tryConsume now size).1.maxTokens := by
  rcases lt_or_ge (l.found now) size with hlt | hle
  · rw [tryConsume_of_lt hlt]
    exact h
  · rw [tryConsume_of_le hle]
    exact (Nat.sub_le _ _).trans (l.found_le_max now)

end BandwidthLimiter

theorem AllocationBandwidthTracker.tryRelay_tokens_le {tracker : AllocationBandwidthTracker}
    (h : tracker.limiter.tokens ≤ tracker.limiter.maxTokens) (now size : ℕ) :
    (tracker.tryRelay now size).1.limiter.tokens
      ≤ (tracker.tryRelay now size).1.limiter.maxTokens := by
  cases hlimit : tracker.limitBytesPerSec with
  | none =>
      unfold tryRelay
      rw [hlimit]
      exact h
  | some limit =>
      rw [tryRelay_of_limit hlimit]
      exact BandwidthLimiter.tryConsume_tokens_le h now size

/-! ## Runs of calls -/

/-- A call on a manager, with its clock readings and, of `try_relay`, the result. -/
inductive ManagerCall
  | register (now : ℕ) (addr : String) (limit : Option ℕ)
  | unregister (addr : String)
  | relay (now now' : ℕ) (addr : String) (size : ℕ) (granted : Bool)

namespace ManagerCall

/-- The size that a call was granted. -/
def grantedSize : ManagerCall → Option ℕ
  | relay _ _ _ size true => some size
  | _ => none

/-- What it was granted, at the reading of the global limiter. -/
def globalGrant : ManagerCall → Option (Grant ℚ)
  | relay now _ _ size true => some ⟨seconds now, size⟩
  | _ => none

/-- What it was granted for an address, at the reading of the address's limiter. -/
def grantFor (addr : String) : ManagerCall → Option (Grant ℚ)
  | relay _ now' addr' size true => if addr' = addr then some ⟨seconds now', size⟩ else none
  | _ => none

/-- The call starts or ends a registration of the address. -/
def Registers (addr : String) : ManagerCall → Prop
  | register _ addr' _ => addr' = addr
  | unregister addr' => addr' = addr
  | relay .. => False

end ManagerCall

/-- A manager and the last clock reading. -/
structure Managed where
  manager : FullBandwidthManager
  clock : ℕ

/-- One call after another, at readings that never go back. -/
inductive Managed.Step : Managed → ManagerCall → Managed → Prop
  | register {bm : FullBandwidthManager} {clock now : ℕ} (addr : String) (limit : Option ℕ) :
      clock ≤ now →
      Step ⟨bm, clock⟩ (.register now addr limit) ⟨bm.registerAllocation now addr limit, now⟩
  | unregister {bm : FullBandwidthManager} {clock : ℕ} (addr : String) :
      Step ⟨bm, clock⟩ (.unregister addr) ⟨bm.unregisterAllocation addr, clock⟩
  | relay {bm : FullBandwidthManager} {clock now now' : ℕ} (addr : String) (size : ℕ) :
      clock ≤ now → now ≤ now' →
      Step ⟨bm, clock⟩ (.relay now now' addr size (bm.tryRelay now now' addr size).2)
        ⟨(bm.tryRelay now now' addr size).1, now'⟩

namespace Managed

variable {w w' : Managed} {c : ManagerCall} {G L : ℕ} {addr : String}

/-- What a call does to the global limiter, if there is a global limit. -/
theorem Step.global (h : w.Step c w') (hlimit : w.manager.globalLimit = some G) :
    w'.manager.globalLimit = some G ∧
      w.manager.globalLimiter.Used w.clock c.globalGrant w'.manager.globalLimiter w'.clock := by
  cases h with
  | register _ _ hclock => exact ⟨hlimit, .idle hclock⟩
  | unregister _ => exact ⟨hlimit, .idle le_rfl⟩
  | @relay bm clock now now' addr size hclock hnow =>
      obtain ⟨hsame, hafter⟩ := bm.tryRelay_global now now' addr size
      dsimp only at hlimit ⊢
      rw [FullBandwidthManager.globalLimiterAfter, hlimit, if_pos Option.isSome_some] at hafter
      refine ⟨hsame.trans hlimit, ?_⟩
      rw [hafter]
      cases hgranted : (bm.tryRelay now now' addr size).2 with
      | false => exact .charged size hclock hnow
      | true =>
          rcases (FullBandwidthManager.tryRelay_granted hgranted).1 with hnone | hfound
          · rw [hnone] at hlimit
            cases hlimit
          · exact .granted hclock hnow hfound

/-- What it does to the limiter of an address that stays registered. -/
theorem Step.tracker (h : w.Step c w') (hregisters : ¬ c.Registers addr)
    {tracker : AllocationBandwidthTracker} (hlookup : w.manager.trackers.lookup addr = some tracker)
    (hlimit : tracker.limitBytesPerSec = some L) :
    ∃ tracker', w'.manager.trackers.lookup addr = some tracker' ∧
      tracker'.limitBytesPerSec = some L ∧
      tracker.limiter.Used w.clock (c.grantFor addr) tracker'.limiter w'.clock := by
  cases h with
  | @register bm clock now addr' limit hclock =>
      refine ⟨tracker, ?_, hlimit, .idle hclock⟩
      exact (AList.lookup_insert_ne (Ne.symm hregisters)).trans hlookup
  | @unregister bm clock addr' =>
      refine ⟨tracker, ?_, hlimit, .idle le_rfl⟩
      exact (AList.lookup_erase_ne (Ne.symm hregisters)).trans hlookup
  | @relay bm clock now now' addr' size hclock hnow =>
      have hafter := bm.tryRelay_lookup now now' addr' size addr
      dsimp only at hlookup ⊢
      cases hgranted : (bm.tryRelay now now' addr' size).2 with
      | false =>
          rw [hgranted, if_neg (by simp)] at hafter
          exact ⟨tracker, hafter.trans hlookup, hlimit, .idle (hclock.trans hnow)⟩
      | true =>
          by_cases haddr : addr' = addr
          · subst haddr
            rcases (FullBandwidthManager.tryRelay_granted hgranted).2 tracker hlookup with
              hnone | hfound
            · rw [hnone] at hlimit
              cases hlimit
            · rw [hgranted, if_pos ⟨rfl, rfl⟩, hlookup, Option.map_some,
                AllocationBandwidthTracker.tryRelay_of_limit hlimit] at hafter
              refine ⟨_, hafter, hlimit, ?_⟩
              rw [ManagerCall.grantFor, if_pos rfl]
              exact .granted (hclock.trans hnow) le_rfl hfound
          · rw [if_neg (fun h => haddr h.1.symm)] at hafter
            refine ⟨tracker, hafter.trans hlookup, hlimit, ?_⟩
            rw [ManagerCall.grantFor, if_neg haddr]
            exact .idle (hclock.trans hnow)

/-- Every limiter of the manager holds at most what fits. -/
def TokensFit (bm : FullBandwidthManager) : Prop :=
  bm.globalLimiter.tokens ≤ bm.globalLimiter.maxTokens ∧
    ∀ addr tracker, bm.trackers.lookup addr = some tracker →
      tracker.limiter.tokens ≤ tracker.limiter.maxTokens

theorem Step.tokensFit (h : w.Step c w') (hfit : TokensFit w.manager) : TokensFit w'.manager := by
  obtain ⟨hglobal, htrackers⟩ := hfit
  cases h with
  | @register bm clock now addr limit hclock =>
      refine ⟨hglobal, fun a tracker hlookup => ?_⟩
      rcases HashMap.lookup_insert_eq_some.1 hlookup with ⟨-, rfl⟩ | ⟨-, hold⟩
      · exact le_rfl
      · exact htrackers a tracker hold
  | @unregister bm clock addr =>
      exact ⟨hglobal, fun a tracker hlookup =>
        htrackers a tracker (HashMap.lookup_erase_eq_some.1 hlookup).2⟩
  | @relay bm clock now now' addr size hclock hnow =>
      constructor
      · dsimp only
        rw [(bm.tryRelay_global now now' addr size).2, FullBandwidthManager.globalLimiterAfter]
        split
        · exact BandwidthLimiter.tryConsume_tokens_le hglobal now size
        · exact hglobal
      · intro a tracker hlookup
        rw [bm.tryRelay_lookup now now' addr size a] at hlookup
        split at hlookup
        · obtain ⟨tracker₀, hbefore, rfl⟩ := Option.map_eq_some_iff.1 hlookup
          exact AllocationBandwidthTracker.tryRelay_tokens_le (htrackers _ _ hbefore) now' size
        · exact htrackers a tracker hlookup

variable {now now₀ : ℕ} {limit : Option ℕ} {history : List ManagerCall}

/-- Along a run the global limiter is metered for all that was granted. -/
theorem global_metering (h : Trace.Run Step ⟨.new now₀ (some G), now₀⟩ history w) :
    w.manager.globalLimit = some G ∧
      w.manager.globalLimiter.Metering w.clock ⟨G, (min (G * 10) u64Max : ℕ)⟩
        ⟨(min (G * 10) u64Max : ℕ), seconds now₀⟩ (history.filterMap ManagerCall.globalGrant) := by
  refine h.invariant (P := fun history w => w.manager.globalLimit = some G ∧
      w.manager.globalLimiter.Metering w.clock ⟨G, (min (G * 10) u64Max : ℕ)⟩
        ⟨(min (G * 10) u64Max : ℕ), seconds now₀⟩ (history.filterMap ManagerCall.globalGrant))
    ⟨rfl, BandwidthLimiter.metering_new now₀ G _⟩ ?_
  rintro history w c w' - ⟨hlimit, hmetering⟩ hstep
  obtain ⟨hlimit', hused⟩ := hstep.global hlimit
  rw [Trace.filterMap_snoc]
  exact ⟨hlimit', hmetering.used hused⟩

/-- So is the limiter of an address, from its registration on, for what was granted for it. -/
theorem tracker_metering {w₁ : Managed} (hreg : w.Step (.register now addr (some L)) w₁)
    (h : Trace.Run Step w₁ history w') (hwithin : ∀ c ∈ history, ¬ c.Registers addr) :
    ∃ tracker, w'.manager.trackers.lookup addr = some tracker ∧
      tracker.limitBytesPerSec = some L ∧
      tracker.limiter.Metering w'.clock ⟨L, (min (L * 10) u64Max : ℕ)⟩
        ⟨(min (L * 10) u64Max : ℕ), seconds now⟩
        (history.filterMap (ManagerCall.grantFor addr)) := by
  induction h with
  | nil =>
      cases hreg with
      | @register bm clock now addr limit hclock =>
          exact ⟨_, AList.lookup_insert bm.trackers, rfl, BandwidthLimiter.metering_new now L _⟩
  | @snoc history w₂ w₃ c hrun hstep ih =>
      obtain ⟨tracker, hlookup, hlimit, hmetering⟩ :=
        ih (fun c hc => hwithin c (List.mem_append_left _ hc))
      have hlast := hwithin c (List.mem_append_right _ (List.mem_singleton_self c))
      obtain ⟨tracker', hlookup', hlimit', hused⟩ := hstep.tracker hlast hlookup hlimit
      rw [Trace.filterMap_snoc]
      exact ⟨tracker', hlookup', hlimit', hmetering.used hused⟩

/-- The counter adds up the sizes of the relayed packets. -/
theorem total_eq (h : Trace.Run Step ⟨.new now₀ limit, now₀⟩ history w) :
    w.manager.totalBytes = (history.filterMap ManagerCall.grantedSize).sum % 2 ^ 64 := by
  refine h.invariant (P := fun history w =>
    w.manager.totalBytes = (history.filterMap ManagerCall.grantedSize).sum % 2 ^ 64) rfl ?_
  intro history w c w' _ htotal hstep
  rw [Trace.filterMap_snoc, List.sum_append]
  cases hstep with
  | register _ _ _ => exact htotal
  | unregister _ => exact htotal
  | @relay bm clock now now' addr size _ _ =>
      dsimp only at htotal ⊢
      rw [bm.tryRelay_totalBytes, htotal]
      cases (bm.tryRelay now now' addr size).2 with
      | false => rfl
      | true =>
          show (_ % 2 ^ 64 + size) % 2 ^ 64 = (_ + [size].sum) % 2 ^ 64
          rw [List.sum_singleton, Nat.mod_add_mod]

/-- **Bandwidth limits.** Along every run of calls on a manager, at readings that never go back:
    with a global limit, what `try_relay` let through in a window of time is at most the burst and
    the limit times the length of the window; within one registration with a limit, the same holds
    for what it let through for the address; every limiter holds at most what fits; and the counter
    is the sum of all that was let through. -/
theorem grants_within_rate (limit : Option ℕ) (now₀ : ℕ) {history : List ManagerCall} {w : Managed}
    (hrun : Trace.Run Step ⟨.new now₀ limit, now₀⟩ history w) :
    (∀ G, limit = some G → ∀ t₀ t₁, t₀ ≤ t₁ →
      windowSum (seconds t₀) (seconds t₁) (history.filterMap ManagerCall.globalGrant)
        ≤ (min (G * 10) u64Max : ℕ) + G * (seconds t₁ - seconds t₀)) ∧
    (∀ before now addr L within after,
      history = before ++ .register now addr (some L) :: (within ++ after) →
      (∀ c ∈ within, ¬ c.Registers addr) → ∀ t₀ t₁, t₀ ≤ t₁ →
      windowSum (seconds t₀) (seconds t₁) (within.filterMap (ManagerCall.grantFor addr))
        ≤ (min (L * 10) u64Max : ℕ) + L * (seconds t₁ - seconds t₀)) ∧
    (w.manager.globalLimiter.tokens ≤ w.manager.globalLimiter.maxTokens ∧
      ∀ addr tracker, w.manager.trackers.lookup addr = some tracker →
        tracker.limiter.tokens ≤ tracker.limiter.maxTokens) ∧
    w.manager.totalBytes = (history.filterMap ManagerCall.grantedSize).sum % 2 ^ 64 := by
  refine ⟨?_, ?_, ?_, total_eq hrun⟩
  · rintro G rfl t₀ t₁ ht
    exact (global_metering hrun).2.windowSum_le ht
  · intro before now addr L within after hsplit hwithin t₀ t₁ ht
    obtain ⟨w₁, w₂, -, hreg, hrest⟩ := hrun.at hsplit
    obtain ⟨w₃, hmid, -⟩ := hrest.split
    obtain ⟨tracker, -, -, hmetering⟩ := tracker_metering hreg hmid hwithin
    exact hmetering.windowSum_le ht
  · have hempty : TokensFit (.new now₀ limit) :=
      ⟨le_rfl, fun addr tracker hlookup => absurd hlookup (by simp [FullBandwidthManager.new])⟩
    exact hrun.invariant (P := fun _ w => TokensFit w.manager) hempty
      (fun _ _ _ _ _ hfit hstep => hstep.tokensFit hfit)

/-- An allocation of ten bytes per second takes its burst, a second later it asks for more than has
    flowed in and is refused, and then for just that. -/
def tenPerSecond : List ManagerCall :=
  [.relay 0 0 "a" 100 true, .relay 1000000000 1000000000 "a" 11 false,
    .relay 1000000000 1000000000 "a" 10 true]

theorem grants_within_rate_tenPerSecond :
    ∃ w, Trace.Run Step ⟨.new 0 (some 1000), 0⟩ (.register 0 "a" (some 10) :: tenPerSecond) w ∧
      windowSum (seconds 0) (seconds 1000000000)
        (tenPerSecond.filterMap (ManagerCall.grantFor "a"))
          ≤ (min (10 * 10) u64Max : ℕ) + (10 : ℕ) * (seconds 1000000000 - seconds 0) ∧
      w.manager.totalBytes = 110 := by
  have hrelay : ∀ (bm : FullBandwidthManager) (clock now size : ℕ) (granted : Bool), clock ≤ now →
      (bm.tryRelay now now "a" size).2 = granted →
      Step ⟨bm, clock⟩ (.relay now now "a" size granted)
        ⟨(bm.tryRelay now now "a" size).1, now⟩ := by
    rintro bm clock now size granted hclock rfl
    exact .relay "a" size hclock le_rfl
  have hreg : Step ⟨.new 0 (some 1000), 0⟩ (.register 0 "a" (some 10))
      ⟨.withAllocation (some 1000) 10, 0⟩ := .register "a" (some 10) le_rfl
  have hrun := (((Trace.Run.single hreg).snoc
    (hrelay _ 0 0 100 true (by decide) (by decide +kernel))).snoc
    (hrelay _ 0 1000000000 11 false (by decide) (by decide +kernel))).snoc
    (hrelay _ _ 1000000000 10 true (by decide) (by decide +kernel))
  have hquiet : ∀ c ∈ tenPerSecond, ¬ c.Registers "a" := by
    simp [tenPerSecond, ManagerCall.Registers]
  obtain ⟨-, hwithin, -, htotal⟩ := grants_within_rate _ _ hrun
  exact ⟨_, hrun, hwithin [] 0 "a" 10 tenPerSecond [] rfl hquiet 0 1000000000 (by decide), htotal⟩

end Managed

end Miuturn
