import Miuturn.BulkExpiry
import Miuturn.Expiry

set_option autoImplicit false

/-! # What nobody else can touch

An allocation changes by the requests of its own client and goes when it has expired; nothing else
that happens to the server reaches it. Stated for one step in `Step.sameAt`: the requests of other
clients, ChannelData, changes to the users and the passes that clean up leave an allocation that is
alive, and its channel bindings that are alive, as they are. -/

open RustStd

namespace Miuturn

variable {D : Digests} {env : Env} {server server' : TurnServer} {msg : Message}
  {client k : SocketAddr} {a : Allocation} {o : Outcome} {e : Transition}

/-- Two servers that have the same at one relayed address: the allocation, and the bindings. -/
structure SameAt (k : SocketAddr) (server server' : TurnServer) : Prop where
  allocation : server'.allocationTable.allocations.lookup k
    = server.allocationTable.allocations.lookup k
  bindings : ∀ n, server'.channelTable.getByChannel k n = server.channelTable.getByChannel k n

theorem SameAt.refl (k : SocketAddr) (server : TurnServer) : SameAt k server server :=
  ⟨rfl, fun _ => rfl⟩

/-- Removing one allocation leaves the others and their bindings. -/
theorem sameAt_without {addr : SocketAddr} (hne : k ≠ addr) :
    SameAt k server (server.without addr) where
  allocation := by
    apply Option.ext
    intro a
    exact lookup_removeAllocation.trans (and_iff_right hne)
  bindings := by
    intro n
    apply Option.ext
    intro b
    show (server.allocationTable.removeAllocation server.channelTable addr).1.2.channels.lookup
      (k, n) = some b ↔ server.channelTable.channels.lookup (k, n) = some b
    cases haddr : server.allocationTable.allocations.lookup addr with
    | none => rw [removeAllocation_of_none haddr]
    | some a' =>
        rw [removeAllocation_of_some haddr]
        exact lookup_removeForRelayed.trans (and_iff_left hne)

/-- The entry of one client is not where another client's is. -/
theorem Consistent.key_ne (hc : server.Consistent)
    (ha : server.allocationTable.allocations.lookup k = some a) (hother : a.clientAddr ≠ client)
    {entry : Σ _ : SocketAddr, Allocation}
    (hentry : server.allocationTable.entryOfClient client = some entry) :
    k ≠ entry.1 ∧ k ≠ entry.2.relayedAddr := by
  obtain ⟨hlookup, hclient⟩ := entryOfClient_eq_some hentry
  have hne : k ≠ entry.1 := by
    rintro rfl
    obtain rfl := Option.some.inj (ha.symm.trans hlookup)
    exact hother hclient
  exact ⟨hne, by rwa [(hc.key _ _ hlookup).1]⟩

theorem sameAt_removeExisting (hc : server.Consistent)
    (ha : server.allocationTable.allocations.lookup k = some a)
    (hother : a.clientAddr ≠ client) : SameAt k server (removeExisting server client).1 := by
  rcases removeExisting_cases server client with ⟨-, heq⟩ | ⟨entry, hentry, heq⟩
  · rw [heq]
    exact .refl k server
  · rw [heq]
    exact sameAt_without (hc.key_ne ha hother hentry).2

/-- A request leaves the allocation of another client and its bindings as they are. -/
theorem Effect.sameAt (he : Effect D env server msg client o) (hc : server.Consistent)
    (ha : server.allocationTable.allocations.lookup k = some a)
    (hother : a.clientAddr ≠ client) : SameAt k server o.server := by
  cases he with
  | inert _ => exact .refl k server
  | challenge reason _ => exact ⟨rfl, fun _ => rfl⟩
  | allocateFailed _ _ _ _ =>
      have hsame := sameAt_removeExisting hc ha hother
      exact ⟨hsame.allocation, hsame.bindings⟩
  | allocated _ _ htake hport _ =>
      have hsame := sameAt_removeExisting hc ha hother
      have hnew := (hc.removeExisting client).notMem_of_takes htake hport
      refine ⟨?_, hsame.bindings⟩
      -- the new key is not in use, so it is not this one
      rw [← hsame.allocation]
      refine AList.lookup_insert_ne ?_
      rintro rfl
      exact hnew (HashMap.mem_of_lookup (hsame.allocation.trans ha))
  | deleted _ _ hentry _ => exact sameAt_without (hc.key_ne ha hother hentry).2
  | refreshed _ _ hentry _ htable _ =>
      refine ⟨?_, fun _ => rfl⟩
      rw [refreshAllocation_eq_ok htable]
      show (HashMap.modify _ _ _).lookup k = _
      rw [HashMap.lookup_modify, if_neg (hc.key_ne ha hother hentry).2]
  | permitted _ _ hentry _ =>
      refine ⟨?_, fun _ => rfl⟩
      simp only [AllocationTable.addPermissions, hentry]
      rw [HashMap.lookup_modify, if_neg (hc.key_ne ha hother hentry).1]
  | bound _ _ hentry _ _ _ hbind _ =>
      refine ⟨rfl, fun n => (bind_eq_ok hbind).1 (k, n) ?_⟩
      intro hkey
      exact (hc.key_ne ha hother hentry).2 (Prod.ext_iff.1 hkey).1
  | relayed peer data _ =>
      rcases sendToPeer_cases server.allocationTable env.sendOk client peer data with
        heq | ⟨entry, relay, hentry, -, heq⟩
      · rw [heq]
        exact .refl k server
      · rw [heq]
        refine ⟨?_, fun _ => rfl⟩
        show (HashMap.modify _ _ _).lookup k = _
        rw [HashMap.lookup_modify, if_neg (hc.key_ne ha hother hentry).1]

/-! ## Steps -/

/-- What is left of an allocation and its bindings at a time `now`: all of the allocation, no other
    bindings than before, and of those the ones that have not expired. -/
structure KeptAt (k : SocketAddr) (a : Allocation) (now : ℕ) (server server' : TurnServer) :
    Prop where
  allocation : server'.allocationTable.allocations.lookup k = some a
  old : ∀ n b, server'.channelTable.getByChannel k n = some b →
    server.channelTable.getByChannel k n = some b
  alive : ∀ n b, server.channelTable.getByChannel k n = some b →
    now ≤ b.createdAt + b.lifetime → server'.channelTable.getByChannel k n = some b

theorem SameAt.keptAt {now : ℕ} (h : SameAt k server server')
    (ha : server.allocationTable.allocations.lookup k = some a) :
    KeptAt k a now server server' where
  allocation := h.allocation.trans ha
  old := fun n _ hb => (h.bindings n).symm.trans hb
  alive := fun n _ hb _ => (h.bindings n).trans hb

theorem KeptAt.trans {server'' : TurnServer} {now now' : ℕ} (hle : now ≤ now')
    (h : KeptAt k a now server server') (h' : KeptAt k a now' server' server'') :
    KeptAt k a now' server server'' where
  allocation := h'.allocation
  old := fun n b hb => h.old n b (h'.old n b hb)
  alive := fun n b hb hnow => h'.alive n b (h.alive n b hb (hle.trans hnow)) hnow

/-- The cleanup of the allocations leaves the bindings of one that has not expired. -/
theorem sameAt_cleanupAllocations {now : ℕ}
    (ha : server.allocationTable.allocations.lookup k = some a)
    (halive : now ≤ a.createdAt + a.lifetime) :
    SameAt k server (cleanupAllocations server now).server where
  allocation :=
    (lookup_cleanupExpired_allocations.2 ⟨ha, isExpired_eq_false.2 halive⟩).trans ha.symm
  bindings := by
    intro n
    show (server.allocationTable.cleanupExpired server.channelTable now).1.2.channels.lookup (k, n)
      = server.channelTable.channels.lookup (k, n)
    rw [cleanupExpired_eq_removeAll]
    refine lookup_removeAll_channels _ ?_ _ _
    intro hk
    obtain ⟨a', ha', hexpired⟩ := mem_expiredAddrs.1 hk
    obtain rfl := Option.some.inj (ha.symm.trans ha')
    exact absurd (hexpired.symm.trans (isExpired_eq_false.2 halive)) (by simp)

theorem keptAt_cleanupChannels {now : ℕ}
    (ha : server.allocationTable.allocations.lookup k = some a) :
    KeptAt k a now server
      { server with channelTable := server.channelTable.cleanupExpired now } where
  allocation := ha
  old := by
    intro n b hb
    rw [ChannelTable.getByChannel, ChannelTable.cleanupExpired, HashMap.lookup_retain,
      Option.filter_eq_some_iff] at hb
    exact hb.1
  alive := by
    intro n b hb hnow
    rw [ChannelTable.getByChannel, ChannelTable.cleanupExpired, HashMap.lookup_retain,
      Option.filter_eq_some_iff]
    refine ⟨hb, ?_⟩
    simp only [ChannelBinding.isExpired, Bool.not_eq_true', decide_eq_false_iff_not]
    omega

/-- A step that is no message of the allocation's client keeps an allocation that is alive. -/
theorem Step.keptAt {w w' : World} (hstep : Step D w e w') (hc : w.server.Consistent)
    (ha : w.server.allocationTable.allocations.lookup k = some a)
    (hother : ∀ msg, e.event ≠ .message msg a.clientAddr)
    (halive : w'.clock ≤ a.createdAt + a.lifetime) :
    KeptAt k a w'.clock w.server w'.server := by
  have hbefore : SameAt k w.server e.before :=
    ⟨hstep.rehashed.lookup_allocations k, hstep.rehashed.getByChannel k⟩
  have ha' := hbefore.allocation.trans ha
  have hfirst : KeptAt k a w.clock w.server e.before := hbefore.keptAt ha
  have hclock : w.clock ≤ w'.clock := by
    rw [hstep.next]
    exact hstep.clock
  refine hfirst.trans hclock ?_
  have hevents := hstep.after_eq
  rw [hstep.next] at halive ⊢
  dsimp only at halive ⊢
  rw [hevents]
  cases hevent : e.event with
  | message msg client =>
      have hne : a.clientAddr ≠ client := fun heq => hother msg (heq ▸ hevent)
      exact ((react_message D e.env e.before msg client).sameAt
        (hstep.after_consistent hc).1 ha' hne).keptAt ha'
  | channelData data client =>
      obtain ⟨sent, heq, -⟩ := react_channelData D e.env e.before data client
      rw [heq]
      exact (SameAt.refl k e.before).keptAt ha'
  | cleanupAllocations => exact (sameAt_cleanupAllocations ha' halive).keptAt ha'
  | cleanupChannels => exact keptAt_cleanupChannels ha'
  | cleanupNonces => exact SameAt.keptAt ⟨rfl, fun _ => rfl⟩ ha'
  | changeAuth change => exact SameAt.keptAt ⟨rfl, fun _ => rfl⟩ ha'

/-! ## Runs -/

theorem Run.keptAt {w w' : World} {history : List Transition} (hrun : Run D w history w')
    (hc : w.server.Consistent) (ha : w.server.allocationTable.allocations.lookup k = some a)
    (hother : ∀ e ∈ history, ∀ msg, e.event ≠ .message msg a.clientAddr)
    (halive : w'.clock ≤ a.createdAt + a.lifetime) :
    KeptAt k a w'.clock w.server w'.server := by
  refine Trace.Run.invariant_while (P := fun w' => w'.clock ≤ a.createdAt + a.lifetime →
    KeptAt k a w'.clock w.server w'.server) hrun hother
    (fun _ => (SameAt.refl k w.server).keptAt ha) ?_ halive
  intro history w₁ e w₂ hprev hquiet ih hstep halive₂
  -- the clock does not go back, so the allocation was alive before the step
  have hclock : w₁.clock ≤ w₂.clock := by
    rw [hstep.next]
    exact hstep.clock
  have hkept := ih (hclock.trans halive₂)
  have hc₁ := Run.consistent hprev hc
  exact hkept.trans hclock (hstep.keptAt hc₁ hkept.allocation hquiet halive₂)

end Miuturn
