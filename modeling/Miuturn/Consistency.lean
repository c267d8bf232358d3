import Miuturn.System

set_option autoImplicit false

/-! # The server's tables agree in every state reached

Each step keeps `Consistent`, and it moves the difference between the two allocation counters by
exactly the number of allocations it removed. Both hold at the start, so they hold along every
run. -/

open RustStd

namespace Miuturn

/-- The tables of the server agree. -/
abbrev TurnServer.Consistent (server : TurnServer) : Prop :=
  Miuturn.Consistent server.allocationTable server.channelTable

/-- The allocations made and no longer counted as active. -/
def TurnServer.retired (server : TurnServer) : ℤ :=
  server.allocationTable.stats.totalAllocations - server.allocationTable.stats.activeAllocations

variable {D : Digests} {env : Env} {server : TurnServer} {msg : Message} {client : SocketAddr}
  {o : Outcome}

/-! ## One step -/

theorem Consistent.removeExisting (h : server.Consistent) (client : SocketAddr) :
    (removeExisting server client).1.Consistent := by
  rcases removeExisting_cases server client with ⟨-, heq⟩ | ⟨e, -, heq⟩
  · rw [heq]
    exact h
  · rw [heq]
    exact h.removeAllocation e.2.relayedAddr

/-- After `handle_allocate` removed what there was, the client has no allocation. -/
theorem Consistent.client_ne_of_removeExisting (h : server.Consistent) {k : SocketAddr}
    {a : Allocation}
    (ha : (Miuturn.removeExisting server client).1.allocationTable.allocations.lookup k = some a) :
    a.clientAddr ≠ client := by
  rcases removeExisting_cases server client with ⟨hnone, heq⟩ | ⟨e, hentry, heq⟩
  · rw [heq] at ha
    exact entryOfClient_eq_none hnone ha
  · rw [heq] at ha
    obtain ⟨hne, ha⟩ := lookup_removeAllocation.1 ha
    obtain ⟨he, hclient⟩ := entryOfClient_eq_some hentry
    intro hc
    refine hne ?_
    rw [(h.key _ _ he).1]
    exact h.clients k e.1 a e.2 ha he (hc.trans hclient.symm)

theorem Effect.consistent (he : Effect D env server msg client o) (h : server.Consistent) :
    o.server.Consistent := by
  cases he with
  | inert _ => exact h
  | challenge reason _ => exact h
  | allocateFailed _ _ hports _ => exact (h.removeExisting client).samePorts hports
  | allocated _ _ htake hport _ =>
      exact (h.removeExisting client).enter env _ htake hport
        (fun k b hb => h.client_ne_of_removeExisting hb)
  | deleted _ _ _ _ => exact h.removeAllocation _
  | refreshed _ _ _ _ htable _ => exact h.refreshAllocation htable
  | permitted _ _ _ _ => exact h.addPermissions client _
  | bound _ _ hentry _ _ _ hbind _ =>
      obtain ⟨hlookup, -⟩ := entryOfClient_eq_some hentry
      refine h.bind ?_ hbind
      rw [(h.key _ _ hlookup).1]
      exact HashMap.mem_of_lookup hlookup
  | relayed peer data _ => exact h.sendToPeer env.sendOk client peer data

theorem removeAllocation_retired (server : TurnServer) (addr : SocketAddr) :
    (server.without addr).retired = server.retired + server.removedBy addr := by
  unfold TurnServer.retired TurnServer.without TurnServer.removedBy AllocationTable.removeAllocation
  cases server.allocationTable.allocations.lookup addr with
  | none => simp
  | some a =>
      simp only [AllocationTable.subActive, AllocationTable.dropEntry, Option.toList_some,
        List.length_singleton]
      omega

theorem removeExisting_retired (server : TurnServer) (client : SocketAddr) :
    (removeExisting server client).1.retired
      = server.retired + (removeExisting server client).2 := by
  rcases removeExisting_cases server client with ⟨-, heq⟩ | ⟨e, -, heq⟩
  · rw [heq]
    simp
  · rw [heq]
    exact removeAllocation_retired server e.2.relayedAddr

theorem Effect.retired (he : Effect D env server msg client o) :
    o.server.retired = server.retired + o.removed := by
  cases he with
  | inert _ => exact (Int.add_zero _).symm
  | challenge reason _ => exact (Int.add_zero _).symm
  | allocateFailed _ _ _ _ => exact removeExisting_retired server client
  | allocated _ _ _ _ _ =>
      have hremove := removeExisting_retired server client
      simp only [TurnServer.retired, AllocationTable.enter] at hremove ⊢
      omega
  | deleted _ _ _ _ => exact removeAllocation_retired server _
  | refreshed _ _ _ _ htable _ =>
      rw [refreshAllocation_eq_ok htable]
      exact (Int.add_zero _).symm
  | permitted _ _ hentry _ =>
      simp only [AllocationTable.addPermissions, hentry]
      exact (Int.add_zero _).symm
  | bound _ _ _ _ _ _ _ _ => exact (Int.add_zero _).symm
  | relayed peer data _ =>
      rcases sendToPeer_cases server.allocationTable env.sendOk client peer data with
        heq | ⟨e, relay, -, -, heq⟩
      · rw [heq]
        exact (Int.add_zero _).symm
      · rw [heq]
        exact (Int.add_zero _).symm

/-- The loop of `cleanup_expired` leaves the counters to the update after it. -/
theorem dropEntries_stats (addrs : List SocketAddr) :
    ∀ (t : AllocationTable) (ct : ChannelTable) (n : ℕ),
      (t.dropEntries ct addrs n).1.1.stats = t.stats := by
  induction addrs with
  | nil => exact fun _ _ _ => rfl
  | cons addr addrs ih =>
      intro t ct n
      unfold AllocationTable.dropEntries
      cases t.allocations.lookup addr with
      | none => exact ih t ct n
      | some a => exact ih _ _ _

theorem cleanupAllocations_retired (server : TurnServer) (now : ℕ) :
    (cleanupAllocations server now).server.retired
      = server.retired + (cleanupAllocations server now).removed := by
  have hstats := dropEntries_stats (server.allocationTable.expiredAddrs now) server.allocationTable
    server.channelTable 0
  simp only [TurnServer.retired, cleanupAllocations, AllocationTable.cleanupExpired,
    AllocationTable.subActive, hstats]
  omega

theorem react_consistent (D : Digests) (env : Env) (event : Event) (h : server.Consistent) :
    (react D env server event).server.Consistent := by
  cases event with
  | message msg client => exact (react_message D env server msg client).consistent h
  | channelData data client =>
      obtain ⟨sent, heq, -⟩ := react_channelData D env server data client
      rw [heq]
      exact h
  | cleanupAllocations =>
      exact cleanupExpired_induct (fun t ct addr ht => ht.removeAllocation addr) h
  | cleanupChannels => exact h.channelCleanup env.now
  | cleanupNonces => exact h
  | changeAuth change => exact h

theorem react_retired (D : Digests) (env : Env) (server : TurnServer) (event : Event) :
    (react D env server event).server.retired
      = server.retired + (react D env server event).removed := by
  cases event with
  | message msg client => exact (react_message D env server msg client).retired
  | channelData data client =>
      obtain ⟨sent, heq, -⟩ := react_channelData D env server data client
      rw [heq]
      exact (Int.add_zero _).symm
  | cleanupAllocations => exact cleanupAllocations_retired server env.now
  | cleanupChannels => exact (Int.add_zero _).symm
  | cleanupNonces => exact (Int.add_zero _).symm
  | changeAuth change => exact (Int.add_zero _).symm

/-! ## Runs -/

theorem Rehashed.consistent {server' : TurnServer} (h : Rehashed server server')
    (hc : server.Consistent) : server'.Consistent := by
  obtain ⟨allocations, channels, hsame, hsame', rfl⟩ := h
  exact hc.same hsame hsame'

theorem TurnServer.Fresh.consistent (h : server.Fresh) : server.Consistent where
  bits := by
    intro i
    have hi := congrArg (i ∈ ·) h.setBits
    simp only [Bitmap.mem_setBits, Finset.notMem_empty, eq_iff_iff, iff_false] at hi
    simp [hi, h.allocations]
  key := by simp [h.allocations]
  active := by
    rw [h.allocations, h.stats]
    rfl
  count := by
    rw [h.allocations, h.allocatedCount]
    rfl
  trackers := by simp [h.allocations, h.trackers]
  clients := by simp [h.allocations]
  bindings := by simp [h.channels]

theorem TurnServer.Fresh.retired (h : server.Fresh) : server.retired = 0 := by
  rw [TurnServer.retired, h.stats]
  rfl

theorem Rehashed.lookup_allocations {server' : TurnServer} (h : Rehashed server server')
    (k : SocketAddr) : server'.allocationTable.allocations.lookup k
      = server.allocationTable.allocations.lookup k := by
  obtain ⟨allocations, channels, hsame, -, rfl⟩ := h
  exact (hsame.lookup_eq k).symm

theorem Rehashed.getByChannel {server' : TurnServer} (h : Rehashed server server')
    (r : SocketAddr) (n : UInt16) :
    server'.channelTable.getByChannel r n = server.channelTable.getByChannel r n := by
  obtain ⟨allocations, channels, -, hsame, rfl⟩ := h
  exact (hsame.lookup_eq (r, n)).symm

theorem Step.after_consistent {w w' : World} {e : Transition} (h : Step D w e w')
    (hc : w.server.Consistent) : e.before.Consistent ∧ w'.server.Consistent := by
  have hbefore := h.rehashed.consistent hc
  refine ⟨hbefore, ?_⟩
  have hafter := react_consistent D e.env e.event hbefore
  rw [h.outcome] at hafter
  rw [h.next]
  exact hafter

/-- Every state a run reaches is consistent. -/
theorem Run.consistent {w₀ w : World} {history : List Transition} (h : Run D w₀ history w)
    (hstart : w₀.server.Consistent) : w.server.Consistent :=
  Trace.Run.invariant (P := fun _ w => w.server.Consistent) h hstart
    (fun _ _ _ _ _ hc hstep => (hstep.after_consistent hc).2)

theorem Run.consistent_before {w₀ w w' : World} {history : List Transition} {e : Transition}
    (h : Run D w₀ history w) (hstart : w₀.server.Consistent) (hstep : Step D w e w') :
    e.before.Consistent :=
  (hstep.after_consistent (h.consistent hstart)).1

/-- What all allocations of the states reached satisfy, as long as the steps meet a condition: there
    are none at the start, and a step may assume it of those it finds. -/
theorem Run.forall_allocation {w₀ w : World} {history : List Transition}
    {P : World → Allocation → Prop} {C : Transition → Prop} (h : Run D w₀ history w)
    (hstart : Started w₀.server) (hC : ∀ e ∈ history, C e)
    (hstep : ∀ history w e w', Run D w₀ history w → Step D w e w' → e.before.Consistent → C e →
      (∀ k a, e.before.allocationTable.allocations.lookup k = some a → P w a) →
      ∀ k a, e.after.allocationTable.allocations.lookup k = some a → P w' a)
    {k : SocketAddr} {a : Allocation}
    (ha : w.server.allocationTable.allocations.lookup k = some a) : P w a := by
  refine Trace.Run.invariant_while (P := fun w => ∀ k a,
    w.server.allocationTable.allocations.lookup k = some a → P w a) h hC ?_ ?_ k a ha
  · intro k a ha
    rw [hstart.fresh.allocations] at ha
    exact absurd ha (by simp)
  · intro history w e w' hprev hCe ih he k a ha
    refine hstep history w e w' hprev he (Run.consistent_before hprev hstart.fresh.consistent he)
      hCe (fun k a ha => ih k a ?_) k a ?_
    · rw [← he.rehashed.lookup_allocations]
      exact ha
    · rw [he.next] at ha
      exact ha

/-- The counters account for every allocation removed. -/
theorem Run.retired {w₀ w : World} {history : List Transition} (h : Run D w₀ history w) :
    w.server.retired = w₀.server.retired + ((history.map Transition.removed).sum : ℕ) := by
  refine Trace.Run.invariant
    (P := fun history w => w.server.retired
      = w₀.server.retired + ((history.map Transition.removed).sum : ℕ)) h (by simp) ?_
  intro history w e w' _ ih hstep
  obtain ⟨allocations, channels, -, -, hbefore⟩ := hstep.rehashed
  have hsame : e.before.retired = w.server.retired := by
    rw [hbefore]
    rfl
  have hreact := react_retired D e.env e.before e.event
  rw [hstep.outcome, hsame, ih] at hreact
  rw [hstep.next, hreact]
  simp [List.sum_append, Int.add_assoc]

/-- In every state that a started server reaches by whole requests, cleanups and changes to its
    users, with any outcomes of binding sockets, any random choices and any iteration order of its
    maps: the bitmap, the map, the counters, the bandwidth trackers and the channel table agree, the
    difference of the counters is the number of allocations removed, and the search for a client's
    allocation finds the same for every iteration order. -/
theorem run_tables_agree {w₀ w : World} {history : List Transition} (hstart : Started w₀.server)
    (hrun : Run D w₀ history w) :
    Consistent w.server.allocationTable w.server.channelTable ∧
    (w.server.allocationTable.stats.totalAllocations : ℤ)
        - w.server.allocationTable.stats.activeAllocations
      = ((history.map Transition.removed).sum : ℕ) ∧
    ∀ (allocations : HashMap SocketAddr Allocation) (client : SocketAddr),
      HashMap.Same w.server.allocationTable.allocations allocations →
      ({ w.server.allocationTable with allocations } : AllocationTable).findAllocationByClient
          client
        = w.server.allocationTable.findAllocationByClient client := by
  have hc := hrun.consistent hstart.fresh.consistent
  refine ⟨hc, ?_, fun allocations client hsame => ?_⟩
  · have hretired := hrun.retired
    rw [hstart.fresh.retired, Int.zero_add] at hretired
    exact hretired
  · unfold AllocationTable.findAllocationByClient
    rw [hc.entryOfClient_same hsame]

/-- A client allocates twice, and the second allocation expires. -/
def twoAllocations : List (Env × Event) :=
  [(sampleEnv 1, .message (sampleRequest .allocate []) sampleClient),
   (sampleEnv 2, .message (sampleRequest .allocate []) sampleClient),
   (sampleEnv 700, .cleanupAllocations)]

theorem run_tables_agree_two_allocations :
    let result := play sampleDigests ⟨sampleServer true none, 0⟩ twoAllocations
    result.1.map Transition.removed = [0, 1, 1] ∧
    Consistent result.2.server.allocationTable result.2.server.channelTable ∧
    (result.2.server.allocationTable.stats.totalAllocations : ℤ)
      - result.2.server.allocationTable.stats.activeAllocations = 2 := by
  have hrun : Run sampleDigests ⟨sampleServer true none, 0⟩
      (play sampleDigests ⟨sampleServer true none, 0⟩ twoAllocations).1
      (play sampleDigests ⟨sampleServer true none, 0⟩ twoAllocations).2 :=
    Run.of_play (by decide)
  have hremoved : (play sampleDigests ⟨sampleServer true none, 0⟩ twoAllocations).1.map
      Transition.removed = [0, 1, 1] := by decide +kernel
  obtain ⟨hc, hcount, -⟩ := run_tables_agree (sampleServer_started true none) hrun
  exact ⟨hremoved, hc, by rw [hcount, hremoved]; rfl⟩

end Miuturn
