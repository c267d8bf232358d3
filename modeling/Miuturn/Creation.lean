import Miuturn.Consistency
import Miuturn.PortSearch

set_option autoImplicit false

/-! # `create_allocation` is all or nothing

The loop of `create_allocation` takes a port, tries to bind a socket on it and gives the port back
if that fails, at most 100 times; `acquire` keeps a log of these binds. A port given back leaves the
allocator as it was, so every round of the loop sees the same ports, and the four ways out of the
function can be told apart by the log and by the table before it.

`handle_allocate` removes the client's old allocation before it calls `create_allocation`, so a
failed Allocate is not all or nothing: what it loses is the old allocation.

The channel table is not an argument of the model: `create_allocation` only hands it on to the task
of the relay socket. -/

open RustStd

namespace Miuturn

def BindAttempt.failed (b : BindAttempt) : Bool :=
  match b.outcome with
  | .ok _ => false
  | .error _ => true

namespace AllocationTable

/-- The binds of `create_allocation`, which checks the quota before its loop. -/
def createBinds (t : AllocationTable) (env : Env) : List BindAttempt :=
  if t.quotaReached then [] else (acquire t.bindAddr env 100 0 t.portAllocator none).binds

end AllocationTable

/-! ## The loop -/

/-- Taking a port and giving it back leaves the allocator as it was. -/
theorem release_allocated {pa pa' : PortAllocator} {choice : PortAllocator.PortChoice}
    {port : UInt16} (h : pa.allocate choice = (pa', some port)) : (pa'.release port).1 = pa := by
  rcases pa.allocate_cases choice with hnone | ⟨pa'', k, port', hsome, htake, hport⟩
  · exact absurd (Prod.ext_iff.1 (hnone.symm.trans h)).2 (by simp)
  · obtain ⟨rfl, hsome⟩ := Prod.ext_iff.1 (hsome.symm.trans h)
    obtain rfl := Option.some.inj hsome
    exact (samePorts_of_takes_frees htake (htake.release hport)).eq

/-- How the loop ends, with the binds it made: no port is left before the attempts are used up; or
    every attempt failed to bind; or a bind succeeded. -/
theorem acquireRelay_binds (bindAddr : Ipv4Addr) (env : Env) (pa : PortAllocator) (remaining : ℕ) :
    ∀ (attempts : ℕ) (last : Option (SocketAddr × String)), (remaining = 0 → last ≠ none) →
      let binds := (AllocationTable.acquire bindAddr env remaining attempts pa last).binds
      let result := (AllocationTable.acquire bindAddr env remaining attempts pa last).result
      (result = .error .relayPortExhausted ∧ binds.length < remaining ∧
        ∀ k < pa.portCount.toNat, pa.allocated.bit k = true) ∨
      ((∃ addr source, result = .error (.relayBindFailed addr source)) ∧
        binds.length = remaining ∧ binds.countP BindAttempt.failed = remaining) ∨
      ((∃ port, result = .ok port) ∧ binds.length ≤ remaining ∧
        binds.countP BindAttempt.failed < remaining) := by
  induction remaining with
  | zero =>
      intro attempts last hlast
      cases last with
      | none => exact absurd rfl (hlast rfl)
      | some failure => exact Or.inr (Or.inl ⟨⟨_, _, rfl⟩, rfl, rfl⟩)
  | succ remaining ih =>
      intro attempts last _
      dsimp only
      rw [AllocationTable.acquire_succ]
      cases hallocate : pa.allocate (env.portChoice attempts) with
      | mk pa' taken =>
          cases taken with
          | none =>
              have hfull := (pa.allocate_eq_none_iff (env.portChoice attempts)).1
                (congrArg Prod.snd hallocate)
              exact Or.inl ⟨rfl, Nat.succ_pos _, hfull⟩
          | some port =>
              cases hbind : env.bindResult attempts with
              | ok _ => exact Or.inr (Or.inr ⟨⟨port, rfl⟩, Nat.succ_le_succ (Nat.zero_le _),
                  Nat.succ_pos _⟩)
              | error source =>
                  dsimp only
                  rw [release_allocated hallocate, List.length_cons,
                    List.countP_cons_of_pos (by rfl)]
                  have hnext := ih (attempts + 1) (some (.v4 bindAddr port, source)) (by simp)
                  dsimp only at hnext
                  rcases hnext with ⟨hr, hlen, hfull⟩ | ⟨hr, hlen, hcount⟩ | ⟨hr, hlen, hcount⟩
                  · exact Or.inl ⟨hr, by omega, hfull⟩
                  · exact Or.inr (Or.inl ⟨hr, by omega, by omega⟩)
                  · exact Or.inr (Or.inr ⟨hr, by omega, by omega⟩)

/-- How `create_allocation` ends, with the binds it made. -/
theorem createAllocation_binds (t : AllocationTable) (env : Env) (client : SocketAddr)
    (lifetime : Option UInt32) :
    let binds := t.createBinds env
    let result := (t.createAllocation env client lifetime).2
    (t.quotaReached = true ∧ result = .error .allocationQuotaReached ∧ binds = []) ∨
    (t.quotaReached = false ∧ result = .error .relayPortExhausted ∧ binds.length < 100 ∧
      ∀ k < t.portAllocator.portCount.toNat, t.portAllocator.allocated.bit k = true) ∨
    (t.quotaReached = false ∧ (∃ addr source, result = .error (.relayBindFailed addr source)) ∧
      binds.length = 100 ∧ binds.countP BindAttempt.failed = 100) ∨
    (t.quotaReached = false ∧ (∃ a, result = .ok a) ∧ binds.length ≤ 100 ∧
      binds.countP BindAttempt.failed < 100) := by
  dsimp only
  unfold AllocationTable.createAllocation AllocationTable.createBinds
  cases hquota : t.quotaReached with
  | true => exact Or.inl ⟨rfl, rfl, rfl⟩
  | false =>
      have hends := acquireRelay_binds t.bindAddr env t.portAllocator 100 0 none (by simp)
      dsimp only at hends
      rw [if_neg Bool.false_ne_true, if_neg Bool.false_ne_true, AllocationTable.acquireRelay]
      cases hloop : AllocationTable.acquire t.bindAddr env 100 0 t.portAllocator none with
      | mk pa result binds =>
          rw [hloop] at hends
          rcases hends with ⟨hr, hlen, hfull⟩ | ⟨⟨addr, source, hr⟩, hlen, hcount⟩ |
            ⟨⟨port, hr⟩, hlen, hcount⟩
          · obtain rfl := hr
            exact Or.inr (Or.inl ⟨rfl, rfl, hlen, hfull⟩)
          · obtain rfl := hr
            exact Or.inr (Or.inr (Or.inl ⟨rfl, ⟨addr, source, rfl⟩, hlen, hcount⟩))
          · obtain rfl := hr
            exact Or.inr (Or.inr (Or.inr ⟨rfl, ⟨_, rfl⟩, hlen, hcount⟩))

/-! ## The table -/

/-- `t'` is `t` with one new allocation, entered in every structure, and nothing else changed. -/
structure EntersOne (t t' : AllocationTable) (a : Allocation) (port : UInt16) : Prop where
  relayed : a.relayedAddr = .v4 t.externalAddr port
  /-- The port was a free one of the range, and is the only one whose bit changes. -/
  inRange : t.portAllocator.minPort ≤ port ∧ port ≤ t.portAllocator.maxPort
  portFree : t.portAllocator.isAllocated port = false
  ports : ∀ q, t'.portAllocator.isAllocated q = true ↔
    q = port ∨ t.portAllocator.isAllocated q = true
  range : t'.portAllocator.toPortRange = t.portAllocator.toPortRange
  allocatedCount : t'.portAllocator.allocatedCount = t.portAllocator.allocatedCount + 1
  /-- There was no entry under its address, and every other entry is as it was. -/
  keyFree : a.relayedAddr ∉ t.allocations
  entry : t'.allocations.lookup a.relayedAddr = some a
  otherEntries : ∀ k, k ≠ a.relayedAddr → t'.allocations.lookup k = t.allocations.lookup k
  entries : HashMap.len t'.allocations = HashMap.len t.allocations + 1
  trackerFree : a.relayedAddr.toString ∉ t.bandwidthManager.trackers
  tracker : a.relayedAddr.toString ∈ t'.bandwidthManager.trackers
  otherTrackers : ∀ s, s ≠ a.relayedAddr.toString →
    t'.bandwidthManager.trackers.lookup s = t.bandwidthManager.trackers.lookup s
  stats : t'.stats = { t.stats with
    totalAllocations := t.stats.totalAllocations + 1,
    activeAllocations := t.stats.activeAllocations + 1 }
  settings : t'.bindAddr = t.bindAddr ∧ t'.externalAddr = t.externalAddr ∧
    t'.maxConcurrentAllocations = t.maxConcurrentAllocations ∧
    t'.maxAllocationDurationSecs = t.maxAllocationDurationSecs

variable {t : AllocationTable} {ct : ChannelTable}

/-- No tracker is filed under an address of the server that is not a key. -/
theorem Consistent.tracker_free (h : Consistent t ct) {port : UInt16}
    (hkey : SocketAddr.v4 t.externalAddr port ∉ t.allocations) :
    (SocketAddr.v4 t.externalAddr port).toString ∉ t.bandwidthManager.trackers := by
  rw [h.trackers]
  rintro ⟨k, hk, hstr⟩
  obtain ⟨a, ha⟩ := HashMap.exists_lookup hk
  have hv4 := eq_v4_of_ip (h.key k a ha).2.1
  rw [hv4] at hstr
  rw [SocketAddr.toString_v4_inj hstr] at hv4
  exact hkey (hv4 ▸ hk)

theorem Consistent.entersOne (h : Consistent t ct) (env : Env) (client : SocketAddr)
    (lifetime : Option UInt32) {pa : PortAllocator} {k : ℕ} {port : UInt16}
    (htake : PortAllocator.Takes t.portAllocator pa k)
    (hport : port.toNat = t.portAllocator.minPort.toNat + k) :
    EntersOne t (t.enter env client lifetime pa port) (t.newAllocation env client lifetime port)
      port := by
  have hkey := h.notMem_of_takes htake hport
  have hsize := t.portAllocator.size
  have hrange := htake.inRange
  exact {
    relayed := rfl
    inRange := ⟨UInt16.le_iff_toNat_le.2 (by omega), UInt16.le_iff_toNat_le.2 (by omega)⟩
    portFree := htake.wasFree hport
    ports := htake.isAllocated hport
    range := htake.range
    allocatedCount := htake.count
    keyFree := hkey
    entry := AList.lookup_insert _
    otherEntries := fun _ hne => AList.lookup_insert_ne hne
    entries := HashMap.len_insert_of_notMem hkey
    trackerFree := h.tracker_free hkey
    tracker := (BandwidthManager.mem_registerAllocation).2 (Or.inl rfl)
    otherTrackers := fun _ hne => AList.lookup_insert_ne hne
    stats := rfl
    settings := ⟨rfl, rfl, rfl, rfl⟩ }

/-- A full bitmap means that every port of the range belongs to an allocation. -/
theorem Consistent.all_in_use (h : Consistent t ct)
    (hfull : ∀ k < t.portAllocator.portCount.toNat, t.portAllocator.allocated.bit k = true)
    {port : UInt16} (hmin : t.portAllocator.minPort ≤ port)
    (hmax : port ≤ t.portAllocator.maxPort) :
    t.portAllocator.isAllocated port = true ∧ ∃ key ∈ t.allocations, key.port = port := by
  have hsize := t.portAllocator.size
  rw [UInt16.le_iff_toNat_le] at hmin hmax
  have hbit := hfull (port.toNat - t.portAllocator.minPort.toNat) (by omega)
  obtain ⟨key, hkey, hport⟩ := (h.bits _).1 hbit
  exact ⟨PortAllocator.isAllocated_iff.2 ⟨⟨hmin, hmax⟩, hbit⟩, key, hkey,
    UInt16.toNat_inj.1 (by omega)⟩

theorem quotaReached_iff : t.quotaReached = true ↔
    ∃ max, t.maxConcurrentAllocations = some max ∧ (max : ℤ) ≤ t.stats.activeAllocations := by
  unfold AllocationTable.quotaReached
  cases t.maxConcurrentAllocations with
  | none => simp
  | some max => simp

/-- What a call of `create_allocation` does, by what it returns. -/
structure AllOrNothing (t : AllocationTable) (env : Env) (client : SocketAddr)
    (lifetime : Option UInt32) : Prop where
  failure : ∀ e, (t.createAllocation env client lifetime).2 = .error e →
    (t.createAllocation env client lifetime).1 = t
  success : ∀ a, (t.createAllocation env client lifetime).2 = .ok a →
    ∃ port, EntersOne t (t.createAllocation env client lifetime).1 a port
  /-- `RelayBindFailed` exactly if 100 binds failed. -/
  bindFailed :
    (∃ addr source,
      (t.createAllocation env client lifetime).2 = .error (.relayBindFailed addr source)) ↔
      (t.createBinds env).countP BindAttempt.failed = 100
  /-- `RelayPortExhausted` only if no port is free, and never after 100 attempts. -/
  exhausted : (t.createAllocation env client lifetime).2 = .error .relayPortExhausted →
    (t.createBinds env).length < 100 ∧
      ∀ port, t.portAllocator.minPort ≤ port → port ≤ t.portAllocator.maxPort →
        t.portAllocator.isAllocated port = true ∧ ∃ key ∈ t.allocations, key.port = port
  quota : (t.createAllocation env client lifetime).2 = .error .allocationQuotaReached ↔
    ∃ max, t.maxConcurrentAllocations = some max ∧ (max : ℤ) ≤ t.stats.activeAllocations
  attempts : (t.createBinds env).length ≤ 100

/-- On a consistent table `create_allocation` enters one allocation everywhere or changes nothing,
    whatever the binds and the random choices, and its error says why. -/
theorem create_allocation_all_or_nothing (h : Consistent t ct) (env : Env) (client : SocketAddr)
    (lifetime : Option UInt32) : AllOrNothing t env client lifetime := by
  have hends := createAllocation_binds t env client lifetime
  dsimp only at hends
  refine ⟨?_, ?_, ?_, ?_, ?_, ?_⟩
  · intro e he
    rcases createAllocation_cases t env client lifetime with
      ⟨pa, e', heq, hsame⟩ | ⟨pa, port, k, heq, -, -⟩
    · rw [heq, hsame.eq]
    · rw [heq] at he
      exact absurd he (by simp)
  · intro a ha
    rcases createAllocation_cases t env client lifetime with
      ⟨pa, e', heq, -⟩ | ⟨pa, port, k, heq, htake, hport⟩
    · rw [heq] at ha
      exact absurd ha (by simp)
    · rw [heq] at ha ⊢
      obtain rfl := Except.ok.inj ha
      exact ⟨port, h.entersOne env client lifetime htake hport⟩
  · rcases hends with ⟨-, hr, hbinds⟩ | ⟨-, hr, hlen, -⟩ | ⟨-, hr, -, hcount⟩ |
      ⟨-, ⟨a, hr⟩, -, hcount⟩
    · rw [hr, hbinds]
      simp
    · have hle := List.countP_le_length (p := BindAttempt.failed) (l := t.createBinds env)
      rw [hr]
      exact ⟨fun ⟨_, _, hne⟩ => absurd hne (by simp), fun hcount => by omega⟩
    · exact ⟨fun _ => hcount, fun _ => hr⟩
    · rw [hr]
      exact ⟨fun ⟨_, _, hne⟩ => absurd hne (by simp), fun hall => by omega⟩
  · intro hr
    rcases hends with ⟨-, hr', -⟩ | ⟨-, -, hlen, hfull⟩ | ⟨-, ⟨_, _, hr'⟩, -⟩ | ⟨-, ⟨_, hr'⟩, -⟩
    · exact absurd (hr.symm.trans hr') (by simp)
    · exact ⟨hlen, fun port hmin hmax => h.all_in_use hfull hmin hmax⟩
    · exact absurd (hr.symm.trans hr') (by simp)
    · exact absurd (hr.symm.trans hr') (by simp)
  · rw [← quotaReached_iff]
    rcases hends with ⟨hq, hr, -⟩ | ⟨hq, hr, -⟩ | ⟨hq, ⟨_, _, hr⟩, -⟩ | ⟨hq, ⟨_, hr⟩, -⟩
    · simp [hq, hr]
    · simp [hq, hr]
    · simp [hq, hr]
    · simp [hq, hr]
  · rcases hends with ⟨-, -, hbinds⟩ | ⟨-, -, hlen, -⟩ | ⟨-, -, hlen, -⟩ | ⟨-, -, hlen, -⟩
    · rw [hbinds]
      exact Nat.zero_le _
    · exact hlen.le
    · exact hlen.le
    · exact hlen

/-- On the empty table, with a host on which no bind succeeds and on one where the second does. -/
theorem create_allocation_all_or_nothing_empty :
    AllOrNothing (sampleServer true none).allocationTable
        { sampleEnv 0 with bindResult := fun _ => .error "in use" } sampleClient none ∧
      AllOrNothing (sampleServer true none).allocationTable
        { sampleEnv 0 with bindResult := fun n => if n = 0 then .error "in use" else .ok () }
        sampleClient none := by
  have hconsistent := (sampleServer_started true none).fresh.consistent
  exact ⟨create_allocation_all_or_nothing hconsistent _ _ _,
    create_allocation_all_or_nothing hconsistent _ _ _⟩

/-! ## A failed Allocate -/

section FailedAllocate

variable {D : Digests} {env : Env} {server : TurnServer} {msg : Message} {client : SocketAddr}
  {u : String}

/-- What the client had, its permissions and bindings included, and what the server counts, is as
    it was. -/
structure NothingLost (client : SocketAddr) (server server' : TurnServer) : Prop where
  allocation : server'.allocationTable.getAllocationByClient client
    = server.allocationTable.getAllocationByClient client
  bindings : ∀ a, server.allocationTable.getAllocationByClient client = some a →
    ∀ n, server'.channelTable.getByChannel a.relayedAddr n
      = server.channelTable.getByChannel a.relayedAddr n
  ports : server'.allocationTable.portAllocator = server.allocationTable.portAllocator
  stats : server'.allocationTable.stats = server.allocationTable.stats

/-- An Allocate that is answered with an error leaves the server without the old allocation. -/
theorem allocateFor_error {lifetime : UInt32} {b : Bytes}
    (hresponse : (allocateFor D env server msg client u lifetime).response = some b)
    (hclass : answerClass b = some .error) :
    (allocateFor D env server msg client u lifetime).server
      = (removeExisting server client).1 := by
  unfold allocateFor allocateOutcome at hresponse ⊢
  rcases createAllocation_cases (removeExisting server client).1.allocationTable env client
    (some lifetime) with ⟨pa, e, heq, hports⟩ | ⟨pa, port, k, heq, -, -⟩
  · simp only [heq]
    rw [hports.eq]
  · simp only [heq] at hresponse
    obtain rfl := Option.some.inj hresponse
    rw [answerClass_encode, signResponse_header] at hclass
    exact absurd hclass (by simp [allocateSuccessMessage])

theorem without_of_none {addr : SocketAddr}
    (h : server.allocationTable.allocations.lookup addr = none) : server.without addr = server := by
  unfold TurnServer.without
  rw [removeAllocation_of_none h]

/-- A removal that removes something is counted. -/
theorem without_stats_ne {addr : SocketAddr} {a : Allocation}
    (h : server.allocationTable.allocations.lookup addr = some a) :
    (server.without addr).allocationTable.stats ≠ server.allocationTable.stats := by
  unfold TurnServer.without
  rw [removeAllocation_of_some h]
  intro hstats
  have hactive := congrArg ServerStats.activeAllocations hstats
  simp only [AllocationTable.subActive, AllocationTable.dropEntry] at hactive
  omega

/-- Removing the client's allocation loses nothing only if there is none to remove. -/
theorem nothingLost_removeExisting_iff :
    NothingLost client server (removeExisting server client).1 ↔
      ∀ e, server.allocationTable.entryOfClient client = some e →
        server.allocationTable.allocations.lookup e.2.relayedAddr = none := by
  have hsame : NothingLost client server server := ⟨rfl, fun _ _ _ => rfl, rfl, rfl⟩
  rcases removeExisting_cases server client with ⟨hentry, heq⟩ | ⟨e, hentry, heq⟩
  · rw [heq]
    exact ⟨fun _ e he => absurd (hentry.symm.trans he) (by simp), fun _ => hsame⟩
  · rw [heq]
    constructor
    · intro hlost e' he'
      obtain rfl := Option.some.inj (hentry.symm.trans he')
      cases ha : server.allocationTable.allocations.lookup e.2.relayedAddr with
      | none => rfl
      | some a => exact absurd hlost.stats (without_stats_ne ha)
    · intro hnone
      rw [without_of_none (hnone e hentry)]
      exact hsame

/-- In a consistent state the entry that is found by its client is also found by its address. -/
theorem Consistent.nothing_to_remove_iff (h : server.Consistent) :
    (∀ e, server.allocationTable.entryOfClient client = some e →
      server.allocationTable.allocations.lookup e.2.relayedAddr = none) ↔
      server.allocationTable.getAllocationByClient client = none := by
  unfold AllocationTable.getAllocationByClient
  cases hentry : server.allocationTable.entryOfClient client with
  | none => simp
  | some e =>
      have ha := (entryOfClient_eq_some hentry).1
      have hfound : server.allocationTable.allocations.lookup e.2.relayedAddr = some e.2 := by
        rw [(h.key e.1 e.2 ha).1]
        exact ha
      refine ⟨fun hnone => ?_, fun hnone => absurd hnone (by simp)⟩
      exact absurd (hfound.symm.trans (hnone e rfl)) (by simp)

/-- An authenticated Allocate that is answered with an error loses nothing exactly if the removal
    before it finds nothing: in a consistent state, if the client has no allocation. -/
theorem failed_allocate_loses_nothing_iff {o : Outcome} {b : Bytes}
    (hauth : verifyTurnAuth D env server msg client = .ok (.ok u))
    (hhandle : handleAllocate D env server msg client = .ok o) (hresponse : o.response = some b)
    (hclass : answerClass b = some .error) :
    (NothingLost client server o.server ↔
      ∀ e, server.allocationTable.entryOfClient client = some e →
        server.allocationTable.allocations.lookup e.2.relayedAddr = none) ∧
    (server.Consistent → (NothingLost client server o.server ↔
      server.allocationTable.getAllocationByClient client = none)) := by
  rw [handleAllocate, withAuth_ok hauth] at hhandle
  obtain ⟨lifetime, -, hhandle⟩ := Rust.bind_eq_ok.1 hhandle
  obtain rfl := Except.ok.inj hhandle
  rw [allocateFor_error hresponse hclass, nothingLost_removeExisting_iff]
  exact ⟨Iff.rfl, fun h => h.nothing_to_remove_iff⟩

/-- A host on which no socket can be bound. -/
def unbindableEnv (secs : ℕ) : Env :=
  { sampleEnv secs with bindResult := fun _ => .error "Address already in use" }

/-- A client without an allocation is refused and loses nothing. -/
theorem failed_allocate_loses_nothing_iff_first :
    ∃ o b, handleAllocate sampleDigests (unbindableEnv 1) (sampleServer true none)
        (sampleRequest .allocate []) sampleClient = .ok o ∧ o.response = some b ∧
      answerClass b = some .error ∧ NothingLost sampleClient (sampleServer true none) o.server := by
  have hauth : verifyTurnAuth sampleDigests (unbindableEnv 1) (sampleServer true none)
      (sampleRequest .allocate []) sampleClient = .ok (.ok "") := rfl
  have hhandle : handleAllocate sampleDigests (unbindableEnv 1) (sampleServer true none)
      (sampleRequest .allocate []) sampleClient = .ok (allocateFor sampleDigests (unbindableEnv 1)
        (sampleServer true none) (sampleRequest .allocate []) sampleClient "" 600) := rfl
  obtain ⟨b, hb, hclass⟩ : ∃ b, (allocateFor sampleDigests (unbindableEnv 1)
      (sampleServer true none) (sampleRequest .allocate []) sampleClient "" 600).response = some b ∧
      answerClass b = some .error := ⟨_, rfl, by decide +kernel⟩
  refine ⟨_, b, hhandle, hb, hclass, ?_⟩
  refine (failed_allocate_loses_nothing_iff hauth hhandle hb hclass).1.2 ?_
  intro e he
  exact absurd he (by simp [AllocationTable.entryOfClient, sampleServer])

/-- The client has an allocation, asks for another when no socket can be bound, is refused, and has
    none left. -/
theorem failed_allocate_loses_allocation :
    let w := (play sampleDigests ⟨sampleServer true none, 0⟩
      [(sampleEnv 1, .message (sampleRequest .allocate []) sampleClient)]).2
    let result := handleAllocate sampleDigests (unbindableEnv 2) w.server
      (sampleRequest .allocate []) sampleClient
    (w.server.allocationTable.getAllocationByClient sampleClient).isSome = true ∧
      result.toOption.map (fun o => (o.response.bind answerClass,
        (o.server.allocationTable.getAllocationByClient sampleClient).isSome,
        o.server.allocationTable.stats.activeAllocations,
        o.server.allocationTable.portAllocator.allocatedCount))
        = some (some .error, false, 0, 0) := by
  decide +kernel

end FailedAllocate

end Miuturn
