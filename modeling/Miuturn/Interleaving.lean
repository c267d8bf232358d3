import Miuturn.Origin

set_option autoImplicit false

/-! # Requests that overlap

`System.lean` takes a request as one step. In the program a request is a task: it gives up the locks
of the tables between its accesses, and other tasks run in between. Here `handle_allocate`,
`handle_refresh` and `handle_channel_bind` are split into these accesses, and any number of tasks
take them in any order. An access is what is done under one lock, or one call of the port allocator
(`ConcurrentPorts.lean` is about what happens inside those); what a task computes between two
accesses is its own. A removal and an insertion change the counters and the channel bindings while
they hold the lock of the allocation map, so each is one access.

A request is taken from where it has authenticated. CreatePermission, Send and ChannelData are left
out: they change neither who owns which relayed address nor the channel bindings.

`solo_allocate`, `solo_refresh` and `solo_channelBind` connect the two models: a request that no
other interrupts does what the handler of `Server.lean` does. -/

open RustStd

namespace Miuturn

namespace Interleaving

/-- Where a task is: the access it makes next. -/
inductive Pc where
  | idle
  | allocateFind (client : SocketAddr) (lifetime : UInt32)
  | allocateRemove (client : SocketAddr) (lifetime : UInt32) (oldRelayed : SocketAddr)
  | checkQuota (client : SocketAddr) (lifetime : UInt32)
  | takePort (client : SocketAddr) (lifetime : UInt32) (attempts : ℕ)
  | bindSocket (client : SocketAddr) (lifetime : UInt32) (attempts : ℕ) (port : UInt16)
  | insert (client : SocketAddr) (lifetime : UInt32) (port : UInt16)
  | refreshFind (client : SocketAddr) (lifetime : UInt32)
  | refreshRemove (relayed : SocketAddr)
  | refreshStore (relayed : SocketAddr) (lifetime : UInt32)
  | channelFind (client : SocketAddr) (channelNum : UInt16) (peerAddr : SocketAddr)
  | channelBind (client relayed : SocketAddr) (channelNum : UInt16) (peerAddr : SocketAddr)
  deriving DecidableEq

/-- The requests that are split. -/
inductive Request where
  | allocate (lifetime : UInt32)
  | refresh (lifetime : UInt32)
  | channelBind (channelNum : UInt16) (peerAddr : SocketAddr)

def Request.start (client : SocketAddr) : Request → Pc
  | .allocate lifetime => .allocateFind client lifetime
  | .refresh lifetime => .refreshFind client lifetime
  | .channelBind channelNum peerAddr => .channelFind client channelNum peerAddr

/-- The last access of `create_allocation`: insert the allocation, count it and register it. -/
def insertAllocation (t : AllocationTable) (env : Env) (client : SocketAddr) (lifetime : UInt32)
    (port : UInt16) : AllocationTable :=
  let allocation := t.newAllocation env client (some lifetime) port
  { t with
      allocations := t.allocations.insert allocation.relayedAddr allocation,
      stats := { t.stats with
        totalAllocations := t.stats.totalAllocations + 1,
        activeAllocations := t.stats.activeAllocations + 1 },
      bandwidthManager :=
        t.bandwidthManager.registerAllocation env.now allocation.relayedAddr.toString none }

theorem lookup_insertAllocation (t : AllocationTable) (env : Env) (client : SocketAddr)
    (lifetime : UInt32) (port : UInt16) (k : SocketAddr) :
    (insertAllocation t env client lifetime port).allocations.lookup k
      = if k = .v4 t.externalAddr port then some (t.newAllocation env client (some lifetime) port)
        else t.allocations.lookup k := by
  split
  · next hk =>
      rw [hk]
      exact AList.lookup_insert _
  · next hk => exact AList.lookup_insert_ne hk

/-- The next access of a task: the server after it, and where the task goes on. -/
def advance (env : Env) (server : TurnServer) : Pc → TurnServer × Pc
  | .idle => (server, .idle)
  | .allocateFind client lifetime =>
    match server.allocationTable.findAllocationByClient client with
    | some oldRelayed => (server, .allocateRemove client lifetime oldRelayed)
    | none => (server, .checkQuota client lifetime)
  | .allocateRemove client lifetime oldRelayed =>
    (server.without oldRelayed, .checkQuota client lifetime)
  | .checkQuota client lifetime =>
    if server.allocationTable.quotaReached then (server, .idle)
    else (server, .takePort client lifetime 0)
  | .takePort client lifetime attempts =>
    if attempts ≥ 100 then (server, .idle)
    else
      match server.allocationTable.portAllocator.allocate (env.portChoice attempts) with
      | (pa, none) =>
        (server.withTable { server.allocationTable with portAllocator := pa }, .idle)
      | (pa, some port) =>
        (server.withTable { server.allocationTable with portAllocator := pa },
          .bindSocket client lifetime attempts port)
  | .bindSocket client lifetime attempts port =>
    match env.bindResult attempts with
    | .ok () => (server, .insert client lifetime port)
    | .error _ =>
      (server.withTable { server.allocationTable with
          portAllocator := (server.allocationTable.portAllocator.release port).1 },
        .takePort client lifetime (attempts + 1))
  | .insert client lifetime port =>
    (server.withTable (insertAllocation server.allocationTable env client lifetime port), .idle)
  | .refreshFind client lifetime =>
    match server.allocationTable.findAllocationByClient client with
    | some relayed =>
      if lifetime = 0 then (server, .refreshRemove relayed)
      else (server, .refreshStore relayed lifetime)
    | none => (server, .idle)
  | .refreshRemove relayed => (server.without relayed, .idle)
  | .refreshStore relayed lifetime =>
    match server.allocationTable.refreshAllocation relayed lifetime with
    | .ok table => (server.withTable table, .idle)
    | .error _ => (server, .idle)
  | .channelFind client channelNum peerAddr =>
    match server.allocationTable.findAllocationByClient client with
    | some relayed => (server, .channelBind client relayed channelNum peerAddr)
    | none => (server, .idle)
  | .channelBind _ relayed channelNum peerAddr =>
    match server.channelTable.bind env.now channelNum peerAddr relayed with
    | .ok channels => ({ server with channelTable := channels }, .idle)
    | .error _ => (server, .idle)

/-! ## A request that is not interrupted -/

section Solo

variable {D : Digests} {env : Env} {server server' : TurnServer} {msg : Message}
  {client : SocketAddr} {u : String} {lifetime : UInt32}

/-- One task runs to its end while the others wait. -/
inductive Solo (env : Env) : TurnServer → Pc → TurnServer → Prop where
  | done {server : TurnServer} : Solo env server .idle server
  | step {server server' : TurnServer} {pc : Pc} (hbusy : pc ≠ .idle)
      (hrest : Solo env (advance env server pc).1 (advance env server pc).2 server') :
      Solo env server pc server'

theorem Solo.of_eq {pc pc' : Pc} {server₁ : TurnServer} (hbusy : pc ≠ .idle)
    (hadvance : advance env server pc = (server₁, pc')) (hrest : Solo env server₁ pc' server') :
    Solo env server pc server' := by
  refine .step hbusy ?_
  rw [hadvance]
  exact hrest

/-- What `create_allocation` makes of the end of its loop over the ports. -/
def afterLoop (server : TurnServer) (env : Env) (client : SocketAddr) (lifetime : UInt32) :
    PortAllocator × Except Error UInt16 → TurnServer
  | (pa, .error _) => server.withTable { server.allocationTable with portAllocator := pa }
  | (pa, .ok port) => server.withTable (insertAllocation
      { server.allocationTable with portAllocator := pa } env client lifetime port)

/-- The loop over the ports, from any attempt on. -/
theorem solo_takePort (remaining : ℕ) :
    ∀ (server : TurnServer) (attempts : ℕ) (last : Option (SocketAddr × String)),
      attempts + remaining = 100 →
      Solo env server (.takePort client lifetime attempts) (afterLoop server env client lifetime
        (AllocationTable.acquireRelay server.allocationTable.bindAddr env remaining attempts
          server.allocationTable.portAllocator last)) := by
  induction remaining with
  | zero =>
      intro server attempts last hattempts
      refine .of_eq (by simp) (if_pos (by omega)) ?_
      cases last with
      | none => exact .done
      | some failure => exact .done
  | succ remaining ih =>
      intro server attempts last hattempts
      have hmore : ¬ attempts ≥ 100 := by omega
      rw [AllocationTable.acquireRelay_succ]
      cases hallocate : server.allocationTable.portAllocator.allocate (env.portChoice attempts) with
      | mk pa port =>
          cases port with
          | none =>
              have htake : advance env server (.takePort client lifetime attempts)
                  = (server.withTable { server.allocationTable with portAllocator := pa },
                    .idle) := by
                rw [advance, if_neg hmore, hallocate]
              exact .of_eq (by simp) htake .done
          | some port =>
              have htake : advance env server (.takePort client lifetime attempts)
                  = (server.withTable { server.allocationTable with portAllocator := pa },
                    .bindSocket client lifetime attempts port) := by
                rw [advance, if_neg hmore, hallocate]
              refine .of_eq (by simp) htake ?_
              cases hbind : env.bindResult attempts with
              | ok _ =>
                  have hsocket : advance env
                      (server.withTable { server.allocationTable with portAllocator := pa })
                      (.bindSocket client lifetime attempts port)
                      = (server.withTable { server.allocationTable with portAllocator := pa },
                        .insert client lifetime port) := by
                    rw [advance, hbind]
                  exact .of_eq (by simp) hsocket (.of_eq (by simp) rfl .done)
              | error source =>
                  have hsocket : advance env
                      (server.withTable { server.allocationTable with portAllocator := pa })
                      (.bindSocket client lifetime attempts port)
                      = (server.withTable { server.allocationTable with
                          portAllocator := (pa.release port).1 },
                        .takePort client lifetime (attempts + 1)) := by
                    rw [advance, hbind]
                  refine .of_eq (by simp) hsocket ?_
                  exact ih (server.withTable { server.allocationTable with
                    portAllocator := (pa.release port).1 }) (attempts + 1) _ (by omega)

/-- `create_allocation`. -/
theorem solo_create (server : TurnServer) :
    Solo env server (.checkQuota client lifetime) (server.withTable
      (server.allocationTable.createAllocation env client (some lifetime)).1) := by
  have hcreate : server.withTable
      (server.allocationTable.createAllocation env client (some lifetime)).1
      = if server.allocationTable.quotaReached then server
        else afterLoop server env client lifetime (AllocationTable.acquireRelay
          server.allocationTable.bindAddr env 100 0 server.allocationTable.portAllocator none) := by
    unfold AllocationTable.createAllocation
    split
    · rfl
    · split
      · next heq => rw [heq]; rfl
      · next heq => rw [heq]; rfl
  rw [hcreate]
  split
  · next hquota => exact .of_eq (by simp) (if_pos hquota) .done
  · next hquota => exact .of_eq (by simp) (if_neg hquota) (solo_takePort 100 server 0 none rfl)

/-- An Allocate that is not interrupted. -/
theorem solo_allocate (D : Digests) (env : Env) (server : TurnServer) (msg : Message)
    (client : SocketAddr) (u : String) (lifetime : UInt32) :
    Solo env server (.allocateFind client lifetime)
      (allocateFor D env server msg client u lifetime).server := by
  have hserver : (allocateFor D env server msg client u lifetime).server
      = (removeExisting server client).1.withTable ((removeExisting server
        client).1.allocationTable.createAllocation env client (some lifetime)).1 := by
    unfold allocateFor allocateOutcome
    dsimp only
    split
    · next heq => rw [heq]
    · next heq => rw [heq]
  rw [hserver]
  unfold removeExisting
  cases hfind : server.allocationTable.findAllocationByClient client with
  | none =>
      have hadvance : advance env server (.allocateFind client lifetime)
          = (server, .checkQuota client lifetime) := by rw [advance, hfind]
      exact .of_eq (by simp) hadvance (solo_create server)
  | some old =>
      have hadvance : advance env server (.allocateFind client lifetime)
          = (server, .allocateRemove client lifetime old) := by rw [advance, hfind]
      exact .of_eq (by simp) hadvance (.of_eq (by simp) rfl (solo_create (server.without old)))

/-- A Refresh that is not interrupted. -/
theorem solo_refresh (D : Digests) (env : Env) (server : TurnServer) (msg : Message)
    (client : SocketAddr) (u : String) (lifetime : UInt32) :
    Solo env server (.refreshFind client lifetime)
      (refreshFor D env server msg client u lifetime).server := by
  unfold refreshFor
  cases hfind : server.allocationTable.findAllocationByClient client with
  | none =>
      have hadvance : advance env server (.refreshFind client lifetime) = (server, .idle) := by
        rw [advance, hfind]
      exact .of_eq (by simp) hadvance .done
  | some relayed =>
      dsimp only
      split
      · next hzero =>
          have hadvance : advance env server (.refreshFind client lifetime)
              = (server, .refreshRemove relayed) := by
            rw [advance, hfind]
            exact if_pos hzero
          exact .of_eq (by simp) hadvance (.of_eq (by simp) rfl .done)
      · next hpos =>
          have hadvance : advance env server (.refreshFind client lifetime)
              = (server, .refreshStore relayed lifetime) := by
            rw [advance, hfind]
            exact if_neg hpos
          refine .of_eq (by simp) hadvance ?_
          split
          · next table htable =>
              have hstore : advance env server (.refreshStore relayed lifetime)
                  = (server.withTable table, .idle) := by rw [advance, htable]
              exact .of_eq (by simp) hstore .done
          · next htable =>
              have hstore : advance env server (.refreshStore relayed lifetime)
                  = (server, .idle) := by rw [advance, htable]
              exact .of_eq (by simp) hstore .done

/-- A ChannelBind with both attributes that is not interrupted. -/
theorem solo_channelBind {peerAttr channelAttr : Attribute} {n : UInt16} {o : Outcome}
    (hpeer : msg.getAttribute Attribute.peerAddress = some peerAttr)
    (hchannel : msg.getAttribute Attribute.channelNumber = some channelAttr)
    (hnumber : channelNumberOf channelAttr.value = some n)
    (ho : bindFor D env server msg client u = .ok o) :
    Solo env server (.channelFind client n (channelPeerOf peerAttr.value)) o.server := by
  unfold bindFor at ho
  rw [hpeer, hchannel] at ho
  cases hentry : server.allocationTable.entryOfClient client with
  | none =>
      rw [hentry] at ho
      obtain rfl := Except.ok.inj ho
      have hadvance : advance env server (.channelFind client n (channelPeerOf peerAttr.value))
          = (server, .idle) := by
        rw [advance, AllocationTable.findAllocationByClient, hentry]
        rfl
      exact .of_eq (by simp) hadvance .done
  | some entry =>
      rw [hentry] at ho
      dsimp only at ho
      rw [hnumber] at ho
      dsimp only at ho
      have hadvance : advance env server (.channelFind client n (channelPeerOf peerAttr.value))
          = (server, .channelBind client entry.2.relayedAddr n (channelPeerOf peerAttr.value)) := by
        rw [advance, findAllocationByClient_of_entry hentry]
      refine .of_eq (by simp) hadvance ?_
      split at ho
      · next channels hbind =>
          obtain rfl := Except.ok.inj ho
          have hset : advance env server
              (.channelBind client entry.2.relayedAddr n (channelPeerOf peerAttr.value))
              = ({ server with channelTable := channels }, .idle) := by rw [advance, hbind]
          exact .of_eq (by simp) hset .done
      · next hbind =>
          obtain rfl := Except.ok.inj ho
          have hset : advance env server
              (.channelBind client entry.2.relayedAddr n (channelPeerOf peerAttr.value))
              = (server, .idle) := by rw [advance, hbind]
          exact .of_eq (by simp) hset .done

end Solo

/-! ## The tasks together -/

/-- The shared server, and where each task is. -/
structure State (ι : Type) where
  server : TurnServer
  pc : ι → Pc

/-- What happens next: a task takes a request or makes its next access, or one of the cleanup tasks
    makes its pass. -/
inductive Event (ι : Type) where
  | request (i : ι) (client : SocketAddr) (req : Request)
  | access (i : ι) (env : Env)
  | cleanupAllocations (now : ℕ)
  | cleanupChannels (now : ℕ)

variable {ι : Type} [DecidableEq ι]

/-- A task that is busy takes no request. -/
def perform (st : State ι) : Event ι → State ι
  | .request i client req =>
    if st.pc i = .idle then { st with pc := Function.update st.pc i (req.start client) } else st
  | .access i env =>
    let result := advance env st.server (st.pc i)
    ⟨result.1, Function.update st.pc i result.2⟩
  | .cleanupAllocations now =>
    { st with server := (Miuturn.cleanupAllocations st.server now).server }
  | .cleanupChannels now =>
    { st with server := { st.server with
        channelTable := st.server.channelTable.cleanupExpired now } }

/-- One step of a run, with the state before and after it. -/
structure Move (ι : Type) where
  event : Event ι
  before : State ι
  after : State ι

/-- The steps of the system; as in `System.lean`, the maps may be iterated in any order. -/
structure Step (st : State ι) (e : Move ι) (st' : State ι) : Prop where
  rehashed : Rehashed st.server e.before.server
  pc : e.before.pc = st.pc
  outcome : e.after = perform e.before e.event
  next : st' = e.after

abbrev Run : State ι → List (Move ι) → State ι → Prop := Trace.Run Step

/-- A server as it is started, with nothing to do. -/
structure Initial (st : State ι) : Prop where
  started : Started st.server
  idle : ∀ i, st.pc i = .idle

/-- The step inserts an allocation of client `c` with the relayed address `k`. -/
def Move.Inserts (e : Move ι) (c k : SocketAddr) : Prop :=
  ∃ i env lifetime port, e.event = .access i env ∧ e.before.pc i = .insert c lifetime port ∧
    k = .v4 e.before.server.allocationTable.externalAddr port

/-- The step is the second access of a ChannelBind of client `c`. -/
def Move.Binds (e : Move ι) (c r : SocketAddr) (n : UInt16) (p : SocketAddr) : Prop :=
  ∃ i env, e.event = .access i env ∧ e.before.pc i = .channelBind c r n p

/-- The step an event makes, with the maps in the order they are in. -/
def Move.of (st : State ι) (event : Event ι) : Move ι := ⟨event, st, perform st event⟩

/-- The history of a list of events and the state after them. -/
def play (st : State ι) : List (Event ι) → List (Move ι) × State ι
  | [] => ([], st)
  | event :: rest =>
    let result := play (perform st event) rest
    (.of st event :: result.1, result.2)

theorem Run.of_play {events : List (Event ι)} :
    ∀ {st : State ι}, Run st (play st events).1 (play st events).2 := by
  induction events with
  | nil => exact .nil
  | cons event events ih =>
      intro st
      have hstep : Step st (.of st event) (perform st event) := ⟨.refl _, rfl, rfl, rfl⟩
      exact (Trace.Run.single hstep).append ih

/-- A request that is not interrupted is a run of its task. -/
theorem Solo.run {env : Env} {i : ι} {server server' : TurnServer} {pc : Pc}
    (h : Solo env server pc server') :
    ∀ st : State ι, st.server = server → st.pc i = pc →
      ∃ history, Run st history ⟨server', Function.update st.pc i .idle⟩ ∧
        ∀ e ∈ history, e.event = .access i env := by
  induction h with
  | done =>
      rintro st rfl hpc
      refine ⟨[], ?_, fun e he => absurd he (by simp)⟩
      rw [← hpc, Function.update_eq_self]
      exact .nil
  | step hbusy hrest ih =>
      rintro st rfl rfl
      have hstep : Step st (.of st (.access i env)) (perform st (.access i env)) :=
        ⟨.refl _, rfl, rfl, rfl⟩
      obtain ⟨history, hrun, hevents⟩ := ih (perform st (.access i env)) rfl
        (Function.update_self ..)
      have hpc : Function.update (perform st (.access i env)).pc i .idle
          = Function.update st.pc i .idle := Function.update_idem ..
      rw [hpc] at hrun
      refine ⟨_, (Trace.Run.single hstep).append hrun, fun e he => ?_⟩
      rcases List.mem_append.1 he with he | he
      · rw [List.mem_singleton.1 he]
        rfl
      · exact hevents e he

end Interleaving

end Miuturn
