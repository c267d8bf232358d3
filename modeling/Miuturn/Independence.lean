import Miuturn.Answers
import Miuturn.AuthRuns
import Miuturn.Relay

set_option autoImplicit false

/-! # Clients do not disturb each other

Two requests of different clients can be handled in either order. There are five kinds of requests
to consider on each side, but only four things that one of them does to the tables: nothing, an edit
of the client's allocation, a binding under its relayed address, or the removal of both. Such a
`Change` is made at one relayed address, and changes at different addresses commute. Which change a
request makes, and what it answers and sends, is read off the client's own allocation and bindings,
which no other client's change touches (`ClientStep.planned`). Distinct clients have distinct
relayed addresses in every state reached, so everything fits together. -/

open RustStd

namespace Miuturn

/-! ## Changes at one relayed address -/

/-- What a request adds to its client's allocation. -/
structure Edit where
  lifetime : Option ℕ
  permissions : Finset IpAddr
  bytes : ℕ
  messages : ℕ

def Edit.onAllocation (d : Edit) (a : Allocation) : Allocation :=
  { a with
    lifetime := d.lifetime.getD a.lifetime,
    permissions := a.permissions ∪ d.permissions,
    bytesForwarded := a.bytesForwarded + d.bytes,
    messagesForwarded := a.messagesForwarded + d.messages }

/-- What a request does to the tables, with the relayed address it does it at. -/
inductive Change where
  | keep
  | edit (k : SocketAddr) (d : Edit)
  | bind (k : SocketAddr) (n : UInt16) (b : ChannelBinding)
  | remove (k : SocketAddr)

namespace Change

def addr : Change → Option SocketAddr
  | .keep => none
  | .edit k _ => some k
  | .bind k _ _ => some k
  | .remove k => some k

def onAllocations (m : HashMap SocketAddr Allocation) : Change → HashMap SocketAddr Allocation
  | .keep => m
  | .edit k d => m.modify k d.onAllocation
  | .bind _ _ _ => m
  | .remove k => m.erase k

def onChannels (m : HashMap (SocketAddr × UInt16) ChannelBinding) :
    Change → HashMap (SocketAddr × UInt16) ChannelBinding
  | .keep => m
  | .edit _ _ => m
  | .bind k n b => m.insert (k, n) b
  | .remove k => m.retain (fun key _ => key.1 ≠ k)

def onPorts (pa : PortAllocator) : Change → PortAllocator
  | .remove k => (pa.release k.port).1
  | _ => pa

def onTrackers (bm : BandwidthManager) : Change → BandwidthManager
  | .remove k => bm.unregisterAllocation k.toString
  | _ => bm

def onStats (stats : ServerStats) : Change → ServerStats
  | .keep => stats
  | .edit _ d => { stats with
      totalBytesRelayed := stats.totalBytesRelayed + d.bytes,
      totalMessages := stats.totalMessages + d.messages }
  | .bind _ _ _ => stats
  | .remove _ => { stats with activeAllocations := stats.activeAllocations - 1 }

/-- The server after the change. -/
def apply (c : Change) (server : TurnServer) : TurnServer :=
  { server with
    allocationTable := { server.allocationTable with
      allocations := c.onAllocations server.allocationTable.allocations,
      portAllocator := c.onPorts server.allocationTable.portAllocator,
      bandwidthManager := c.onTrackers server.allocationTable.bandwidthManager,
      stats := c.onStats server.allocationTable.stats },
    channelTable := ⟨c.onChannels server.channelTable.channels⟩ }

end Change

/-! ## Servers up to iteration order -/

theorem Rehashed.symm {server server' : TurnServer} (h : Rehashed server server') :
    Rehashed server' server := by
  obtain ⟨allocations, channels, hallocations, hchannels, rfl⟩ := h
  exact ⟨_, _, hallocations.symm, hchannels.symm, rfl⟩

theorem Rehashed.trans {server server' server'' : TurnServer} (h : Rehashed server server')
    (h' : Rehashed server' server'') : Rehashed server server'' := by
  obtain ⟨allocations, channels, hallocations, hchannels, rfl⟩ := h
  obtain ⟨allocations', channels', hallocations', hchannels', rfl⟩ := h'
  exact ⟨_, _, hallocations.trans hallocations', hchannels.trans hchannels', rfl⟩

variable {server server' : TurnServer} {c c₁ c₂ : Change} {k : SocketAddr}

/-! ## Changes at different addresses commute -/

theorem Change.actsOn_allocations (c : Change) :
    HashMap.ActsOn (fun k => c.addr = some k) c.onAllocations := by
  cases c with
  | keep => exact HashMap.actsOn_id _
  | edit k d => exact (HashMap.actsOn_modify k d.onAllocation).mono (fun _ h => by rw [h]; rfl)
  | bind k n b => exact HashMap.actsOn_id _
  | remove k => exact (HashMap.actsOn_erase k).mono (fun _ h => by rw [h]; rfl)

theorem Change.actsOn_channels (c : Change) :
    HashMap.ActsOn (fun key => c.addr = some key.1) c.onChannels := by
  cases c with
  | keep => exact HashMap.actsOn_id _
  | edit k d => exact HashMap.actsOn_id _
  | bind k n b => exact (HashMap.actsOn_insert (k, n) b).mono (fun _ h => by rw [h]; rfl)
  | remove k =>
      have hother : ∀ (key : SocketAddr × UInt16) (_ : ChannelBinding), ¬ some k = some key.1 →
          decide (key.1 ≠ k) = true := by
        intro key _ h
        exact decide_eq_true (fun heq => h (congrArg some heq.symm))
      exact HashMap.actsOn_retain hother

theorem Change.apply_rehashed (c : Change) (h : Rehashed server server') :
    Rehashed (c.apply server) (c.apply server') := by
  obtain ⟨allocations, channels, hallocations, hchannels, rfl⟩ := h
  exact ⟨_, _, c.actsOn_allocations.same hallocations, c.actsOn_channels.same hchannels, rfl⟩

section Commute

variable (hne : ∀ k, c₁.addr = some k → c₂.addr ≠ some k)

include hne

theorem Change.onPorts_comm (h : server.Consistent)
    (h₁ : ∀ k, c₁.addr = some k → k ∈ server.allocationTable.allocations)
    (h₂ : ∀ k, c₂.addr = some k → k ∈ server.allocationTable.allocations) :
    c₁.onPorts (c₂.onPorts server.allocationTable.portAllocator)
      = c₂.onPorts (c₁.onPorts server.allocationTable.portAllocator) := by
  cases c₁ with
  | keep => rfl
  | edit k d => rfl
  | bind k n b => rfl
  | remove k =>
      cases c₂ with
      | keep => rfl
      | edit k' d => rfl
      | bind k' n b => rfl
      | remove k' =>
          refine h.release_comm (h₂ k' rfl) (h₁ k rfl) ?_
          rintro rfl
          exact hne _ rfl rfl

omit hne in
theorem Change.onTrackers_comm (bm : BandwidthManager) :
    c₁.onTrackers (c₂.onTrackers bm) = c₂.onTrackers (c₁.onTrackers bm) := by
  cases c₁ with
  | keep => rfl
  | edit k d => rfl
  | bind k n b => rfl
  | remove k =>
      cases c₂ with
      | keep => rfl
      | edit k' d => rfl
      | bind k' n b => rfl
      | remove k' => exact congrArg BandwidthManager.mk (AList.erase_erase _ _ _)

omit hne in
theorem Change.onStats_comm (stats : ServerStats) :
    c₁.onStats (c₂.onStats stats) = c₂.onStats (c₁.onStats stats) := by
  cases c₁ <;> cases c₂ <;> simp [onStats, Nat.add_right_comm]

/-- Changes at different addresses commute. -/
theorem Change.apply_comm (h : server.Consistent)
    (h₁ : ∀ k, c₁.addr = some k → k ∈ server.allocationTable.allocations)
    (h₂ : ∀ k, c₂.addr = some k → k ∈ server.allocationTable.allocations) :
    Rehashed (c₁.apply (c₂.apply server)) (c₂.apply (c₁.apply server)) := by
  refine ⟨_, _, c₁.actsOn_allocations.comm c₂.actsOn_allocations (fun k => hne k) _,
    c₁.actsOn_channels.comm c₂.actsOn_channels (fun key => hne key.1) _, ?_⟩
  unfold apply
  rw [Change.onPorts_comm hne h h₁ h₂, Change.onTrackers_comm, Change.onStats_comm]

end Commute

/-! ## What a client's request looks at -/

/-- The servers differ in their tables only, and there not in what a client's requests look at: the
    client's allocation and its bindings. -/
structure SameFor (client : SocketAddr) (server server' : TurnServer) : Prop where
  rest : server' = { server with
    allocationTable := server'.allocationTable, channelTable := server'.channelTable }
  entry : server'.allocationTable.entryOfClient client
    = server.allocationTable.entryOfClient client
  channels : ∀ e, server.allocationTable.entryOfClient client = some e → ∀ n,
    server'.channelTable.getByChannel e.2.relayedAddr n
      = server.channelTable.getByChannel e.2.relayedAddr n

/-- What a request is going to do. -/
structure Plan where
  change : Change
  response : Option Bytes
  sent : Option Packet

/-- The outcome is the plan carried out on the server. -/
structure Performs (plan : Plan) (server : TurnServer) (o : Outcome) : Prop where
  change : Rehashed (plan.change.apply server) o.server
  response : o.response = plan.response
  sent : o.sent = plan.sent

/-- The plan changes the client's own allocation and bindings only. -/
def Plan.Owned (plan : Plan) (server : TurnServer) (client : SocketAddr) : Prop :=
  ∀ k, plan.change.addr = some k →
    ∃ e, server.allocationTable.entryOfClient client = some e ∧ e.1 = k

/-- The handler carries out one plan at every server that looks the same to the client, or panics at
    every one. -/
def Planned (server : TurnServer) (client : SocketAddr) (handler : TurnServer → Rust Outcome) :
    Prop :=
  (∃ plan : Plan, plan.Owned server client ∧ ∀ server', SameFor client server server' →
    server'.Consistent → ∃ o, handler server' = .ok o ∧ Performs plan server' o) ∨
  ∃ f, ∀ server', SameFor client server server' → handler server' = .error f

variable {D : Digests} {env : Env} {msg : Message} {client : SocketAddr} {u : String}

theorem Planned.congr {handler handler' : TurnServer → Rust Outcome}
    (h : Planned server client handler)
    (heq : ∀ server', SameFor client server server' → handler server' = handler' server') :
    Planned server client handler' := by
  rcases h with ⟨plan, howned, hplan⟩ | ⟨f, hf⟩
  · refine Or.inl ⟨plan, howned, fun server' hsame hc => ?_⟩
    rw [← heq server' hsame]
    exact hplan server' hsame hc
  · refine Or.inr ⟨f, fun server' hsame => ?_⟩
    rw [← heq server' hsame]
    exact hf server' hsame

/-- A handler that leaves the server alone. -/
theorem planned_keep {handler : TurnServer → Rust Outcome} (response : Option Bytes)
    (sent : Option Packet) (h : ∀ server', SameFor client server server' →
      handler server' = .ok ⟨server', response, sent, 0⟩) : Planned server client handler := by
  refine Or.inl ⟨⟨.keep, response, sent⟩, fun k hk => absurd hk (by simp [Change.addr]), ?_⟩
  intro server' hsame _
  exact ⟨_, h server' hsame, .refl _, rfl, rfl⟩

/-- A handler that changes something at the address of the client's allocation. -/
theorem planned_change {handler : TurnServer → Rust Outcome} {e : Σ _ : SocketAddr, Allocation}
    (hentry : server.allocationTable.entryOfClient client = some e) (plan : Plan)
    (haddr : plan.change.addr = some e.1)
    (h : ∀ server', SameFor client server server' →
      server'.allocationTable.allocations.lookup e.1 = some e.2 → e.2.relayedAddr = e.1 →
      ∃ o, handler server' = .ok o ∧ Performs plan server' o) : Planned server client handler := by
  refine Or.inl ⟨plan, fun k hk => ⟨e, hentry, Option.some.inj (haddr.symm.trans hk)⟩, ?_⟩
  intro server' hsame hc
  obtain ⟨he, -⟩ := entryOfClient_eq_some (hsame.entry.trans hentry)
  exact h server' hsame he (hc.key _ _ he).1

section SameFor

variable (h : SameFor client server server')

include h

theorem SameFor.errorBytes (code : ErrorCode) (reason : Option String) :
    errorResponseMessage msg code reason server' = errorResponseMessage msg code reason server := by
  rw [h.rest]
  rfl

theorem SameFor.signResponse (response : Message) :
    signResponse D env server' u response = signResponse D env server u response := by
  rw [h.rest]
  rfl

/-- A request that passes at one of the servers passes at the other. -/
theorem SameFor.verifyTurnAuth (hauth : verifyTurnAuth D env server msg client = .ok (.ok u)) :
    verifyTurnAuth D env server' msg client = .ok (.ok u) := by
  have hsame : server'.authDisabled = server.authDisabled := by rw [h.rest]
  cases hdis : server.authDisabled with
  | true =>
      unfold Miuturn.verifyTurnAuth at hauth ⊢
      rw [hdis, if_pos rfl] at hauth
      rw [hsame, hdis, if_pos rfl]
      exact hauth
  | false =>
      obtain ⟨pw, hpw⟩ := (verifyTurnAuth_eq_ok hdis).1 hauth
      refine (verifyTurnAuth_eq_ok (hsame.trans hdis)).2 ⟨pw, ?_⟩
      rw [h.rest]
      exact ⟨⟨hpw.acl, hpw.nonce, hpw.username, hpw.password⟩, hpw.integrity⟩

end SameFor

/-! ## The plans of the handlers -/

theorem permitFor_planned (D : Digests) (env : Env) (server : TurnServer) (msg : Message)
    (client : SocketAddr) (u : String) :
    Planned server client (fun server => .ok (permitFor D env server msg client u)) := by
  cases hentry : server.allocationTable.entryOfClient client with
  | none =>
      refine planned_keep (some (createErrorResponseBytes msg .allocationMismatch server)) none
        (fun server' hsame => ?_)
      unfold permitFor createErrorResponseBytes
      rw [hsame.entry, hentry, ← hsame.errorBytes]
      rfl
  | some e =>
      by_cases hpeers : peersOf msg.attributes = []
      · refine planned_keep (some (createErrorResponseBytes msg .badRequest server)) none
          (fun server' hsame => ?_)
        unfold permitFor createErrorResponseBytes
        rw [hsame.entry, hentry, ← hsame.errorBytes]
        dsimp only
        rw [if_pos hpeers]
        rfl
      · refine planned_change hentry
          ⟨.edit e.1 ⟨none, ((peersOf msg.attributes).map SocketAddr.ip).toFinset, 0, 0⟩,
            some (plainSuccess D env server msg u), none⟩ rfl (fun server' hsame _ _ => ?_)
        refine ⟨_, rfl, ?_⟩
        unfold permitFor plainSuccess AllocationTable.addPermissions
        rw [hsame.entry, hentry, hsame.signResponse]
        dsimp only
        rw [if_neg hpeers]
        exact ⟨.refl _, rfl, rfl⟩

theorem sendFor_planned (env : Env) (server : TurnServer) (msg : Message) (client : SocketAddr) :
    Planned server client (fun server => .ok (sendFor env server msg client)) := by
  by_cases hforwards : Forwards env server msg client
  · obtain ⟨e, peerAttr, dataAttr, peer, hentry, hpeer, hdata, haddr, hip, hrelay, hok⟩ := hforwards
    obtain ⟨relay, hrelay⟩ := Option.ne_none_iff_exists'.1 hrelay
    refine planned_change hentry ⟨.edit e.1 ⟨none, ∅, dataAttr.value.length, 1⟩, none,
      some ⟨relay.socket, peer, dataAttr.value⟩⟩ rfl (fun server' hsame _ _ => ?_)
    refine ⟨_, congrArg Except.ok (sendFor_of_forwards (hsame.entry.trans hentry) hpeer hdata haddr
      hip hrelay hok), ?_, rfl, rfl⟩
    have hedit : Edit.onAllocation ⟨none, ∅, dataAttr.value.length, 1⟩ = fun a => { a with
        bytesForwarded := a.bytesForwarded + dataAttr.value.length,
        messagesForwarded := a.messagesForwarded + 1 } := by
      funext a
      simp [Edit.onAllocation]
    simp only [Change.apply, Change.onAllocations, hedit]
    exact .refl _
  · refine planned_keep none none (fun server' hsame => congrArg Except.ok ?_)
    refine sendFor_of_not_forwards ?_
    unfold Forwards at hforwards ⊢
    rw [hsame.entry]
    exact hforwards

theorem refreshFor_planned (D : Digests) (env : Env) (server : TurnServer) (msg : Message)
    (client : SocketAddr) (u : String) (lifetime : UInt32) :
    Planned server client (fun server => .ok (refreshFor D env server msg client u lifetime)) := by
  cases hentry : server.allocationTable.entryOfClient client with
  | none =>
      refine planned_keep (some (createErrorResponseBytes msg .allocationMismatch server)) none
        (fun server' hsame => ?_)
      unfold refreshFor createErrorResponseBytes AllocationTable.findAllocationByClient
      rw [hsame.entry, hentry, ← hsame.errorBytes]
      rfl
  | some e =>
      by_cases hzero : lifetime = 0
      · refine planned_change hentry ⟨.remove e.1,
          some (signResponse D env server u (refreshSuccessMessage msg lifetime)).encode, none⟩
          rfl (fun server' hsame he hkey => ?_)
        refine ⟨_, rfl, ?_⟩
        unfold refreshFor AllocationTable.findAllocationByClient
        rw [hsame.entry, hentry, hsame.signResponse]
        simp only [Option.map_some, if_pos hzero, hkey, removeAllocation_of_some he]
        exact ⟨.refl _, rfl, rfl⟩
      · refine planned_change hentry ⟨.edit e.1 ⟨some (fromSecs lifetime.toNat), ∅, 0, 0⟩,
          some (signResponse D env server u (refreshSuccessMessage msg lifetime)).encode, none⟩
          rfl (fun server' hsame he hkey => ?_)
        refine ⟨_, rfl, ?_⟩
        unfold refreshFor AllocationTable.findAllocationByClient AllocationTable.refreshAllocation
        rw [hsame.entry, hentry, hsame.signResponse]
        simp only [Option.map_some, if_neg hzero, hkey, he]
        have hedit : Edit.onAllocation ⟨some (fromSecs lifetime.toNat), ∅, 0, 0⟩
            = fun a => { a with lifetime := fromSecs lifetime.toNat } := by
          funext a
          simp [Edit.onAllocation]
        refine ⟨?_, rfl, rfl⟩
        simp only [Change.apply, Change.onAllocations, hedit]
        exact .refl _

theorem bindFor_planned (D : Digests) (env : Env) (server : TurnServer) (msg : Message)
    (client : SocketAddr) (u : String) :
    Planned server client (fun server => bindFor D env server msg client u) := by
  by_cases hdrops : server.allocationTable.entryOfClient client = none ∨
      msg.getAttribute Attribute.peerAddress = none ∨
      msg.getAttribute Attribute.channelNumber = none
  · refine planned_keep none none (fun server' hsame => bindFor_of_drops ?_)
    rw [hsame.entry]
    exact hdrops
  · simp only [not_or, ← ne_eq, Option.ne_none_iff_exists'] at hdrops
    obtain ⟨⟨e, hentry⟩, ⟨peerAttr, hpeer⟩, ⟨channelAttr, hchannel⟩⟩ := hdrops
    cases hn : channelNumberOf channelAttr.value with
    | none =>
        refine Or.inr ⟨.indexOutOfRange, fun server' hsame => ?_⟩
        unfold bindFor
        simp only [hsame.entry, hentry, hpeer, hchannel, hn]
    | some n =>
        have hlookup : ∀ server', SameFor client server server' →
            server'.channelTable.channels.lookup (e.2.relayedAddr, n)
              = server.channelTable.channels.lookup (e.2.relayedAddr, n) :=
          fun server' hsame => hsame.channels e hentry n
        cases hb : server.channelTable.channels.lookup (e.2.relayedAddr, n) with
        | none =>
            refine planned_change hentry ⟨.bind e.1 n
              ⟨n, channelPeerOf peerAttr.value, e.2.relayedAddr, env.now, fromSecs 600⟩,
              some (plainSuccess D env server msg u), none⟩ rfl
              (fun server' hsame _ hkey => ?_)
            unfold bindFor ChannelTable.bind plainSuccess
            simp only [hsame.entry, hentry, hpeer, hchannel, hn, hlookup server' hsame, hb,
              hsame.signResponse]
            refine ⟨_, rfl, ?_, rfl, rfl⟩
            rw [hkey]
            exact .refl _
        | some b =>
            by_cases hp : b.peerAddr = channelPeerOf peerAttr.value
            · refine planned_change hentry ⟨.bind e.1 n { b with createdAt := env.now },
                some (plainSuccess D env server msg u), none⟩ rfl
                (fun server' hsame _ hkey => ?_)
              unfold bindFor ChannelTable.bind plainSuccess
              simp only [hsame.entry, hentry, hpeer, hchannel, hn, hlookup server' hsame, hb, hp,
                if_true, hsame.signResponse]
              refine ⟨_, rfl, ⟨_, _, .refl _, ?_, rfl⟩, rfl, rfl⟩
              -- the binding is renewed in place, and entered anew by the change
              rw [← hp, ← hkey]
              exact HashMap.same_insert_modify ((hlookup server' hsame).trans hb)
                (fun b => { b with createdAt := env.now })
            · refine planned_keep (some (createErrorResponseBytesWithReason msg .badRequest
                "Channel number already bound for this allocation" server)) none
                (fun server' hsame => ?_)
              unfold bindFor ChannelTable.bind createErrorResponseBytesWithReason
              simp only [hsame.entry, hentry, hpeer, hchannel, hn, hlookup server' hsame, hb, hp,
                if_false, hsame.errorBytes]
              rfl

/-! ## Requests of a client -/

/-- The steps to consider: an authenticated Refresh, CreatePermission or ChannelBind, a Send, or
    ChannelData. -/
inductive ClientStep (D : Digests) (env : Env) (server : TurnServer) (client : SocketAddr) :
    Event → Prop where
  | request {msg : Message} {u : String}
      (hmethod : msg.header.method ∈ [Method.refresh, .createPermission, .channelBind])
      (hauth : verifyTurnAuth D env server msg client = .ok (.ok u)) :
      ClientStep D env server client (.message msg client)
  | send {msg : Message} (hmethod : msg.header.method = .send) :
      ClientStep D env server client (.message msg client)
  | channelData (data : Bytes) : ClientStep D env server client (.channelData data client)

theorem requestBody_planned (hmethod : msg.header.method ∈ [Method.refresh, .createPermission,
      .channelBind]) (D : Digests) (env : Env) (server : TurnServer) (client : SocketAddr)
    (u : String) :
    Planned server client (fun server => requestBody D env server msg client u) := by
  simp only [List.mem_cons, List.not_mem_nil, or_false] at hmethod
  rcases hmethod with hm | hm | hm
  · simp only [requestBody_refresh hm]
    cases getLifetime msg with
    | error f => exact Or.inr ⟨f, fun _ _ => rfl⟩
    | ok lifetime => exact refreshFor_planned D env server msg client u lifetime
  · simp only [requestBody_createPermission hm]
    exact permitFor_planned D env server msg client u
  · simp only [requestBody_channelBind hm]
    exact bindFor_planned D env server msg client u

theorem handleChannelData_planned (env : Env) (server : TurnServer) (data : Bytes)
    (client : SocketAddr) :
    Planned server client (fun server => handleChannelData env server data client) := by
  by_cases hlen : data.length < 4
  · exact planned_keep none none (fun server' _ => if_pos hlen)
  · obtain ⟨n, hn⟩ := exists_u16At (show 0 + 1 < data.length by omega)
    obtain ⟨len, hl⟩ := exists_u16At (show 2 + 1 < data.length by omega)
    have hslice := slice_eq_ok (show 4 ≤ 4 + min len.toNat (data.length - 4) by omega)
      (show 4 + min len.toNat (data.length - 4) ≤ data.length by omega)
    unfold handleChannelData AllocationTable.getAllocationByClient
    simp only [if_neg hlen, hn, hl, Rust.ok_bind, hslice]
    cases hentry : server.allocationTable.entryOfClient client with
    | none =>
        refine planned_keep none none (fun server' hsame => ?_)
        simp only [hsame.entry, hentry, Option.map_none]
        rfl
    | some e =>
        have hchannels := fun server' (hsame : SameFor client server server') =>
          hsame.channels e hentry n
        cases hb : server.channelTable.getByChannel e.2.relayedAddr n with
        | none =>
            refine planned_keep none none (fun server' hsame => ?_)
            simp only [hsame.entry, hentry, Option.map_some, hchannels server' hsame, hb]
            rfl
        | some b =>
            cases hrelay : e.2.relay with
            | none =>
                refine planned_keep none none (fun server' hsame => ?_)
                simp only [hsame.entry, hentry, Option.map_some, hchannels server' hsame, hb,
                  hrelay]
                rfl
            | some relay =>
                refine planned_keep none (if env.sendOk then some ⟨relay.socket, b.peerAddr,
                  (data.drop 4).take (4 + min len.toNat (data.length - 4) - 4)⟩ else none)
                  (fun server' hsame => ?_)
                simp only [hsame.entry, hentry, Option.map_some, hchannels server' hsame, hb,
                  hrelay]
                rfl

/-- What the step does is decided by what the client can see of the server. -/
theorem ClientStep.planned {event : Event} (h : ClientStep D env server client event) :
    Planned server client (fun server => perform D env server event) := by
  have hturn : ∀ server', SameFor client server server' →
      server'.turnEnabled = server.turnEnabled := by
    intro server' hsame
    rw [hsame.rest]
  cases h with
  | request hmethod hauth =>
      rename_i msg u
      have hmethods : msg.header.method ∈ authenticatedMethods := List.mem_cons_of_mem _ hmethod
      cases henabled : server.turnEnabled with
      | false =>
          refine planned_keep none none (fun server' hsame => ?_)
          exact processMessage_turnDisabled hmethods ((hturn server' hsame).trans henabled)
      | true =>
          refine (requestBody_planned hmethod D env server client u).congr (fun server' hsame => ?_)
          exact ((processMessage_authenticated hmethods
            ((hturn server' hsame).trans henabled)).trans
              (withAuth_ok (hsame.verifyTurnAuth hauth) _)).symm
  | send hmethod =>
      rename_i msg
      unfold perform
      simp only [processMessage_send hmethod]
      cases henabled : server.turnEnabled with
      | false =>
          refine planned_keep none none (fun server' hsame => ?_)
          rw [hturn server' hsame, henabled]
          rfl
      | true =>
          refine (sendFor_planned env server msg client).congr (fun server' hsame => ?_)
          rw [hturn server' hsame, henabled]
          rfl
  | channelData data => exact handleChannelData_planned env server data client

/-! ## Other clients' changes -/

theorem Rehashed.sameFor (h : Rehashed server server') (hc : server.Consistent)
    (client : SocketAddr) : SameFor client server server' := by
  obtain ⟨allocations, channels, hallocations, hchannels, rfl⟩ := h
  refine ⟨rfl, hc.entryOfClient_same hallocations client, fun e _ n => ?_⟩
  exact (HashMap.same_iff_lookup.1 hchannels _).symm

theorem SameFor.trans {server'' : TurnServer} (h : SameFor client server server')
    (h' : SameFor client server' server'') : SameFor client server server'' where
  rest := by
    rw [h'.rest, h.rest]
  entry := h'.entry.trans h.entry
  channels := fun e he n => (h'.channels e (h.entry.trans he) n).trans (h.channels e he n)

/-- The search by client in two tables that have the same allocations of the client. -/
theorem Consistent.entryOfClient_congr {t t' : AllocationTable} {ct' : ChannelTable}
    (h' : Consistent t' ct')
    (hlookup : ∀ k a, a.clientAddr = client →
      (t'.allocations.lookup k = some a ↔ t.allocations.lookup k = some a)) :
    t'.entryOfClient client = t.entryOfClient client := by
  cases hentry : t.entryOfClient client with
  | some e =>
      obtain ⟨ha, rfl⟩ := entryOfClient_eq_some hentry
      exact h'.entryOfClient ((hlookup e.1 e.2 rfl).2 ha)
  | none =>
      cases hentry' : t'.entryOfClient client with
      | none => rfl
      | some e =>
          obtain ⟨ha, hclient⟩ := entryOfClient_eq_some hentry'
          exact absurd hclient (entryOfClient_eq_none hentry ((hlookup e.1 e.2 hclient).1 ha))

/-- An allocation that a change leaves at its address has the client it had. -/
theorem Change.client_onAllocations {m : HashMap SocketAddr Allocation} {k : SocketAddr}
    {a : Allocation} (h : (c.onAllocations m).lookup k = some a) :
    ∃ a₀, m.lookup k = some a₀ ∧ a₀.clientAddr = a.clientAddr := by
  cases c with
  | keep => exact ⟨a, h, rfl⟩
  | bind _ _ _ => exact ⟨a, h, rfl⟩
  | edit k' d =>
      simp only [Change.onAllocations, HashMap.lookup_modify] at h
      split at h
      · next hk =>
          obtain ⟨a₀, ha₀, rfl⟩ := Option.map_eq_some_iff.1 h
          rw [hk]
          exact ⟨a₀, ha₀, rfl⟩
      · exact ⟨a, h, rfl⟩
  | remove k' =>
      simp only [Change.onAllocations] at h
      by_cases hk : k = k'
      · rw [hk, AList.lookup_erase] at h
        exact absurd h (by simp)
      · rw [AList.lookup_erase_ne hk] at h
        exact ⟨a, h, rfl⟩

/-- A change at one client's address is nothing to another client. -/
theorem Change.sameFor (hc : server.Consistent) (hc' : (c.apply server).Consistent)
    {client' : SocketAddr} (hne : client' ≠ client)
    (howned : ∀ k, c.addr = some k →
      ∃ e, server.allocationTable.entryOfClient client = some e ∧ e.1 = k) :
    SameFor client' server (c.apply server) := by
  -- the allocation at the address of the change is not the other client's
  have hother : ∀ k a, server.allocationTable.allocations.lookup k = some a →
      a.clientAddr = client' → ¬ c.addr = some k := by
    rintro k a ha rfl haddr
    obtain ⟨e, hentry, rfl⟩ := howned k haddr
    obtain ⟨he, hclient⟩ := entryOfClient_eq_some hentry
    obtain rfl := Option.some.inj (he.symm.trans ha)
    exact hne hclient
  refine ⟨rfl, hc'.entryOfClient_congr (fun k a ha => ?_), fun e hentry n => ?_⟩
  · constructor
    · intro hafter
      obtain ⟨a₀, ha₀, hclient⟩ := Change.client_onAllocations hafter
      rw [← c.actsOn_allocations.off _ k (hother k a₀ ha₀ (hclient.trans ha))]
      exact hafter
    · intro hbefore
      exact (c.actsOn_allocations.off _ k (hother k a hbefore ha)).trans hbefore
  · obtain ⟨he, hclient⟩ := entryOfClient_eq_some hentry
    have hkey : e.2.relayedAddr = e.1 := (hc.key _ _ he).1
    refine c.actsOn_channels.off _ (e.2.relayedAddr, n) ?_
    rw [hkey]
    exact hother e.1 e.2 he hclient

/-! ## Either order -/

/-- What a request lets others see. -/
def Outcome.seen (o : Outcome) : Option Bytes × Option Packet := (o.response, o.sent)

/-- The step makes one change, and shows one result, at every server that looks the same to the
    client. -/
structure Determined (D : Digests) (env : Env) (server : TurnServer) (client : SocketAddr)
    (event : Event) (c : Change) (r : Rust (Option Bytes × Option Packet)) : Prop where
  owned : ∀ k, c.addr = some k →
    ∃ e, server.allocationTable.entryOfClient client = some e ∧ e.1 = k
  seen : ∀ server', SameFor client server server' → server'.Consistent →
    (perform D env server' event).map Outcome.seen = r
  change : ∀ server', SameFor client server server' → server'.Consistent →
    Rehashed (c.apply server') (react D env server' event).server

theorem ClientStep.determined {event : Event} (h : ClientStep D env server client event) :
    ∃ c r, Determined D env server client event c r := by
  rcases h.planned with ⟨plan, howned, hplan⟩ | ⟨f, hf⟩
  · refine ⟨plan.change, .ok (plan.response, plan.sent), howned, ?_, ?_⟩
    · intro server' hsame hc
      obtain ⟨o, ho, hperforms⟩ := hplan server' hsame hc
      beta_reduce at ho
      rw [ho, ← hperforms.response, ← hperforms.sent]
      rfl
    · intro server' hsame hc
      obtain ⟨o, ho, hperforms⟩ := hplan server' hsame hc
      beta_reduce at ho
      unfold react
      rw [ho]
      exact hperforms.change
  · beta_reduce at hf
    refine ⟨.keep, .error f, fun k hk => absurd hk (by simp [Change.addr]), ?_, ?_⟩
    · intro server' hsame _
      rw [hf server' hsame]
      rfl
    · intro server' hsame _
      unfold react
      rw [hf server' hsame]
      exact .refl _

section EitherOrder

variable {env₁ env₂ : Env} {event₁ event₂ : Event} {client₁ client₂ : SocketAddr}
  {r₁ r₂ : Rust (Option Bytes × Option Packet)}

/-- One client's step after another's: what it shows, and the server after both. -/
theorem Determined.second (hc : server.Consistent) (hne : client₁ ≠ client₂)
    (h₁ : Determined D env₁ server client₁ event₁ c₁ r₁)
    (h₂ : Determined D env₂ server client₂ event₂ c₂ r₂) {s s₁ : TurnServer}
    (hs : Rehashed server s) (hs₁ : Rehashed (react D env₁ s event₁).server s₁) :
    (perform D env₂ s₁ event₂).map Outcome.seen = r₂ ∧
      Rehashed (c₂.apply (c₁.apply server)) (react D env₂ s₁ event₂).server := by
  have hconsistent : s.Consistent := hs.consistent hc
  have hfirst : Rehashed (c₁.apply server) s₁ :=
    ((c₁.apply_rehashed hs).trans (h₁.change s (hs.sameFor hc client₁) hconsistent)).trans hs₁
  have hconsistent₁ : s₁.Consistent :=
    hs₁.consistent (react_consistent D env₁ event₁ hconsistent)
  have hmiddle : (c₁.apply server).Consistent := hfirst.symm.consistent hconsistent₁
  have hsame : SameFor client₂ server s₁ :=
    (Change.sameFor hc hmiddle hne.symm h₁.owned).trans (hfirst.sameFor hmiddle client₂)
  exact ⟨h₂.seen s₁ hsame hconsistent₁,
    (c₂.apply_rehashed hfirst).trans (h₂.change s₁ hsame hconsistent₁)⟩

/-- In every state that a started server reaches, two requests of different clients, each an
    authenticated Refresh, CreatePermission or ChannelBind, a Send, or ChannelData, can be handled
    in either order, each at its own time. Both orders give the same answers and packets to peers,
    and the same tables up to the iteration order of the maps, which may be any at each of the four
    steps. -/
theorem clients_independent {w₀ w : World} {history : List Transition}
    (hstart : Started w₀.server) (hrun : Run D w₀ history w) (hne : client₁ ≠ client₂)
    (h₁ : ClientStep D env₁ w.server client₁ event₁)
    (h₂ : ClientStep D env₂ w.server client₂ event₂) {s s' s₁ s₂ : TurnServer}
    (hs : Rehashed w.server s) (hs₁ : Rehashed (react D env₁ s event₁).server s₁)
    (hs' : Rehashed w.server s') (hs₂ : Rehashed (react D env₂ s' event₂).server s₂) :
    (perform D env₁ s event₁).map Outcome.seen = (perform D env₁ s₂ event₁).map Outcome.seen ∧
    (perform D env₂ s₁ event₂).map Outcome.seen = (perform D env₂ s' event₂).map Outcome.seen ∧
    Rehashed (react D env₂ s₁ event₂).server (react D env₁ s₂ event₁).server := by
  have hc := Run.consistent hrun hstart.fresh.consistent
  obtain ⟨c₁, r₁, hdet₁⟩ := h₁.determined
  obtain ⟨c₂, r₂, hdet₂⟩ := h₂.determined
  obtain ⟨hseen₂, hfinal⟩ := hdet₁.second hc hne hdet₂ hs hs₁
  obtain ⟨hseen₁, hfinal'⟩ := hdet₂.second hc hne.symm hdet₁ hs' hs₂
  refine ⟨?_, ?_, ?_⟩
  · rw [hseen₁]
    exact hdet₁.seen s (hs.sameFor hc client₁) (hs.consistent hc)
  · rw [hseen₂]
    exact (hdet₂.seen s' (hs'.sameFor hc client₂) (hs'.consistent hc)).symm
  · -- the changes are made at the two clients' addresses, which differ
    have hmem : ∀ {client : SocketAddr} {c : Change}, (∀ k, c.addr = some k →
        ∃ e, w.server.allocationTable.entryOfClient client = some e ∧ e.1 = k) →
        ∀ k, c.addr = some k → ∃ a, w.server.allocationTable.allocations.lookup k = some a ∧
          a.clientAddr = client := by
      intro client c howned k hk
      obtain ⟨e, hentry, rfl⟩ := howned k hk
      obtain ⟨he, hclient⟩ := entryOfClient_eq_some hentry
      exact ⟨e.2, he, hclient⟩
    have hdisj : ∀ k, c₂.addr = some k → c₁.addr ≠ some k := by
      intro k hk₂ hk₁
      obtain ⟨a₂, ha₂, rfl⟩ := hmem hdet₂.owned k hk₂
      obtain ⟨a₁, ha₁, rfl⟩ := hmem hdet₁.owned k hk₁
      obtain rfl := Option.some.inj (ha₁.symm.trans ha₂)
      exact hne rfl
    refine hfinal.symm.trans ((Change.apply_comm hdisj hc ?_ ?_).trans hfinal')
    · intro k hk
      obtain ⟨a, ha, -⟩ := hmem hdet₂.owned k hk
      exact HashMap.mem_of_lookup ha
    · intro k hk
      obtain ⟨a, ha, -⟩ := hmem hdet₁.owned k hk
      exact HashMap.mem_of_lookup ha

end EitherOrder

def secondClient : SocketAddr := .v4 ⟨198, 51, 100, 8⟩ 4000

/-- Two clients with an allocation each. -/
def twoClients : World :=
  (play sampleDigests challengedWorld
    [(sampleEnv 1, .message (sampleLogin .allocate "secret" []) sampleClient),
     (sampleEnv 2, .message (sampleLogin .allocate "secret" []) secondClient)]).2

/-- The first gives its allocation back, and the second binds a channel. -/
def firstRefreshes : Event :=
  .message (sampleLogin .refresh "secret" [⟨Attribute.lifetime, putU32 0⟩]) sampleClient

def secondBinds : Event :=
  .message (sampleLogin .channelBind "secret" [⟨Attribute.channelNumber, [0x40, 0, 0, 0]⟩,
    samplePeerAttribute]) secondClient

theorem clients_independent_refresh_bind :
    let s₁ := (react sampleDigests (sampleEnv 4) twoClients.server firstRefreshes).server
    let s₂ := (react sampleDigests (sampleEnv 3) twoClients.server secondBinds).server
    (react sampleDigests (sampleEnv 3) s₁ secondBinds).response ≠ none ∧
    s₁.allocationTable.allocations.keys.length = 1 ∧ s₂.channelTable.channels.keys.length = 1 ∧
    Rehashed (react sampleDigests (sampleEnv 3) s₁ secondBinds).server
      (react sampleDigests (sampleEnv 4) s₂ firstRefreshes).server := by
  obtain ⟨history, hrun⟩ : ∃ history, Run sampleDigests
      ⟨sampleServer false (some sampleUsers), 0⟩ history twoClients := by
    exact ⟨_, challenged_run.append (Run.of_play (by decide +kernel))⟩
  have h₁ : ClientStep sampleDigests (sampleEnv 4) twoClients.server sampleClient
      firstRefreshes := .request (u := "alice") (by decide) (by decide +kernel)
  have h₂ : ClientStep sampleDigests (sampleEnv 3) twoClients.server secondClient
      secondBinds := .request (u := "alice") (by decide) (by decide +kernel)
  exact ⟨by decide +kernel, by decide +kernel, by decide +kernel,
    (clients_independent (sampleServer_started false (some sampleUsers)) hrun (by decide) h₁ h₂
      (.refl _) (.refl _) (.refl _) (.refl _)).2.2⟩

end Miuturn
