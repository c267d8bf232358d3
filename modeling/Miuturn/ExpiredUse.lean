import Miuturn.Permissions

set_option autoImplicit false

/-! # What has expired is used until it is cleaned up

An allocation and a channel binding expire by the clock, and are removed by tasks that run every 30
and 60 seconds. No handler looks at the clock in between. So nothing expired is used at a time
exactly if the tables hold nothing that is expired then; the one exception is a binding that nothing
leads to. -/

open RustStd

namespace Miuturn

/-! ## What the handlers ought to do -/

/-- A ChannelBind that asks for the number and the peer on the allocation at `r`, of a client that
    is let in. -/
structure AsksBind (D : Digests) (env : Env) (server : TurnServer) (msg : Message)
    (client r : SocketAddr) (n : UInt16) (p : SocketAddr) : Prop where
  turn : server.turnEnabled = true
  method : msg.header.method = .channelBind
  admitted : Admitted D env server msg client
  allocation : server.allocationTable.findAllocationByClient client = some r
  number : ∃ attr, msg.getAttribute Attribute.channelNumber = some attr ∧
    channelNumberOf attr.value = some n
  peer : ∃ attr, msg.getAttribute Attribute.peerAddress = some attr ∧ channelPeerOf attr.value = p

/-- The message is answered with Success. -/
def Succeeds (D : Digests) (env : Env) (server : TurnServer) (msg : Message)
    (client : SocketAddr) : Prop :=
  ∃ o r, processMessage D env server msg client = .ok o ∧ o.response = some r ∧
    answerClass r = some .success

/-- The client has an allocation that is not expired. -/
def HasLive (server : TurnServer) (client : SocketAddr) (t : ℕ) : Prop :=
  ∃ e, server.allocationTable.entryOfClient client = some e ∧ e.2.isExpired t = false

/-- At time `t` the server uses nothing that is expired: it relays nothing through it, answers no
    request about it with Success, and lets a new binding take its place. -/
structure UsesNothingExpired (D : Digests) (server : TurnServer) (t : ℕ) : Prop where
  send : ∀ env msg client o packet, env.now = t → msg.header.method = .send →
    processMessage D env server msg client = .ok o → o.sent = some packet →
      HasLive server client t
  channelData : ∀ env data client o packet, env.now = t → isChannelDataFrame data = .ok true →
    handleChannelData env server data client = .ok o → o.sent = some packet →
      HasLive server client t ∧ ∀ e n b, server.allocationTable.entryOfClient client = some e →
        u16At data 0 = .ok n → server.channelTable.getByChannel e.2.relayedAddr n = some b →
          b.isExpired t = false
  datagram : ∀ env k a task peer payload packet, env.now = t →
    server.allocationTable.allocations.lookup k = some a → a.task = some task →
    (task.receive env server.allocationTable server.channelTable peer payload).2 = some packet →
      a.isExpired t = false ∧
      ∀ n b, server.channelTable.getByPeerForRelayed k (task.effectivePeer peer) = some n →
        server.channelTable.getByChannel k n = some b → b.isExpired t = false
  success : ∀ env msg client, env.now = t →
    msg.header.method ∈ [Method.refresh, .createPermission, .channelBind] →
    Succeeds D env server msg client → HasLive server client t
  rebind : ∀ env msg client r n p b, env.now = t → AsksBind D env server msg client r n p →
    HasLive server client t → server.channelTable.getByChannel r n = some b →
    b.isExpired t = true → Succeeds D env server msg client

/-! ## When they do -/

/-- Nothing leads to the binding: ChannelData cannot carry its number, no datagram of a peer finds
    it, and nobody who is let in asks for its number with another peer. -/
structure Unreached (D : Digests) (server : TurnServer) (t : ℕ) (k : SocketAddr) (n : UInt16)
    (b : ChannelBinding) : Prop where
  number : isChannelNumber n = false
  peers : ∀ a task peer, server.allocationTable.allocations.lookup k = some a →
    a.task = some task →
    server.channelTable.getByPeerForRelayed k (task.effectivePeer peer) ≠ some n
  rebind : ∀ env msg client p, env.now = t → AsksBind D env server msg client k n p →
    b.peerAddr = p

/-- The tables hold nothing that is expired, but for bindings that nothing leads to. -/
structure HoldsNothingExpired (D : Digests) (server : TurnServer) (t : ℕ) : Prop where
  allocations : ∀ k a, server.allocationTable.allocations.lookup k = some a →
    a.isExpired t = false
  bindings : ∀ k n b, server.channelTable.getByChannel k n = some b → b.isExpired t = true →
    Unreached D server t k n b

variable {D : Digests} {env : Env} {server : TurnServer} {msg : Message} {client r p : SocketAddr}
  {n : UInt16} {t : ℕ}

theorem AsksBind.takesBind (h : AsksBind D env server msg client r n p)
    (hfree : ∀ b, server.channelTable.getByChannel r n = some b → b.peerAddr = p) :
    TakesBind D env server msg client r n p :=
  ⟨h.turn, h.method, h.admitted, h.allocation, h.number, h.peer, hfree⟩

/-- A ChannelBind is answered with Success exactly if its number is free or leads to its peer,
    expired or not. -/
theorem AsksBind.succeeds_iff (h : AsksBind D env server msg client r n p) :
    Succeeds D env server msg client ↔
      ∀ b, server.channelTable.getByChannel r n = some b → b.peerAddr = p := by
  constructor
  · rintro ⟨o, response, ho, hresponse, hclass⟩
    rcases (processMessage_effect ho).channelBind_cases h.method h.turn with
      ⟨hrefused, -⟩ | ⟨r', n', p', htakes⟩
    · exact absurd hclass (hrefused response hresponse)
    · obtain ⟨attr, hattr, hnumber⟩ := h.number
      obtain ⟨attr', hattr', hnumber'⟩ := htakes.number
      obtain rfl := Option.some.inj (hattr.symm.trans hattr')
      obtain rfl := Option.some.inj (hnumber.symm.trans hnumber')
      obtain ⟨attr, hattr, rfl⟩ := h.peer
      obtain ⟨attr', hattr', rfl⟩ := htakes.peer
      obtain rfl := Option.some.inj (hattr.symm.trans hattr')
      obtain rfl := Option.some.inj (h.allocation.symm.trans htakes.allocation)
      exact htakes.free
  · intro hfree
    obtain ⟨channels, u, -, hprocess⟩ := (h.takesBind hfree).processMessage
    exact ⟨_, _, hprocess, rfl, answerClass_plainSuccess⟩

/-- A Success to any of the three requests is about an allocation of the client. -/
theorem Succeeds.entry (h : Succeeds D env server msg client)
    (hmethod : msg.header.method ∈ [Method.refresh, .createPermission, .channelBind]) :
    ∃ e, server.allocationTable.entryOfClient client = some e := by
  obtain ⟨o, response, ho, hresponse, hclass⟩ := h
  have hallocate : msg.header.method ≠ .allocate := by
    intro hm
    rw [hm] at hmethod
    exact absurd hmethod (by decide)
  cases processMessage_effect ho with
  | inert herror =>
      have hbinding : msg.header.method ≠ .binding := by
        intro hm
        rw [hm] at hmethod
        exact absurd hmethod (by decide)
      have := herror response hresponse hbinding
      exact absurd (hclass.symm.trans this) (by decide)
  | challenge reason _ =>
      obtain rfl := Option.some.inj hresponse
      have := answerClass_unauthorized env server msg reason
      exact absurd (hclass.symm.trans this) (by decide)
  | allocateFailed hm _ _ _ => exact absurd hm hallocate
  | allocated hm _ _ _ _ => exact absurd hm hallocate
  | deleted _ _ hentry _ => exact ⟨_, hentry⟩
  | refreshed _ _ hentry _ _ _ => exact ⟨_, hentry⟩
  | permitted _ _ hentry _ => exact ⟨_, hentry⟩
  | bound _ _ hentry _ _ _ _ _ => exact ⟨_, hentry⟩
  | relayed _ _ hm => exact absurd hresponse (by simp)

/-- With nothing expired in the tables, nothing expired is used. -/
theorem HoldsNothingExpired.uses (h : HoldsNothingExpired D server t) :
    UsesNothingExpired D server t := by
  have hlive : ∀ {client e}, server.allocationTable.entryOfClient client = some e →
      e.2.isExpired t = false := by
    intro client e hentry
    exact h.allocations e.1 e.2 (entryOfClient_eq_some hentry).1
  refine ⟨?_, ?_, ?_, ?_, ?_⟩
  · intro env msg client o packet _ _ ho hsent
    obtain ⟨e, hentry, -⟩ := (processMessage_effect ho).sent hsent
    exact ⟨e, hentry, hlive hentry⟩
  · intro env data client o packet _ hframe ho hsent
    obtain ⟨-, n', hn', hnumber⟩ := isChannelDataFrame_eq_true.1 hframe
    rcases handleChannelData_cases env server data client with
      heq | ⟨e, -, -, -, -, hentry, -, -, -⟩
    · obtain rfl := Except.ok.inj (ho.symm.trans heq)
      exact absurd hsent (by simp [Outcome.unchanged])
    · refine ⟨⟨e, hentry, hlive hentry⟩, fun e' n b _ hn hb => ?_⟩
      obtain rfl := Except.ok.inj (hn.symm.trans hn')
      cases hexpired : b.isExpired t with
      | false => rfl
      | true =>
          have hno := (h.bindings _ n b hb hexpired).number
          exact absurd (hnumber.symm.trans hno) (by decide)
  · intro env k a task peer payload packet _ ha htask _
    refine ⟨h.allocations k a ha, fun n b hfound hb => ?_⟩
    cases hexpired : b.isExpired t with
    | false => rfl
    | true => exact absurd hfound ((h.bindings k n b hb hexpired).peers a task peer ha htask)
  · intro env msg client _ hmethod hsucceeds
    obtain ⟨e, hentry⟩ := hsucceeds.entry hmethod
    exact ⟨e, hentry, hlive hentry⟩
  · intro env msg client r n p b ht hasks _ hb hexpired
    refine hasks.succeeds_iff.2 (fun b' hb' => ?_)
    obtain rfl := Option.some.inj (hb.symm.trans hb')
    exact (h.bindings r n b hb hexpired).rebind env msg client p ht hasks

/-- The outside world at a time, with everything else going well. -/
def envAt (t : ℕ) : Env := { sampleEnv 0 with now := t }

/-- What is expired in the tables is used, unless nothing leads to it. -/
theorem UsesNothingExpired.holds (h : UsesNothingExpired D server t) (hc : server.Consistent)
    (hrelay : ∀ k a, server.allocationTable.allocations.lookup k = some a → a.relay ≠ none) :
    HoldsNothingExpired D server t := by
  have hallocations : ∀ k a, server.allocationTable.allocations.lookup k = some a →
      a.isExpired t = false := by
    -- any datagram goes through
    intro k a ha
    obtain ⟨relay, hsocket⟩ := Option.ne_none_iff_exists'.1 (hrelay k a ha)
    have htask : a.task = some ⟨a.clientAddr, relay.socket, a.relayedAddr⟩ := by
      rw [Allocation.task, hsocket]
      rfl
    exact (h.datagram (envAt t) k a _ k [] _ rfl ha htask rfl).1
  refine ⟨hallocations, fun k n b hb hexpired => ?_⟩
  obtain ⟨a, ha⟩ := HashMap.exists_lookup (hc.bindings k n b hb).2.2
  obtain ⟨relay, hsocket⟩ := Option.ne_none_iff_exists'.1 (hrelay k a ha)
  have hentry := hc.entryOfClient ha
  have hkey : a.relayedAddr = k := (hc.key k a ha).1
  refine ⟨?_, ?_, ?_⟩
  · -- an empty frame on the channel would go through
    cases hnumber : isChannelNumber n with
    | false => rfl
    | true =>
        have hword := u16At_append [] n (putU16 0)
        have hlen : 4 ≤ (putU16 n ++ putU16 0).length := by
          rw [List.length_append, putU16_length, putU16_length]
        have hb' : server.channelTable.getByChannel a.relayedAddr n = some b := by
          rw [hkey]
          exact hb
        have hsent := handleChannelData_bound (envAt t) hlen hword
          (getAllocationByClient_of_entry hentry) hsocket hb'
        have hlive := (h.channelData (envAt t) _ a.clientAddr _ _ rfl
          (isChannelDataFrame_eq_true.2 ⟨hlen, n, hword, hnumber⟩) hsent rfl).2 _ n b hentry hword
            hb'
        exact absurd (hexpired.symm.trans hlive) (by decide)
  · intro a' task peer ha' htask hfound
    have hlive := (h.datagram (envAt t) k a' task peer [] _ rfl ha' htask rfl).2 n b hfound hb
    exact absurd (hexpired.symm.trans hlive) (by decide)
  · intro env msg client p ht hasks
    obtain ⟨e, hfind, -⟩ := Option.map_eq_some_iff.1 hasks.allocation
    have hlive : HasLive server client t :=
      ⟨e, hfind, hallocations e.1 e.2 (entryOfClient_eq_some hfind).1⟩
    exact hasks.succeeds_iff.1 (h.rebind env msg client k n p b ht hasks hlive hb hexpired) b hb

/-- In every state that a started server reaches, with its maps in any order, and at every time:
    nothing expired is used exactly if the tables hold nothing that is expired, but for bindings
    that nothing leads to. -/
theorem usesNothingExpired_iff {w₀ w : World} {history : List Transition}
    (hstart : Started w₀.server) (hrun : Run D w₀ history w) (hserver : Rehashed w.server server)
    (t : ℕ) : UsesNothingExpired D server t ↔ HoldsNothingExpired D server t := by
  refine ⟨fun h => h.holds ?_ ?_, fun h => h.uses⟩
  · exact hserver.consistent (hrun.consistent hstart.fresh.consistent)
  · intro k a ha
    rw [hserver.lookup_allocations] at ha
    exact hrun.relay_ne_none hstart ha

/-- While the allocation and the binding of the sample client last. -/
theorem usesNothingExpired_iff_in_time :
    UsesNothingExpired sampleDigests permittedWorld.server (fromSecs 100) := by
  refine (usesNothingExpired_iff (sampleServer_started true none) permittedWorld_run (.refl _)
    (fromSecs 100)).2 ⟨?_, ?_⟩
  · have hall : ∀ e ∈ permittedWorld.server.allocationTable.allocations.entries,
        e.2.isExpired (fromSecs 100) = false := by decide +kernel
    intro k a ha
    exact hall ⟨k, a⟩ (HashMap.lookup_eq_some.1 ha)
  · have hall : ∀ e ∈ permittedWorld.server.channelTable.channels.entries,
        e.2.isExpired (fromSecs 100) = false := by decide +kernel
    intro k n b hb hexpired
    have hlive := hall ⟨(k, n), b⟩ (HashMap.lookup_eq_some.1 hb)
    exact absurd (hexpired.symm.trans hlive) (by decide)

/-- At 700 seconds the allocation and the binding of the sample client are expired. It still sends
    with Send and on the channel, and its CreatePermission is answered with Success; a datagram of
    the peer still reaches it on the channel; and the expired number is refused to another peer. -/
theorem expired_allocation_used :
    (permittedWorld.server.allocationTable.getAllocationByClient sampleClient).map
        (fun a => a.isExpired (fromSecs 700)) = some true ∧
    (permittedWorld.server.channelTable.getByChannel (.v4 ⟨203, 0, 113, 1⟩ 5000) 0x4000).map
        (fun b => b.isExpired (fromSecs 700)) = some true ∧
    ((play sampleDigests permittedWorld
        [(sampleEnv 700, .message (sampleRequest .send
            [samplePeerAttribute, ⟨Attribute.data, [7]⟩]) sampleClient),
         (sampleEnv 700, .channelData [0x40, 0, 0, 1, 7] sampleClient),
         (sampleEnv 700, .message (sampleRequest .createPermission [samplePeerAttribute])
            sampleClient),
         (sampleEnv 700, .message (sampleRequest .refresh []) sampleClient),
         (sampleEnv 700, .message (sampleRequest .channelBind
            [⟨Attribute.channelNumber, [0x40, 0, 0, 0]⟩, ⟨Attribute.peerAddress, []⟩])
            sampleClient)]).1.map
        (fun e => (e.sent.map Packet.payload, e.response.bind answerClass)))
      = [(some [7], none), (some [7], none), (none, some .success), (none, some .success),
         (none, some .error)] ∧
    ((RelayTask.mk sampleClient (.v4 ⟨10, 0, 0, 1⟩ 5000) (.v4 ⟨203, 0, 113, 1⟩ 5000)).receive
        (sampleEnv 700) permittedWorld.server.allocationTable permittedWorld.server.channelTable
        samplePeer [7]).2 = some ⟨sampleClient, [0x40, 0, 0, 1, 7]⟩ ∧
    ¬ UsesNothingExpired sampleDigests permittedWorld.server (fromSecs 700) := by
  refine ⟨by decide +kernel, by decide +kernel, by decide +kernel, by decide +kernel, fun h => ?_⟩
  have hentry : ∃ e ∈ permittedWorld.server.allocationTable.allocations.entries,
      e.2.isExpired (fromSecs 700) = true ∧ e.2.task
        = some ⟨sampleClient, .v4 ⟨10, 0, 0, 1⟩ 5000, .v4 ⟨203, 0, 113, 1⟩ 5000⟩ := by
    decide +kernel
  obtain ⟨e, he, hexpired, htask⟩ := hentry
  have hlive := (h.datagram (sampleEnv 700) e.1 e.2 _ samplePeer [7] _ rfl
    (HashMap.lookup_eq_some.2 he) htask rfl).1
  exact absurd (hexpired.symm.trans hlive) (by decide)

end Miuturn
