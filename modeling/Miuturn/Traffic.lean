import Miuturn.Connections
import Miuturn.Relay

set_option autoImplicit false

/-! # What the traffic counters count

Packets are relayed on three paths: `send_to_peer` for a Send, `handle_channel_data` for ChannelData
and the task of an allocation for the datagrams of peers. The first counts a packet once it is sent,
in the totals and in the counters of the allocation. The second sends the same kind of packet from
the same socket and counts nothing. The third counts a datagram in the totals as soon as it is
received, whether it reaches the client or not.

So the totals are short by the ChannelData of the clients and too large by the datagrams that were
lost, and the counters of an allocation are short by its client's ChannelData. -/

open RustStd

namespace Miuturn

/-! ## Counters -/

/-- The counters that packets with payloads of these lengths make: packets and bytes. -/
def tally (lengths : List ℕ) : ℕ × ℕ := (lengths.length, lengths.sum)

@[simp]
theorem tally_nil : tally [] = 0 := rfl

theorem tally_append (l l' : List ℕ) : tally (l ++ l') = tally l + tally l' := by
  simp [tally]

theorem tally_eq_zero {l : List ℕ} : tally l = 0 ↔ l = [] := by
  constructor
  · intro h
    exact List.length_eq_zero_iff.1 (congrArg Prod.fst h)
  · rintro rfl
    exact tally_nil

/-- `total_messages` and `total_bytes_relayed`. -/
def ServerStats.traffic (stats : ServerStats) : ℕ × ℕ :=
  (stats.totalMessages, stats.totalBytesRelayed)

/-- `messages_forwarded` and `bytes_forwarded`. -/
def Allocation.traffic (a : Allocation) : ℕ × ℕ := (a.messagesForwarded, a.bytesForwarded)

/-! ## The server and the tasks of its allocations -/

/-- A step of the server, or a datagram of a peer that the task of an allocation receives, with
    whether `send_to_client` could deliver it. -/
inductive Activity where
  | server (e : Transition)
  | datagram (task : RelayTask) (env : Env) (peer : SocketAddr) (payload : Bytes)
      (delivered : Bool)

namespace Activity

inductive Step (D : Digests) (w : World) : Activity → World → Prop where
  | server {e : Transition} {w' : World} (hstep : Miuturn.Step D w e w') : Step D w (.server e) w'
  | datagram {k : SocketAddr} {a : Allocation} {task : RelayTask} (env : Env) (peer : SocketAddr)
      (payload : Bytes) (delivered : Bool)
      (ha : w.server.allocationTable.allocations.lookup k = some a)
      (htask : a.task = some task) :
      Step D w (.datagram task env peer payload delivered)
        { w with server := w.server.withTable (task.receive env w.server.allocationTable
          w.server.channelTable peer payload).1 }

abbrev Run (D : Digests) := Trace.Run (Step D)

/-- The runs of the server alone are among them. -/
theorem Run.of_server {D : Digests} {w₀ w : World} {history : List Transition}
    (h : Miuturn.Run D w₀ history w) : Run D w₀ (history.map .server) w := by
  induction h with
  | nil => exact .nil
  | snoc _ hstep ih =>
      rw [List.map_append]
      exact ih.snoc (.server hstep)

/-- The lengths of the payloads that a step sends for a message, that is for a Send. -/
def sends : Activity → List ℕ
  | .server e =>
    match e.event with
    | .message _ _ => (e.sent.map (fun packet => packet.payload.length)).toList
    | _ => []
  | .datagram .. => []

/-- Those it sends for ChannelData. -/
def channelData : Activity → List ℕ
  | .server e =>
    match e.event with
    | .channelData _ _ => (e.sent.map (fun packet => packet.payload.length)).toList
    | _ => []
  | .datagram .. => []

/-- Those that reach a client. -/
def delivered : Activity → List ℕ
  | .datagram _ _ _ payload true => [payload.length]
  | _ => []

/-- Those that are received from a peer and do not reach the client. -/
def lost : Activity → List ℕ
  | .datagram _ _ _ payload false => [payload.length]
  | _ => []

/-- What is relayed from a client to peers. -/
def forwarded (x : Activity) : List ℕ := x.sends ++ x.channelData

/-- What is relayed, in either direction and on any path. -/
def relayed (x : Activity) : List ℕ := x.forwarded ++ x.delivered

/-- What goes into the totals. -/
def counted (x : Activity) : List ℕ := x.sends ++ x.delivered ++ x.lost

end Activity

/-- The relayed address of the client whose message or frame a step handles. -/
def Transition.through (e : Transition) : Option SocketAddr :=
  e.event.client.bind e.before.allocationTable.findAllocationByClient

/-- The lengths of one kind of packets for the allocation at `k`, from the step that created it. -/
def Activity.addThrough (kind : Activity → List ℕ) (k : SocketAddr) (sofar : List ℕ) :
    Activity → List ℕ
  | .server e =>
    if e.created.map Allocation.relayedAddr = some k then []
    else if e.through = some k then sofar ++ kind (.server e)
    else sofar
  | .datagram .. => sofar

def throughAllocation (kind : Activity → List ℕ) (k : SocketAddr) (history : List Activity) :
    List ℕ :=
  history.foldl (Activity.addThrough kind k) []

/-- Every relayed packet is counted once: all of them in the totals, and those that the client of an
    allocation sent through it in the counters of the allocation. -/
structure TrafficCounted (history : List Activity) (server : TurnServer) : Prop where
  totals : server.allocationTable.stats.traffic = tally (history.flatMap Activity.relayed)
  allocations : ∀ k a, server.allocationTable.allocations.lookup k = some a →
    a.traffic = tally (throughAllocation Activity.forwarded k history)

variable {D : Digests} {w₀ w w' : World} {history : List Activity} {e : Transition}
  {k : SocketAddr} {a : Allocation} {msg : Message} {client : SocketAddr}

/-! ## What a step counts -/

theorem removeAllocation_traffic (t : AllocationTable) (ct : ChannelTable) (addr : SocketAddr) :
    (t.removeAllocation ct addr).1.1.stats.traffic = t.stats.traffic := by
  cases ha : t.allocations.lookup addr with
  | none => rw [removeAllocation_of_none ha]
  | some a =>
      rw [removeAllocation_of_some ha]
      rfl

theorem removeExisting_traffic (server : TurnServer) (client : SocketAddr) :
    (removeExisting server client).1.allocationTable.stats.traffic
      = server.allocationTable.stats.traffic := by
  rcases removeExisting_cases server client with ⟨-, heq⟩ | ⟨entry, -, heq⟩
  · rw [heq]
  · rw [heq]
    exact removeAllocation_traffic _ _ _

/-- A message adds what it sends to the totals. -/
theorem Effect.totals {env : Env} {server : TurnServer} {o : Outcome}
    (he : Effect D env server msg client o) :
    o.server.allocationTable.stats.traffic = server.allocationTable.stats.traffic
      + tally (o.sent.map (fun packet => packet.payload.length)).toList := by
  cases he with
  | inert _ => rfl
  | challenge reason _ => rfl
  | allocateFailed _ _ _ _ => exact removeExisting_traffic server client
  | allocated _ _ _ _ _ => exact removeExisting_traffic server client
  | deleted _ _ _ _ => exact removeAllocation_traffic _ _ _
  | refreshed _ _ _ _ htable _ =>
      rw [refreshAllocation_eq_ok htable]
      rfl
  | permitted _ _ hentry _ =>
      simp only [AllocationTable.addPermissions, hentry]
      rfl
  | bound _ _ _ _ _ _ _ _ => rfl
  | relayed peer data _ =>
      rcases sendToPeer_cases server.allocationTable env.sendOk client peer data with
        heq | ⟨entry, relay, -, -, heq⟩
      · rw [heq]
        rfl
      · rw [heq]
        rfl

/-- Only a message makes a Send. -/
theorem sends_of_not_message (h : ∀ msg client, e.event ≠ .message msg client) :
    (Activity.server e).sends = [] := by
  unfold Activity.sends
  dsimp only
  split
  · next msg client hevent => exact absurd hevent (h msg client)
  · rfl

theorem Step.totals (h : Miuturn.Step D w e w') :
    e.after.allocationTable.stats.traffic
      = e.before.allocationTable.stats.traffic + tally (Activity.server e).sends := by
  by_cases hmessage : ∃ msg client, e.event = .message msg client
  · obtain ⟨msg, client, hevent⟩ := hmessage
    simp only [Activity.sends, hevent]
    exact (h.effect hevent).totals
  · have hsends := sends_of_not_message (fun msg client hm => hmessage ⟨msg, client, hm⟩)
    rw [hsends, tally_nil, add_zero, h.after_eq]
    cases hevent : e.event with
    | message msg client => exact absurd ⟨msg, client, hevent⟩ hmessage
    | channelData data client =>
        obtain ⟨sent, heq, -⟩ := react_channelData D e.env e.before data client
        rw [heq]
    | cleanupAllocations =>
        have hstats := dropEntries_stats (e.before.allocationTable.expiredAddrs e.env.now)
          e.before.allocationTable e.before.channelTable 0
        simp only [react, perform, cleanupAllocations, AllocationTable.cleanupExpired,
          AllocationTable.subActive, ServerStats.traffic, hstats]
    | cleanupChannels => rfl
    | cleanupNonces => rfl
    | changeAuth change => rfl

/-- What an allocation that a step neither makes nor replaces has counted afterwards. -/
structure CountsOn (e : Transition) (k : SocketAddr) (a' a : Allocation) : Prop where
  before : e.before.allocationTable.allocations.lookup k = some a'
  traffic : a.traffic = a'.traffic
    + if e.through = some k then tally (Activity.server e).sends else 0
  kept : ∀ m, ¬ e.Granted .allocate a.clientAddr m

/-- A step that sends nothing for a message and leaves the counters of the allocation. -/
theorem CountsOn.of_quiet {a' : Allocation}
    (ha' : e.before.allocationTable.allocations.lookup k = some a')
    (htraffic : a.traffic = a'.traffic) (hsends : (Activity.server e).sends = [])
    (hkept : ∀ m, ¬ e.Granted .allocate a.clientAddr m) : CountsOn e k a' a := by
  refine ⟨ha', ?_, hkept⟩
  rw [htraffic, hsends, tally_nil, ite_self, add_zero]

/-- A Send counts in the client's allocation what it sends, and changes no other. -/
theorem CountsOn.of_relayed {sendOk : Bool} {peer : SocketAddr} {data : Bytes}
    (hc : e.before.Consistent) (hevent : e.event = .message msg client)
    (hmethod : msg.header.method = .send)
    (hafter : e.after = e.before.withTable
      (e.before.allocationTable.sendToPeer sendOk client peer data).1)
    (hsent : e.sent = (e.before.allocationTable.sendToPeer sendOk client peer data).2)
    (ha : e.after.allocationTable.allocations.lookup k = some a) : ∃ a', CountsOn e k a' a := by
  have hkept : ∀ m, ¬ e.Granted .allocate a.clientAddr m :=
    not_granted_of_method hevent hmethod (by decide) _
  rcases sendToPeer_cases e.before.allocationTable sendOk client peer data with
    heq | ⟨entry, relay, hentry, -, heq⟩
  · rw [heq] at hafter hsent
    rw [hafter] at ha
    exact ⟨a, .of_quiet ha rfl (by simp [Activity.sends, hevent, hsent]) hkept⟩
  · rw [heq] at hafter hsent
    have hthrough : e.through = some entry.1 := by
      rw [Transition.through, hevent]
      exact (findAllocationByClient_of_entry hentry).trans
        (congrArg some (hc.key _ _ (entryOfClient_eq_some hentry).1).1)
    have hsends : (Activity.server e).sends = [data.length] := by
      simp [Activity.sends, hevent, hsent]
    simp only [hafter, AllocationTable.countPacket, HashMap.lookup_modify] at ha
    split at ha
    · next hk =>
        obtain ⟨a', ha', rfl⟩ := Option.map_eq_some_iff.1 ha
        refine ⟨a', by rw [hk]; exact ha', ?_, hkept⟩
        rw [hthrough, if_pos (by rw [hk]), hsends]
        rfl
    · next hk =>
        refine ⟨a, ha, ?_, hkept⟩
        rw [hthrough, if_neg (fun h => hk (Option.some.inj h).symm), add_zero]

/-- An allocation after a message: it was there and has counted what was sent through it, or it is
    new and has counted nothing. -/
theorem Effect.countsOn (hevent : e.event = .message msg client)
    (he : Effect D e.env e.before msg client ⟨e.after, e.response, e.sent, e.removed⟩)
    (hc : e.before.Consistent) (ha : e.after.allocationTable.allocations.lookup k = some a) :
    (∃ a', CountsOn e k a' a) ∨
      (∃ m, e.Granted .allocate a.clientAddr m) ∧ a.traffic = 0 := by
  obtain ⟨env, event, before, after, response, sent, removed⟩ := e
  dsimp only at hevent he hc ha
  subst hevent
  cases he with
  | inert hclass =>
      exact Or.inl ⟨a, .of_quiet ha rfl rfl (not_granted_of_inert rfl hclass (by decide) _)⟩
  | challenge reason _ =>
      exact Or.inl ⟨a, .of_quiet ha rfl rfl
        (not_granted_of_class rfl (answerClass_unauthorized env before msg reason) _)⟩
  | allocateFailed _ _ _ hclass =>
      exact Or.inl ⟨a, .of_quiet ((Shrinks.removeExisting before client).allocations k a ha) rfl rfl
        (not_granted_of_class rfl hclass _)⟩
  | allocated hmethod _ _ _ hclass =>
      rcases HashMap.lookup_insert_eq_some.1 ha with ⟨-, rfl⟩ | ⟨-, hold⟩
      · exact Or.inr ⟨⟨msg, rfl, hmethod, _, rfl, hclass⟩, rfl⟩
      · refine Or.inl ⟨a, .of_quiet ((Shrinks.removeExisting before client).allocations k a hold)
          rfl rfl ?_⟩
        -- the client that asked has the new allocation only
        rintro m ⟨hm, -⟩
        obtain ⟨-, hclient⟩ := Event.message.inj hm
        exact hc.client_ne_of_removeExisting hold hclient.symm
  | deleted hmethod _ _ _ =>
      exact Or.inl ⟨a, .of_quiet ((Shrinks.without before _).allocations k a ha) rfl rfl
        (not_granted_of_method rfl hmethod (by decide) _)⟩
  | refreshed hmethod _ _ _ htable _ =>
      obtain ⟨a', ha', hsame, -⟩ := lookup_refreshAllocation htable ha
      refine Or.inl ⟨a', .of_quiet ha' ?_ rfl
        (not_granted_of_method rfl hmethod (by decide) _)⟩
      rw [hsame]
      rfl
  | permitted hmethod _ hentry _ =>
      simp only [AllocationTable.addPermissions, hentry] at ha
      obtain ⟨a', ha', htraffic⟩ := HashMap.exists_of_lookup_modify
        (R := fun a' a => a.traffic = a'.traffic) (fun _ => rfl) (fun _ => rfl) ha
      exact Or.inl ⟨a', .of_quiet ha' htraffic rfl
        (not_granted_of_method rfl hmethod (by decide) _)⟩
  | bound hmethod _ _ _ _ _ _ _ =>
      exact Or.inl ⟨a, .of_quiet ha rfl rfl (not_granted_of_method rfl hmethod (by decide) _)⟩
  | relayed peer data hmethod => exact Or.inl (CountsOn.of_relayed hc rfl hmethod rfl rfl ha)

theorem Step.countsOn (h : Miuturn.Step D w e w') (hc : e.before.Consistent)
    (ha : e.after.allocationTable.allocations.lookup k = some a) :
    (∃ a', CountsOn e k a' a) ∨
      (∃ m, e.Granted .allocate a.clientAddr m) ∧ a.traffic = 0 := by
  by_cases hmessage : ∃ msg client, e.event = .message msg client
  · obtain ⟨msg, client, hevent⟩ := hmessage
    exact (h.effect hevent).countsOn hevent hc ha
  · have hsends := sends_of_not_message (fun msg client hm => hmessage ⟨msg, client, hm⟩)
    exact Or.inl ⟨a, .of_quiet ((h.shrinks hmessage).allocations k a ha) rfl hsends
      (not_granted_of_not_message hmessage _)⟩

/-! ## Histories -/

/-- What is counted falls short of what is relayed by the ChannelData, and exceeds it by what is
    lost. -/
theorem tally_counted (history : List Activity) :
    tally (history.flatMap Activity.counted) + tally (history.flatMap Activity.channelData)
      = tally (history.flatMap Activity.relayed) + tally (history.flatMap Activity.lost) := by
  induction history with
  | nil => rfl
  | cons x history ih =>
      simp only [List.flatMap_cons, Activity.counted, Activity.relayed, Activity.forwarded,
        tally_append]
      calc tally x.sends + tally x.delivered + tally x.lost
            + tally (history.flatMap Activity.counted)
            + (tally x.channelData + tally (history.flatMap Activity.channelData))
          = tally x.sends + tally x.channelData + tally x.delivered + tally x.lost
            + (tally (history.flatMap Activity.counted)
              + tally (history.flatMap Activity.channelData)) := by abel
        _ = tally x.sends + tally x.channelData + tally x.delivered
            + tally (history.flatMap Activity.relayed)
            + (tally x.lost + tally (history.flatMap Activity.lost)) := by
              rw [ih]
              abel

theorem throughAllocation_snoc (kind : Activity → List ℕ) (k : SocketAddr)
    (history : List Activity) (x : Activity) :
    throughAllocation kind k (history ++ [x])
      = Activity.addThrough kind k (throughAllocation kind k history) x := by
  rw [throughAllocation, List.foldl_append]
  rfl

theorem tally_forwarded (k : SocketAddr) (history : List Activity) :
    tally (throughAllocation Activity.forwarded k history)
      = tally (throughAllocation Activity.sends k history)
        + tally (throughAllocation Activity.channelData k history) := by
  induction history using List.reverseRecOn with
  | nil => rfl
  | append_singleton history x ih =>
      simp only [throughAllocation_snoc]
      cases x with
      | server e =>
          unfold Activity.addThrough
          dsimp only
          split
          · rfl
          · split
            · simp only [tally_append, ih, Activity.forwarded]
              abel
            · exact ih
      | datagram task env peer payload ok => exact ih

/-- What the counters are in every state reached. -/
structure Measured (history : List Activity) (server : TurnServer) : Prop where
  consistent : server.Consistent
  totals : server.allocationTable.stats.traffic = tally (history.flatMap Activity.counted)
  allocations : ∀ k a, server.allocationTable.allocations.lookup k = some a →
    a.traffic = tally (throughAllocation Activity.sends k history)

theorem Measured.server (h : Measured history w.server) (hstep : Miuturn.Step D w e w') :
    Measured (history ++ [.server e]) e.after := by
  obtain ⟨hbefore, hafter⟩ := hstep.after_consistent h.consistent
  rw [hstep.next] at hafter
  refine ⟨hafter, ?_, fun k a ha => ?_⟩
  · obtain ⟨allocations, channels, -, -, hrehashed⟩ := hstep.rehashed
    have hsame : e.before.allocationTable.stats = w.server.allocationTable.stats := by
      rw [hrehashed]
    have hcounted : (Activity.server e).counted = (Activity.server e).sends := by
      simp [Activity.counted, Activity.delivered, Activity.lost]
    rw [hstep.totals, hsame, h.totals, List.flatMap_append, tally_append, List.flatMap_singleton,
      hcounted]
  · rw [throughAllocation_snoc]
    unfold Activity.addThrough
    dsimp only
    rcases hstep.countsOn hbefore ha with ⟨a', hcounts⟩ | ⟨⟨m, hgranted⟩, hzero⟩
    · have hne : e.created.map Allocation.relayedAddr ≠ some k := by
        intro hk
        obtain ⟨a₁, hcreated, hk⟩ := Option.map_eq_some_iff.1 hk
        exact created_ne_of_kept hafter ha hcounts.kept a₁ hcreated hk
      have ha' := hcounts.before
      rw [hstep.rehashed.lookup_allocations] at ha'
      rw [hcounts.traffic, h.allocations k a' ha', if_neg hne]
      split
      · rw [tally_append]
      · rw [add_zero]
    · have hk : e.created.map Allocation.relayedAddr = some k := by
        rw [created_of_granted hafter ha hgranted, Option.map_some, (hafter.key k a ha).1]
      rw [if_pos hk, hzero, tally_nil]

theorem Activity.Step.measured {x : Activity} (hstep : Activity.Step D w x w')
    (h : Measured history w.server) : Measured (history ++ [x]) w'.server := by
  cases hstep with
  | server hstep =>
      have hmeasured := h.server hstep
      rw [hstep.next]
      exact hmeasured
  | @datagram _ _ task env peer payload ok ha htask =>
      have hc := h.consistent
      refine ⟨⟨hc.bits, hc.key, hc.active, hc.count, hc.trackers, hc.clients, hc.bindings⟩, ?_, ?_⟩
      · -- the task counts the datagram before it knows what becomes of it
        have hcounted : tally (Activity.counted (.datagram task env peer payload ok))
            = (1, payload.length) := by
          cases ok <;> rfl
        rw [List.flatMap_append, tally_append, ← h.totals, List.flatMap_singleton, hcounted]
        rfl
      · intro k a hk
        rw [throughAllocation_snoc]
        exact h.allocations k a hk

theorem Activity.Run.measured (hrun : Activity.Run D w₀ history w) (hstart : Started w₀.server) :
    Measured history w.server := by
  refine Trace.Run.invariant (P := fun history w => Measured history w.server) hrun ?_
    (fun _ _ _ _ _ h hstep => hstep.measured h)
  refine ⟨hstart.fresh.consistent, ?_, fun k a ha => ?_⟩
  · rw [hstart.fresh.stats]
    rfl
  · rw [hstart.fresh.allocations] at ha
    exact absurd ha (by simp)

/-- In a state that a started server reaches, with any datagrams of peers and whatever becomes of
    them, every relayed packet is counted once exactly if the packets and bytes that were sent for
    ChannelData so far are as many as those of peers that were lost, and no live allocation has
    relayed any ChannelData. -/
theorem traffic_counted_iff (hstart : Started w₀.server) (hrun : Activity.Run D w₀ history w) :
    TrafficCounted history w.server ↔
      tally (history.flatMap Activity.channelData) = tally (history.flatMap Activity.lost) ∧
      ∀ k a, w.server.allocationTable.allocations.lookup k = some a →
        throughAllocation Activity.channelData k history = [] := by
  have hmeasured := hrun.measured hstart
  have hbalance := tally_counted history
  have htotals : w.server.allocationTable.stats.traffic = tally (history.flatMap Activity.relayed) ↔
      tally (history.flatMap Activity.channelData) = tally (history.flatMap Activity.lost) := by
    rw [hmeasured.totals]
    constructor
    · intro h
      rw [h] at hbalance
      exact add_left_cancel hbalance
    · intro h
      rw [h] at hbalance
      exact add_right_cancel hbalance
  have hallocation : ∀ k a, w.server.allocationTable.allocations.lookup k = some a →
      (a.traffic = tally (throughAllocation Activity.forwarded k history) ↔
        throughAllocation Activity.channelData k history = []) := by
    intro k a ha
    rw [tally_forwarded, ← hmeasured.allocations k a ha, left_eq_add, tally_eq_zero]
  constructor
  · rintro ⟨ht, hall⟩
    exact ⟨htotals.1 ht, fun k a ha => (hallocation k a ha).1 (hall k a ha)⟩
  · rintro ⟨ht, hall⟩
    exact ⟨htotals.2 ht, fun k a ha => (hallocation k a ha).2 (hall k a ha)⟩

/-- A client allocates, permits the peer and binds channel 0x4000 to it; then the event. -/
def relayedBy (event : Event) : List (Env × Event) := permittedPeer ++ [(sampleEnv 4, event)]

def relayedWorld (event : Event) : List Transition × World :=
  play sampleDigests ⟨sampleServer true none, 0⟩ (relayedBy event)

theorem relayedWorld_run (event : Event) : Activity.Run sampleDigests ⟨sampleServer true none, 0⟩
    ((relayedWorld event).1.map Activity.server) (relayedWorld event).2 := by
  refine .of_server (Run.of_play ?_)
  show [0, fromSecs 1, fromSecs 2, fromSecs 3, fromSecs 4].IsChain (· ≤ ·)
  decide

def sampleSend : Event :=
  .message (sampleRequest .send [samplePeerAttribute, ⟨Attribute.data, [7]⟩]) sampleClient

def sampleFrame : Event := .channelData [0x40, 0, 0, 1, 7] sampleClient

/-- One byte to the peer in a Send and two bytes back are counted. -/
theorem traffic_counted_iff_send :
    ∃ history w, Activity.Run sampleDigests ⟨sampleServer true none, 0⟩ history w ∧
      history.flatMap Activity.relayed = [1, 2] ∧ TrafficCounted history w.server := by
  obtain ⟨a, ha, htask⟩ : ∃ a, (relayedWorld sampleSend).2.server.allocationTable.allocations.lookup
      (.v4 ⟨203, 0, 113, 1⟩ 5000) = some a ∧ a.task = some ⟨sampleClient, .v4 ⟨10, 0, 0, 1⟩ 5000,
        .v4 ⟨203, 0, 113, 1⟩ 5000⟩ := by
    rw [← Option.map_eq_some_iff]
    decide +kernel
  have hrun := (relayedWorld_run sampleSend).snoc
    (.datagram (sampleEnv 5) samplePeer [1, 2] true ha htask)
  refine ⟨_, _, hrun, by decide +kernel,
    (traffic_counted_iff (sampleServer_started true none) hrun).2 ⟨by decide +kernel, ?_⟩⟩
  intro k a hk
  have hkeys : (relayedWorld sampleSend).2.server.allocationTable.allocations.keys
      = [.v4 ⟨203, 0, 113, 1⟩ 5000] := by decide +kernel
  have hmem := HashMap.mem_of_lookup hk
  rw [AList.mem_keys] at hmem
  obtain rfl := List.mem_singleton.1 (hkeys ▸ hmem)
  decide +kernel

/-- One byte to the peer on the channel is counted nowhere. -/
theorem channel_data_not_counted :
    let result := relayedWorld sampleFrame
    let history := result.1.map Activity.server
    Activity.Run sampleDigests ⟨sampleServer true none, 0⟩ history result.2 ∧
    history.flatMap Activity.relayed = [1] ∧
    throughAllocation Activity.forwarded (.v4 ⟨203, 0, 113, 1⟩ 5000) history = [1] ∧
    result.2.server.allocationTable.stats.traffic = (0, 0) ∧
    (result.2.server.allocationTable.allocations.lookup (.v4 ⟨203, 0, 113, 1⟩ 5000)).map
      Allocation.traffic = some (0, 0) ∧
    ¬ TrafficCounted history result.2.server := by
  have hrelayed : ((relayedWorld sampleFrame).1.map Activity.server).flatMap Activity.relayed
      = [1] := by decide +kernel
  have hstats : (relayedWorld sampleFrame).2.server.allocationTable.stats.traffic = (0, 0) := by
    decide +kernel
  refine ⟨relayedWorld_run sampleFrame, hrelayed, by decide +kernel, hstats, by decide +kernel,
    fun h => ?_⟩
  have htotals := h.totals
  rw [hrelayed, hstats] at htotals
  exact absurd htotals (by decide)

end Miuturn
