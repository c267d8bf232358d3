import Miuturn.Origin
import Miuturn.RelayTask

set_option autoImplicit false

/-! # Which connection a relayed packet takes

The task of an allocation knows its client by address only and leaves it to the
`ClientTransportRegistry` to find a sender for the address. A TCP, TLS or DTLS connection registers
its sender under the address of its peer when it is accepted, and its task removes whatever is
registered under that address when it ends. Where nothing is registered, the packet goes to the
default sender, a UDP socket, and there is always one once an allocation exists.

So the packets of an allocation that was made over a connection stay on that connection exactly as
long as no connection of the same peer address begins or ends after it: neither the connection
itself nor another one. -/

open RustStd

namespace Miuturn

/-! ## The registry (`allocation.rs`) -/

/-- The implementations of `ClientPacketSender`: by the socket they send from, or by the connection
    they write to. -/
inductive ClientPacketSender where
  | udp (socket : SocketAddr)
  | stream (connection : ℕ)
  | dtls (connection : ℕ)
  deriving DecidableEq

structure ClientTransportRegistry where
  defaultSender : Option ClientPacketSender
  clientSenders : HashMap SocketAddr ClientPacketSender

namespace ClientTransportRegistry

/-- The sender that `send_to_client` hands a packet to, or none where it returns `NotConnected`. -/
def sendToClient (registry : ClientTransportRegistry) (clientAddr : SocketAddr) :
    Option ClientPacketSender :=
  match registry.clientSenders.lookup clientAddr with
  | some sender => some sender
  | none => registry.defaultSender

/-- `register_client`. -/
def registerClient (registry : ClientTransportRegistry) (clientAddr : SocketAddr)
    (sender : ClientPacketSender) : ClientTransportRegistry :=
  { registry with clientSenders := registry.clientSenders.insert clientAddr sender }

/-- `unregister_client`. -/
def unregisterClient (registry : ClientTransportRegistry) (clientAddr : SocketAddr) :
    ClientTransportRegistry :=
  { registry with clientSenders := registry.clientSenders.erase clientAddr }

/-- `set_default_sender`. -/
def setDefaultSender (registry : ClientTransportRegistry) (sender : ClientPacketSender) :
    ClientTransportRegistry :=
  { registry with defaultSender := some sender }

end ClientTransportRegistry

/-! ## Connections (`server.rs`) -/

inductive Transport where
  | tcp
  | tls
  | dtls
  deriving DecidableEq

/-- A connection as `run_tcp`, `run_tls` or `run_dtls` accepts it. -/
structure Connection where
  transport : Transport
  peerAddr : SocketAddr
  deriving DecidableEq

/-- The sender that is registered for the connection with this number. -/
def Connection.sender (c : Connection) (i : ℕ) : ClientPacketSender :=
  match c.transport with
  | .tcp => .stream i
  | .tls => .stream i
  | .dtls => .dtls i

/-- Where an event comes from: a datagram of `run_udp`, a connection, or the server itself. -/
inductive Source where
  | udp
  | connection (i : ℕ)
  | server
  deriving DecidableEq

/-- The client whose message an event is. -/
def Event.client : Event → Option SocketAddr
  | .message _ client => some client
  | .channelData _ client => some client
  | _ => none

/-- The allocation that a step created. -/
def Transition.created (e : Transition) : Option Allocation :=
  match e.event with
  | .message msg client =>
    if msg.header.method = .allocate ∧ e.response.bind answerClass = some .success then
      e.after.allocationTable.getAllocationByClient client
    else none
  | _ => none

/-- The server with its listeners. Connections are numbered in the order in which they are accepted.
    `origins` has, for every allocation by its relayed address, where its Allocate came from. -/
structure Net where
  world : World
  mainSocket : Option SocketAddr
  registry : ClientTransportRegistry
  accepted : List Connection
  closed : List ℕ
  origins : SocketAddr → Option Source

inductive NetEvent where
  /-- `run_udp` has bound its socket. -/
  | listen (socket : SocketAddr)
  /-- The task of a connection begins. -/
  | connect (i : ℕ) (c : Connection)
  /-- It ends. -/
  | disconnect (i : ℕ) (c : Connection)
  /-- A step of the server. -/
  | server (source : Source) (e : Transition)
  /-- The task of an allocation receives a datagram of a peer. -/
  | datagram (task : RelayTask) (env : Env) (peer : SocketAddr) (payload : Bytes)

namespace Net

/-- The event can come from there. -/
def From (w : Net) (event : Event) : Source → Prop
  | .udp => event.client ≠ none
  | .connection i =>
    ∃ c, w.accepted[i]? = some c ∧ i ∉ w.closed ∧ event.client = some c.peerAddr
  | .server => event.client = none

/-- `create_allocation` makes the new relay socket the default sender as long as `run_udp` has set
    no main socket. -/
def registryAfter (w : Net) (e : Transition) : ClientTransportRegistry :=
  match w.mainSocket, e.created.bind Allocation.relay with
  | none, some relay => w.registry.setDefaultSender (.udp relay.socket)
  | _, _ => w.registry

def originsAfter (w : Net) (source : Source) (e : Transition) : SocketAddr → Option Source :=
  match e.created with
  | some a => Function.update w.origins a.relayedAddr (some source)
  | none => w.origins

inductive Step (D : Digests) (w : Net) : NetEvent → Net → Prop where
  | listen (socket : SocketAddr) : Step D w (.listen socket) { w with
      mainSocket := some socket, registry := w.registry.setDefaultSender (.udp socket) }
  | connect (c : Connection) : Step D w (.connect w.accepted.length c) { w with
      accepted := w.accepted ++ [c],
      registry := w.registry.registerClient c.peerAddr (c.sender w.accepted.length) }
  | disconnect {i : ℕ} {c : Connection} (hc : w.accepted[i]? = some c) (hopen : i ∉ w.closed) :
      Step D w (.disconnect i c) { w with
        closed := i :: w.closed, registry := w.registry.unregisterClient c.peerAddr }
  | server {source : Source} {e : Transition} {world : World} (hfrom : w.From e.event source)
      (hstep : Miuturn.Step D w.world e world) : Step D w (.server source e) { w with
        world := world, registry := w.registryAfter e, origins := w.originsAfter source e }
  | datagram {k : SocketAddr} {a : Allocation} {task : RelayTask} (env : Env) (peer : SocketAddr)
      (payload : Bytes) (ha : w.world.server.allocationTable.allocations.lookup k = some a)
      (htask : a.task = some task) : Step D w (.datagram task env peer payload) { w with
        world := { w.world with server := w.world.server.withTable (task.receive env
          w.world.server.allocationTable w.world.server.channelTable peer payload).1 } }

abbrev Run (D : Digests) := Trace.Run (Step D)

/-- Nothing has happened yet. -/
structure Started (w : Net) : Prop where
  server : Miuturn.Started w.world.server
  mainSocket : w.mainSocket = none
  registry : w.registry = ⟨none, ∅⟩
  accepted : w.accepted = []
  closed : w.closed = []
  origins : ∀ k, w.origins k = none

/-- The sender that the task hands the packet for a datagram to. -/
def handedTo (w : Net) (task : RelayTask) (env : Env) (peer : SocketAddr) (payload : Bytes) :
    Option ClientPacketSender :=
  (task.receive env w.world.server.allocationTable w.world.server.channelTable peer payload).2.bind
    (fun packet => w.registry.sendToClient packet.client)

/-- Whatever the task relays is handed to the sender of the connection, and to nobody once the
    connection has ended. -/
def KeepsTo (w : Net) (task : RelayTask) (i : ℕ) : Prop :=
  ∀ env peer payload sender, w.handedTo task env peer payload = some sender →
    i ∉ w.closed ∧ ∃ c, w.accepted[i]? = some c ∧ sender = c.sender i

end Net

/-- A connection with this peer address begins or ends. -/
def NetEvent.Touches (addr : SocketAddr) : NetEvent → Prop
  | .connect _ c => c.peerAddr = addr
  | .disconnect _ c => c.peerAddr = addr
  | _ => False

variable {D : Digests} {w₀ w w' : Net} {history : List NetEvent} {ev : NetEvent} {addr : SocketAddr}
  {i : ℕ} {c : Connection}

/-! ## What is registered -/

theorem Connection.sender_inj {c c' : Connection} {j : ℕ} (h : c.sender i = c'.sender j) :
    i = j := by
  unfold Connection.sender at h
  cases hc : c.transport <;> cases hc' : c'.transport <;> simp_all

theorem Connection.sender_ne_udp (c : Connection) (i : ℕ) (socket : SocketAddr) :
    c.sender i ≠ .udp socket := by
  unfold Connection.sender
  cases c.transport <;> simp

theorem Net.clientSenders_registryAfter (w : Net) (e : Transition) :
    (w.registryAfter e).clientSenders = w.registry.clientSenders := by
  unfold registryAfter
  split <;> rfl

/-- Only a connection of the address changes what is registered under it. -/
theorem Net.Step.clientSenders_of_not_touches (h : Net.Step D w ev w') (hev : ¬ ev.Touches addr) :
    w'.registry.clientSenders.lookup addr = w.registry.clientSenders.lookup addr := by
  cases h with
  | listen socket => rfl
  | connect c => exact AList.lookup_insert_ne (Ne.symm hev)
  | disconnect hc hopen => exact AList.lookup_erase_ne (Ne.symm hev)
  | server hfrom hstep => exact congrArg (AList.lookup addr) (w.clientSenders_registryAfter _)
  | datagram env peer payload ha htask => rfl

/-- A connection stays open until it ends. -/
theorem Net.Step.open_of_not_touches (h : Net.Step D w ev w') (hc : w.accepted[i]? = some c)
    (hopen : i ∉ w.closed) (hev : ¬ ev.Touches c.peerAddr) :
    w'.accepted[i]? = some c ∧ i ∉ w'.closed := by
  cases h with
  | listen socket => exact ⟨hc, hopen⟩
  | connect c' =>
      have hlt : i < w.accepted.length := (List.getElem?_eq_some_iff.1 hc).1
      exact ⟨(List.getElem?_append_left hlt).trans hc, hopen⟩
  | @disconnect j c' hc' _ =>
      refine ⟨hc, fun hmem => ?_⟩
      rcases List.mem_cons.1 hmem with rfl | hmem
      · obtain rfl := Option.some.inj (hc.symm.trans hc')
        exact hev rfl
      · exact hopen hmem
  | server hfrom hstep => exact ⟨hc, hopen⟩
  | datagram env peer payload ha htask => exact ⟨hc, hopen⟩

/-- What is registered under an address is the sender of the connection that began there last, and
    none has ended since. -/
theorem Net.Run.registered (hrun : Net.Run D w₀ history w) (hstart : w₀.Started)
    {sender : ClientPacketSender} (h : w.registry.clientSenders.lookup addr = some sender) :
    ∃ i c pre post, history = pre ++ .connect i c :: post ∧ c.peerAddr = addr ∧
      sender = c.sender i ∧ ∀ ev ∈ post, ¬ ev.Touches addr := by
  induction hrun with
  | nil =>
      rw [hstart.registry] at h
      exact absurd h (by simp)
  | @snoc history w w' ev _ hstep ih =>
      by_cases hev : ev.Touches addr
      · cases hstep with
        | connect c =>
            obtain rfl : c.peerAddr = addr := hev
            have hsender : (w.registry.clientSenders.insert c.peerAddr
                (c.sender w.accepted.length)).lookup c.peerAddr = some sender := h
            rw [AList.lookup_insert] at hsender
            exact ⟨_, c, history, [], rfl, rfl, (Option.some.inj hsender).symm, by simp⟩
        | @disconnect i c hc hopen =>
            obtain rfl : c.peerAddr = addr := hev
            have hsender : (w.registry.clientSenders.erase c.peerAddr).lookup c.peerAddr
                = some sender := h
            rw [AList.lookup_erase] at hsender
            exact absurd hsender (by simp)
        | listen socket => exact hev.elim
        | server hfrom hstep => exact hev.elim
        | datagram env peer payload ha htask => exact hev.elim
      · rw [hstep.clientSenders_of_not_touches hev] at h
        obtain ⟨i, c, pre, post, rfl, hpeer, hsender, hquiet⟩ := ih h
        refine ⟨i, c, pre, post ++ [ev], by simp, hpeer, hsender, fun ev' hev' => ?_⟩
        rcases List.mem_append.1 hev' with hev' | hev'
        · exact hquiet ev' hev'
        · rw [List.mem_singleton.1 hev']
          exact hev

/-! ## What holds in every state -/

/-- The tables agree, every allocation has a socket, there is a default sender once it can be needed
    and it is a UDP socket, and an allocation made over a connection has the address of that
    connection. -/
structure Net.Sound (w : Net) : Prop where
  consistent : w.world.server.Consistent
  relay : ∀ k a, w.world.server.allocationTable.allocations.lookup k = some a → a.relay ≠ none
  main : w.mainSocket ≠ none → w.registry.defaultSender ≠ none
  default : ∀ k a, w.world.server.allocationTable.allocations.lookup k = some a →
    w.registry.defaultSender ≠ none
  udp : ∀ sender, w.registry.defaultSender = some sender → ∃ socket, sender = .udp socket
  closed : ∀ j ∈ w.closed, j < w.accepted.length
  origins : ∀ k a i, w.world.server.allocationTable.allocations.lookup k = some a →
    w.origins k = some (.connection i) → ∃ c, w.accepted[i]? = some c ∧ c.peerAddr = a.clientAddr

theorem Net.Started.sound (h : w.Started) : w.Sound := by
  have hnone : ∀ k a, w.world.server.allocationTable.allocations.lookup k ≠ some a := by
    intro k a ha
    rw [h.server.fresh.allocations] at ha
    exact absurd ha (by simp)
  refine ⟨h.server.fresh.consistent, fun k a ha => absurd ha (hnone k a),
    fun hmain => absurd h.mainSocket hmain, fun k a ha => absurd ha (hnone k a), ?_, ?_,
    fun k a i ha => absurd ha (hnone k a)⟩
  · intro sender hsender
    rw [h.registry] at hsender
    exact absurd hsender (by simp)
  · rw [h.closed]
    exact fun j hj => absurd hj (by simp)

section Server

variable {e : Transition} {world : World} {source : Source} {k : SocketAddr} {a : Allocation}

/-- The allocation that a granted Allocate made is the one the step created. -/
theorem created_of_granted {m : Message} (hc : e.after.Consistent)
    (ha : e.after.allocationTable.allocations.lookup k = some a)
    (hgranted : e.Granted .allocate a.clientAddr m) : e.created = some a := by
  obtain ⟨hevent, hmethod, b, hresponse, hclass⟩ := hgranted
  unfold Transition.created
  rw [hevent]
  dsimp only
  rw [if_pos ⟨hmethod, by rw [hresponse]; exact hclass⟩]
  exact getAllocationByClient_of_entry (hc.entryOfClient ha)

/-- The allocation that a step created is in the table, and the step was a granted Allocate of its
    client. -/
theorem granted_of_created (hc : e.after.Consistent) (h : e.created = some a) :
    e.after.allocationTable.allocations.lookup a.relayedAddr = some a ∧
      ∃ m, e.Granted .allocate a.clientAddr m := by
  unfold Transition.created at h
  split at h
  · next msg client hevent =>
      split at h
      · next hsuccess =>
          obtain ⟨entry, hentry, rfl⟩ := Option.map_eq_some_iff.1 h
          obtain ⟨ha, hclient⟩ := entryOfClient_eq_some hentry
          obtain ⟨b, hb, hclass⟩ := Option.bind_eq_some_iff.1 hsuccess.2
          refine ⟨?_, msg, ?_, hsuccess.1, b, hb, hclass⟩
          · rw [(hc.key _ _ ha).1]
            exact ha
          · rw [hclient]
            exact hevent
      · exact absurd h (by simp)
  · exact absurd h (by simp)

/-- Nothing was created where the allocation of a client that was granted none is. -/
theorem created_ne_of_kept (hc : e.after.Consistent)
    (ha : e.after.allocationTable.allocations.lookup k = some a)
    (hkept : ∀ m, ¬ e.Granted .allocate a.clientAddr m) :
    ∀ a₁, e.created = some a₁ → a₁.relayedAddr ≠ k := by
  intro a₁ hcreated hk
  obtain ⟨ha₁, m, hgranted⟩ := granted_of_created hc hcreated
  rw [hk] at ha₁
  obtain rfl := Option.some.inj (ha.symm.trans ha₁)
  exact hkept m hgranted

theorem Net.defaultSender_registryAfter (h : w.registry.defaultSender ≠ none) :
    (w.registryAfter e).defaultSender ≠ none := by
  unfold Net.registryAfter
  split
  · exact Option.some_ne_none _
  · exact h

theorem Net.originsAfter_of_ne (h : ∀ a, e.created = some a → a.relayedAddr ≠ k) :
    w.originsAfter source e k = w.origins k := by
  unfold Net.originsAfter
  cases hcreated : e.created with
  | none => rfl
  | some a => exact Function.update_of_ne (h a hcreated).symm _ _

/-- There is a default sender once there are allocations: one that was not there before brings its
    own. -/
theorem Net.Sound.default_after (h : w.Sound) (hstep : Miuturn.Step D w.world e world)
    (hafter : e.after.Consistent) (hrelay : a.relay ≠ none)
    (ha : e.after.allocationTable.allocations.lookup k = some a) :
    (w.registryAfter e).defaultSender ≠ none := by
  obtain ⟨hbefore, -⟩ := hstep.after_consistent h.consistent
  cases hstep.origin hbefore ha with
  | kept ha' _ _ =>
      rw [hstep.rehashed.lookup_allocations] at ha'
      exact w.defaultSender_registryAfter (h.default k _ ha')
  | created hgranted _ _ _ =>
      obtain ⟨relay, hsocket⟩ := Option.ne_none_iff_exists'.1 hrelay
      unfold Net.registryAfter
      rw [created_of_granted hafter ha hgranted, Option.bind_some, hsocket]
      cases hmain : w.mainSocket with
      | none => exact Option.some_ne_none _
      | some socket => exact h.main (by rw [hmain]; exact Option.some_ne_none _)

/-- An allocation made over a connection has its address. -/
theorem Net.Sound.origins_after (h : w.Sound) (hfrom : w.From e.event source)
    (hstep : Miuturn.Step D w.world e world) (hafter : e.after.Consistent)
    (ha : e.after.allocationTable.allocations.lookup k = some a)
    (horigin : w.originsAfter source e k = some (.connection i)) :
    ∃ c, w.accepted[i]? = some c ∧ c.peerAddr = a.clientAddr := by
  obtain ⟨hbefore, -⟩ := hstep.after_consistent h.consistent
  cases hstep.origin hbefore ha with
  | @kept a' ha' hcontinues hkept =>
      have hsame : w.originsAfter source e k = w.origins k :=
        Net.originsAfter_of_ne (created_ne_of_kept hafter ha hkept)
      rw [hsame] at horigin
      rw [hstep.rehashed.lookup_allocations] at ha'
      obtain ⟨c, hc, hpeer⟩ := h.origins k a' i ha' horigin
      exact ⟨c, hc, hpeer.trans hcontinues.client⟩
  | created hgranted _ _ _ =>
      unfold Net.originsAfter at horigin
      rw [created_of_granted hafter ha hgranted] at horigin
      dsimp only at horigin
      rw [(hafter.key k a ha).1, Function.update_self] at horigin
      obtain rfl := Option.some.inj horigin
      obtain ⟨c, hc, -, hclient⟩ := hfrom
      rw [hgranted.1] at hclient
      exact ⟨c, hc, (Option.some.inj hclient).symm⟩

theorem Net.Sound.server (h : w.Sound) (hfrom : w.From e.event source)
    (hstep : Miuturn.Step D w.world e world) :
    ({ w with world := world, registry := w.registryAfter e, origins := w.originsAfter source e }
      : Net).Sound := by
  obtain ⟨hbefore, hafter⟩ := hstep.after_consistent h.consistent
  have hworld : world.server = e.after := by rw [hstep.next]
  rw [hworld] at hafter
  have hrelay : ∀ k a, e.after.allocationTable.allocations.lookup k = some a → a.relay ≠ none := by
    intro k a ha
    rcases hstep.carries hbefore ha with ⟨a', ha', hcarries⟩ | hmade
    · rw [hstep.rehashed.lookup_allocations] at ha'
      rw [hcarries.relay]
      exact h.relay k a' ha'
    · exact hmade.relay
  refine ⟨by rw [hworld]; exact hafter, by rw [hworld]; exact hrelay,
    fun hmain => w.defaultSender_registryAfter (h.main hmain), ?_, ?_, h.closed, ?_⟩
  · intro k a ha
    rw [hworld] at ha
    exact h.default_after hstep hafter (hrelay k a ha) ha
  · intro sender hsender
    simp only [Net.registryAfter] at hsender
    split at hsender
    · exact ⟨_, (Option.some.inj hsender).symm⟩
    · exact h.udp sender hsender
  · intro k a i ha horigin
    rw [hworld] at ha
    exact h.origins_after hfrom hstep hafter ha horigin

end Server

theorem Net.Step.sound (hstep : Net.Step D w ev w') (h : w.Sound) : w'.Sound := by
  cases hstep with
  | listen socket =>
      exact ⟨h.consistent, h.relay, fun _ => Option.some_ne_none _,
        fun _ _ _ => Option.some_ne_none _, fun sender hs => ⟨socket, (Option.some.inj hs).symm⟩,
        h.closed, h.origins⟩
  | connect c =>
      refine ⟨h.consistent, h.relay, h.main, h.default, h.udp, fun j hj => ?_, ?_⟩
      · rw [List.length_append]
        exact Nat.lt_add_right _ (h.closed j hj)
      · intro k a i ha horigin
        obtain ⟨c', hc', hpeer⟩ := h.origins k a i ha horigin
        have hlt := (List.getElem?_eq_some_iff.1 hc').1
        exact ⟨c', (List.getElem?_append_left hlt).trans hc', hpeer⟩
  | disconnect hc hopen =>
      refine ⟨h.consistent, h.relay, h.main, h.default, h.udp, fun j hj => ?_, h.origins⟩
      rcases List.mem_cons.1 hj with rfl | hj
      · exact (List.getElem?_eq_some_iff.1 hc).1
      · exact h.closed j hj
  | server hfrom hstep => exact h.server hfrom hstep
  | datagram env peer payload ha htask =>
      have hc := h.consistent
      exact ⟨⟨hc.bits, hc.key, hc.active, hc.count, hc.trackers, hc.clients, hc.bindings⟩, h.relay,
        h.main, h.default, h.udp, h.closed, h.origins⟩

theorem Net.Run.sound (hrun : Net.Run D w₀ history w) (hstart : w₀.Started) : w.Sound :=
  Trace.Run.invariant (P := fun _ w => w.Sound) hrun hstart.sound
    (fun _ _ _ _ _ h hstep => hstep.sound h)

/-- The connection that began last at an address is registered and open. -/
theorem Net.Run.registered_of_last (hstart : w₀.Started) {pre post : List NetEvent}
    (hrun : Net.Run D w₀ (pre ++ .connect i c :: post) w)
    (hquiet : ∀ ev ∈ post, ¬ ev.Touches c.peerAddr) :
    w.registry.clientSenders.lookup c.peerAddr = some (c.sender i) ∧
      w.accepted[i]? = some c ∧ i ∉ w.closed := by
  obtain ⟨w₁, w₂, hpre, hstep, hpost⟩ := Trace.Run.at hrun rfl
  refine Trace.Run.invariant_while (P := fun w =>
    w.registry.clientSenders.lookup c.peerAddr = some (c.sender i) ∧
      w.accepted[i]? = some c ∧ i ∉ w.closed) hpost hquiet ?_ ?_
  · cases hstep with
    | connect =>
        refine ⟨AList.lookup_insert _, by simp, fun hmem => ?_⟩
        exact absurd ((Net.Run.sound hpre hstart).closed _ hmem) (lt_irrefl _)
  · rintro tr w₃ ev w₄ - hev ⟨hsender, hc, hopen⟩ hstep
    exact ⟨(hstep.clientSenders_of_not_touches hev).trans hsender,
      hstep.open_of_not_touches hc hopen hev⟩

/-! ## Where the packets go -/

/-- Whatever the datagram, the packet is for the client of the allocation. -/
theorem Net.handedTo_eq {a : Allocation} {task : RelayTask} (htask : a.task = some task)
    (w : Net) (env : Env) (peer : SocketAddr) (payload : Bytes) :
    w.handedTo task env peer payload = w.registry.sendToClient a.clientAddr := by
  obtain ⟨relay, -, rfl⟩ := Option.map_eq_some_iff.1 htask
  unfold Net.handedTo RelayTask.receive RelayTask.packetFor
  rw [Option.bind_some]
  split <;> rfl

/-- After any run of the listeners, the packets of an allocation that was made over a connection
    keep to that connection exactly if no connection with its peer address, itself included, has
    begun or ended since the connection began. -/
theorem relayed_keepsTo_iff {k : SocketAddr} {a : Allocation} {task : RelayTask}
    (hstart : w₀.Started) (hrun : Net.Run D w₀ history w)
    (ha : w.world.server.allocationTable.allocations.lookup k = some a)
    (htask : a.task = some task) (horigin : w.origins k = some (.connection i)) :
    w.KeepsTo task i ↔ ∃ c pre post, history = pre ++ .connect i c :: post ∧
      ∀ ev ∈ post, ¬ ev.Touches c.peerAddr := by
  have hsound := hrun.sound hstart
  unfold Net.KeepsTo
  simp only [Net.handedTo_eq htask]
  constructor
  · intro hkeeps
    cases hlookup : w.registry.clientSenders.lookup a.clientAddr with
    | some sender =>
        have hsend : w.registry.sendToClient a.clientAddr = some sender := by
          unfold ClientTransportRegistry.sendToClient
          rw [hlookup]
        obtain ⟨-, c, -, rfl⟩ := hkeeps (sampleEnv 0) k [] sender hsend
        obtain ⟨j, c', pre, post, hhistory, hpeer, hsender, hquiet⟩ :=
          hrun.registered hstart hlookup
        obtain rfl := Connection.sender_inj hsender
        refine ⟨c', pre, post, hhistory, ?_⟩
        rw [hpeer]
        exact hquiet
    | none =>
        -- the default sender belongs to no connection
        obtain ⟨sender, hdefault⟩ := Option.ne_none_iff_exists'.1 (hsound.default k a ha)
        have hsend : w.registry.sendToClient a.clientAddr = some sender := by
          unfold ClientTransportRegistry.sendToClient
          rw [hlookup]
          exact hdefault
        obtain ⟨-, c, -, rfl⟩ := hkeeps (sampleEnv 0) k [] sender hsend
        obtain ⟨socket, hsocket⟩ := hsound.udp _ hdefault
        exact absurd hsocket (c.sender_ne_udp i socket)
  · rintro ⟨c, pre, post, rfl, hquiet⟩ - - - sender hsend
    obtain ⟨hlookup, hc, hopen⟩ := Net.Run.registered_of_last hstart hrun hquiet
    obtain ⟨c', hc', hpeer⟩ := hsound.origins k a i ha horigin
    obtain rfl := Option.some.inj (hc.symm.trans hc')
    unfold ClientTransportRegistry.sendToClient at hsend
    rw [← hpeer, hlookup] at hsend
    exact ⟨hopen, c, hc, (Option.some.inj hsend).symm⟩

/-! ## A client over TCP -/

def sampleNet : Net := ⟨⟨sampleServer true none, 0⟩, none, ⟨none, ∅⟩, [], [], fun _ => none⟩

theorem sampleNet_started : sampleNet.Started :=
  ⟨sampleServer_started true none, rfl, rfl, rfl, rfl, fun _ => rfl⟩

def sampleMain : SocketAddr := .v4 ⟨10, 0, 0, 1⟩ 3478

def sampleConnection : Connection := ⟨.tcp, sampleClient⟩

def allocates : Transition :=
  .of sampleDigests (sampleEnv 1) sampleNet.world.server
    (.message (sampleRequest .allocate []) sampleClient)

/-- The client is connected. -/
def connectedNet : Net := { sampleNet with
  mainSocket := some sampleMain,
  registry := ⟨some (.udp sampleMain), (∅ : HashMap _ _).insert sampleClient (.stream 0)⟩,
  accepted := [sampleConnection] }

/-- It has allocated. -/
def netOverTcp : Net := { connectedNet with
  world := ⟨allocates.after, fromSecs 1⟩,
  registry := connectedNet.registryAfter allocates,
  origins := connectedNet.originsAfter (.connection 0) allocates }

def overTcp : List NetEvent :=
  [.listen sampleMain, .connect 0 sampleConnection, .server (.connection 0) allocates]

/-- The task of the client's allocation. -/
def taskOverTcp : RelayTask :=
  ⟨sampleClient, .v4 ⟨10, 0, 0, 1⟩ 5000, .v4 ⟨203, 0, 113, 1⟩ 5000⟩

theorem netOverTcp_run : Net.Run sampleDigests sampleNet overTcp netOverTcp := by
  have hstep : Step sampleDigests connectedNet.world allocates ⟨allocates.after, fromSecs 1⟩ :=
    Step.of_clock (by decide) _
  have hconnected : Net.Run sampleDigests sampleNet
      [.listen sampleMain, .connect 0 sampleConnection] connectedNet :=
    (Trace.Run.single (.listen sampleMain)).snoc (.connect sampleConnection)
  exact hconnected.snoc
    (.server ⟨sampleConnection, rfl, by simp [connectedNet, sampleNet], rfl⟩ hstep)

theorem netOverTcp_origin :
    netOverTcp.origins (.v4 ⟨203, 0, 113, 1⟩ 5000) = some (.connection 0) := by
  decide +kernel

theorem taskOverTcp_serves : ∃ a, netOverTcp.world.server.allocationTable.allocations.lookup
    (.v4 ⟨203, 0, 113, 1⟩ 5000) = some a ∧ a.task = some taskOverTcp := by
  have hentry : ∃ e ∈ netOverTcp.world.server.allocationTable.allocations.entries,
      e.1 = .v4 ⟨203, 0, 113, 1⟩ 5000 ∧ e.2.task = some taskOverTcp := by decide +kernel
  obtain ⟨⟨k, a⟩, he, rfl, htask⟩ := hentry
  exact ⟨a, HashMap.lookup_eq_some.2 he, htask⟩

/-- As long as it stays connected, its packets keep to the connection. -/
theorem relayed_keepsTo_iff_connected : netOverTcp.KeepsTo taskOverTcp 0 := by
  obtain ⟨a, ha, htask⟩ := taskOverTcp_serves
  refine (relayed_keepsTo_iff sampleNet_started netOverTcp_run ha htask
    netOverTcp_origin).2 ⟨sampleConnection, [.listen sampleMain], _, rfl, ?_⟩
  intro ev hev
  obtain rfl := List.mem_singleton.1 hev
  exact id

/-- Once it has disconnected, its packets go out of the main UDP socket. -/
theorem disconnected_served_over_udp :
    ∃ history w, Net.Run sampleDigests sampleNet history w ∧
      w.origins (.v4 ⟨203, 0, 113, 1⟩ 5000) = some (.connection 0) ∧ 0 ∈ w.closed ∧
      (∃ a, w.world.server.allocationTable.allocations.lookup (.v4 ⟨203, 0, 113, 1⟩ 5000) = some a ∧
        a.task = some taskOverTcp) ∧
      w.handedTo taskOverTcp (sampleEnv 2) sampleMain [7] = some (.udp sampleMain) := by
  have hrun := netOverTcp_run.snoc (Net.Step.disconnect (i := 0) (c := sampleConnection) rfl
    (by simp [netOverTcp, connectedNet, sampleNet]))
  exact ⟨_, _, hrun, netOverTcp_origin, List.mem_cons_self .., taskOverTcp_serves,
    by decide +kernel⟩

end Miuturn
