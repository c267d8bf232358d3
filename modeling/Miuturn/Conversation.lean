import Miuturn.Login
import Miuturn.Persistence
import Miuturn.Traffic
import Miuturn.TurnCliCodec

set_option autoImplicit false

/-! # Clients in conversation with the server

The partner of the dialogues of `turn_cli.py`: the server of `System.lean`, its relay sockets, and a
network that loses nothing. A datagram of a client is taken by `handle_udp_message`, and its answer
waits at the client's socket. A packet for the relayed address of an allocation arrives at the task
of that allocation, from the address its socket is bound to or from the public address in its place.

Before each of these steps any number of other things may happen: requests and ChannelData of other
clients, datagrams of peers for other clients, and the cleanups. Only the users and the access rules
stay as they are. -/

open RustStd

namespace Miuturn

variable {D : Digests} {env : Env} {server : TurnServer} {msg : Message} {client k : SocketAddr}
  {a : Allocation} {o : Outcome} {e : Transition} {w w' w'' : World}

/-! ## The addresses of the relay -/

/-- The addresses relay sockets are bound to and shown as. -/
def AllocationTable.addrs (t : AllocationTable) : Ipv4Addr × Ipv4Addr :=
  (t.bindAddr, t.externalAddr)

theorem removeAllocation_addrs (t : AllocationTable) (ct : ChannelTable) (addr : SocketAddr) :
    (t.removeAllocation ct addr).1.1.addrs = t.addrs := by
  cases ha : t.allocations.lookup addr with
  | none => rw [removeAllocation_of_none ha]
  | some a =>
      rw [removeAllocation_of_some ha]
      rfl

theorem removeExisting_addrs (server : TurnServer) (client : SocketAddr) :
    (removeExisting server client).1.allocationTable.addrs = server.allocationTable.addrs := by
  rcases removeExisting_cases server client with ⟨-, heq⟩ | ⟨entry, -, heq⟩
  · rw [heq]
  · rw [heq]
    exact removeAllocation_addrs _ _ _

theorem Effect.addrs (he : Effect D env server msg client o) :
    o.server.allocationTable.addrs = server.allocationTable.addrs := by
  cases he with
  | inert _ => rfl
  | challenge reason _ => rfl
  | allocateFailed _ _ _ _ => exact removeExisting_addrs server client
  | allocated _ _ _ _ _ => exact removeExisting_addrs server client
  | deleted _ _ _ _ => exact removeAllocation_addrs _ _ _
  | refreshed _ _ _ _ htable _ =>
      rw [refreshAllocation_eq_ok htable]
      rfl
  | permitted _ _ hentry _ =>
      simp only [AllocationTable.addPermissions, hentry]
      rfl
  | bound _ _ _ _ _ _ _ _ => rfl
  | relayed peer data _ =>
      rcases sendToPeer_cases server.allocationTable env.sendOk client peer data with
        heq | ⟨entry, relay, -, -, heq⟩
      · rw [heq]
      · rw [heq]
        rfl

theorem Step.addrs (hstep : Step D w e w') :
    w'.server.allocationTable.addrs = w.server.allocationTable.addrs := by
  have hbefore : e.before.allocationTable.addrs = w.server.allocationTable.addrs := by
    obtain ⟨allocations, channels, -, -, heq⟩ := hstep.rehashed
    rw [heq]
    rfl
  rw [hstep.next, ← hbefore, hstep.after_eq]
  cases e.event with
  | message msg client => exact (react_message D e.env e.before msg client).addrs
  | channelData data client =>
      obtain ⟨sent, heq, -⟩ := react_channelData D e.env e.before data client
      rw [heq]
  | cleanupAllocations =>
      exact cleanupExpired_induct (P := fun t _ => t.addrs = e.before.allocationTable.addrs)
        (fun t ct addr h => (removeAllocation_addrs t ct addr).trans h) rfl
  | cleanupChannels => rfl
  | cleanupNonces => rfl
  | changeAuth change => rfl

/-! ## What is kept while others act -/

/-- A nonce that was made at `t` or later. -/
def IssuedSince (server : TurnServer) (nonce : String) (t : ℕ) : Prop :=
  ∃ entry, server.nonceMap.lookup nonce = some entry ∧ t ≤ entry.createdAt

/-- From `w` to `w'` nobody touches what the clients in `P` have: the settings are the same, nonces
    live for 600 seconds and allocations as long as they were granted. -/
structure Unmoved (P : SocketAddr → Prop) (w w' : World) : Prop where
  clock : w.clock ≤ w'.clock
  consistent : w'.server.Consistent
  settings : w'.server.settings = w.server.settings
  addrs : w'.server.allocationTable.addrs = w.server.allocationTable.addrs
  limits : w'.server.allocationTable.limits = w.server.allocationTable.limits
  nonces : ∀ nonce t, t ≤ w.clock → IssuedSince w.server nonce t →
    w'.clock < t + fromSecs 600 → IssuedSince w'.server nonce t
  allocations : ∀ k a, P a.clientAddr → w.server.allocationTable.allocations.lookup k = some a →
    w'.clock ≤ a.createdAt + a.lifetime → KeptAt k a w'.clock w.server w'.server

variable {P Q : SocketAddr → Prop}

theorem Unmoved.refl (hc : w.server.Consistent) : Unmoved P w w where
  clock := le_rfl
  consistent := hc
  settings := rfl
  addrs := rfl
  limits := rfl
  nonces := fun _ _ _ h _ => h
  allocations := fun k _ _ ha _ => (SameAt.refl k w.server).keptAt ha

theorem Unmoved.mono (h : Unmoved P w w') (himp : ∀ c, Q c → P c) : Unmoved Q w w' :=
  { h with allocations := fun k a hQ => h.allocations k a (himp _ hQ) }

theorem Unmoved.trans (h : Unmoved P w w') (h' : Unmoved P w' w'') : Unmoved P w w'' where
  clock := h.clock.trans h'.clock
  consistent := h'.consistent
  settings := h'.settings.trans h.settings
  addrs := h'.addrs.trans h.addrs
  limits := h'.limits.trans h.limits
  nonces := by
    intro nonce t ht hissued hearly
    exact h'.nonces nonce t (ht.trans h.clock)
      (h.nonces nonce t ht hissued (lt_of_le_of_lt h'.clock hearly)) hearly
  allocations := by
    intro k a hP ha halive
    have hkept := h.allocations k a hP ha (h'.clock.trans halive)
    exact hkept.trans h'.clock (h'.allocations k a hP hkept.allocation halive)

/-- A step that does not change who may log in moves nothing but what the sender of its message
    has. -/
theorem Step.unmoved (hstep : Step D w e w') (hc : w.server.Consistent)
    (hauth : ∀ change, e.event ≠ .changeAuth change) :
    Unmoved (fun c => ∀ msg, e.event ≠ .message msg c) w w' where
  clock := by
    rw [hstep.next]
    exact hstep.clock
  consistent := (hstep.after_consistent hc).2
  settings := by rw [hstep.settings, authChanges_of_quiet hauth, Settings.changed_nil]
  addrs := hstep.addrs
  limits := hstep.limits.2
  nonces := by
    rintro nonce t ht ⟨entry, hentry, hcreated⟩ hearly
    rw [← hstep.rehashed.nonceMap] at hentry
    rw [hstep.next] at hearly ⊢
    exact hstep.nonce_kept hentry hcreated (ht.trans hstep.clock) hearly
  allocations := fun k a hother ha halive => hstep.keptAt hc ha hother halive

/-- Rearranging the maps and reading the clock moves nothing. -/
theorem rehashed_unmoved {now : ℕ}
    (h : Rehashed w.server server) (hclock : w.clock ≤ now) (hc : w.server.Consistent) :
    Unmoved P w ⟨server, now⟩ where
  clock := hclock
  consistent := h.consistent hc
  settings := h.settings
  addrs := by
    obtain ⟨allocations, channels, -, -, rfl⟩ := h
    rfl
  limits := by
    obtain ⟨allocations, channels, -, -, rfl⟩ := h
    rfl
  nonces := by
    rintro nonce t - ⟨entry, hentry, hcreated⟩ -
    rw [← h.nonceMap] at hentry
    exact ⟨entry, hentry, hcreated⟩
  allocations := fun k _ _ ha _ => SameAt.keptAt ⟨h.lookup_allocations k, h.getByChannel k⟩ ha

/-- The datagram of a peer only counts. -/
theorem receive_unmoved (task : RelayTask) (env : Env) (peer : SocketAddr) (payload : Bytes)
    (hc : w.server.Consistent) :
    Unmoved P w { w with server := w.server.withTable (task.receive env w.server.allocationTable
      w.server.channelTable peer payload).1 } where
  clock := le_rfl
  consistent := ⟨hc.bits, hc.key, hc.active, hc.count, hc.trackers, hc.clients, hc.bindings⟩
  settings := rfl
  addrs := rfl
  limits := rfl
  nonces := fun _ _ _ h _ => h
  allocations := fun _ _ _ ha _ => ⟨ha, fun _ _ hb => hb, fun _ _ hb _ => hb⟩

namespace TurnCli

/-- What others do, as `socks` are the sockets of the clients. -/
def Foreign (socks : List SocketAddr) : Activity → Prop
  | .server e =>
    (∀ change, e.event ≠ .changeAuth change) ∧ ∀ sock ∈ socks, e.event.client ≠ some sock
  | .datagram task _ _ _ _ => task.clientAddr ∉ socks

/-- Time passes, and others act. -/
def Passes (D : Digests) (socks : List SocketAddr) (w w' : World) : Prop :=
  ∃ history, Activity.Run D w history w' ∧ ∀ x ∈ history, Foreign socks x

variable {socks : List SocketAddr}

theorem Passes.unmoved (h : Passes D socks w w') (hc : w.server.Consistent) :
    Unmoved (· ∈ socks) w w' := by
  obtain ⟨history, hrun, hforeign⟩ := h
  refine Trace.Run.invariant_while (P := fun w' => Unmoved (· ∈ socks) w w') hrun hforeign
    (.refl hc) ?_
  intro _ w₁ x w₂ _ hforeign ih hstep
  refine ih.trans ?_
  cases hstep with
  | @server e _ hstep =>
      refine (hstep.unmoved ih.consistent hforeign.1).mono (fun c hc msg hevent => ?_)
      exact hforeign.2 c hc (by rw [hevent]; rfl)
  | @datagram _ _ task env peer payload _ _ _ => exact receive_unmoved _ _ _ _ ih.consistent

/-! ## The network -/

/-- The server, and the datagrams that wait at the sockets of the clients. -/
structure Stage where
  world : World
  mail : SocketAddr → List Bytes

/-- What the server does with a datagram; a panic ends the task that handles it. -/
def serve (D : Digests) (env : Env) (server : TurnServer) (data : Bytes) (client : SocketAddr) :
    Outcome :=
  match handleUdpMessage D env server data client with
  | .ok o => o
  | .error _ => .unchanged server none

/-- The task that a packet for a relayed address of the server arrives at. -/
def taskAt (server : TurnServer) (addr : SocketAddr) : Option RelayTask :=
  (server.allocationTable.allocations.lookup addr).bind Allocation.task

/-- How the address a packet was sent from may look at its destination. -/
def ShownAs (t : AllocationTable) (packet : Packet) (source : SocketAddr) : Prop :=
  source = packet.socket ∨ source = .v4 t.externalAddr packet.socket.port

/-- A packet that was sent from a relay socket, if there is one: where it arrives at the task of an
    allocation, and what the task then sends to its client. Others leave the server. -/
inductive Travels (D : Digests) (socks : List SocketAddr) (w : World) :
    Option Packet → World → Option ClientPacket → Prop where
  | nothing : Travels D socks w none w none
  | leaves {packet : Packet} (htask : taskAt w.server packet.peer = none) :
      Travels D socks w (some packet) w none
  | arrives {packet : Packet} {w₁ : World} {task : RelayTask} {source : SocketAddr} {env : Env}
      (hpasses : Passes D socks w w₁) (htask : taskAt w₁.server packet.peer = some task)
      (hsource : ShownAs w₁.server.allocationTable packet source) :
      Travels D socks w (some packet)
        { w₁ with server := w₁.server.withTable (task.receive env w₁.server.allocationTable
          w₁.server.channelTable source packet.payload).1 }
        (some (task.packetFor env.systemTime w₁.server.channelTable source packet.payload))

/-- Datagrams that come to a socket. -/
def post (mail : SocketAddr → List Bytes) (sock : SocketAddr) (datagrams : List Bytes) :
    SocketAddr → List Bytes :=
  Function.update mail sock (mail sock ++ datagrams)

/-- The packet of a task comes to the socket of its client. -/
def postPacket (mail : SocketAddr → List Bytes) (packet : Option ClientPacket) :
    SocketAddr → List Bytes :=
  match packet with
  | some packet => post mail packet.client [packet.data]
  | none => mail

/-- The texts of failed binds are short. -/
def ShortErrors (env : Env) : Prop :=
  ∀ i source addr, env.bindResult i = .error source →
    (strBytes (Error.relayBindFailed addr source).toString).length ≤ 2000

/-- How the calls of the clients are answered. -/
inductive Answers (D : Digests) (socks : List SocketAddr) (st : Stage) :
    Call → Option Bytes → Stage → Prop where
  | sendTo {sock : SocketAddr} {msg : Bytes} {w w' : World} {server : TurnServer}
      {env : Env} {packet : Option ClientPacket} (hpasses : Passes D socks st.world w)
      (hrehashed : Rehashed w.server server) (hclock : w.clock ≤ env.now)
      (hsend : env.sendOk = true) (hshort : ShortErrors env)
      (htravels : Travels D socks ⟨(serve D env server msg sock).server, env.now⟩
        (serve D env server msg sock).sent w' packet) :
      Answers D socks st (.sendTo sock msg) none
        ⟨w', postPacket (post st.mail sock (serve D env server msg sock).response.toList) packet⟩
  | recvFrom {sock : SocketAddr} {datagram : Bytes} {rest : List Bytes}
      (hmail : st.mail sock = datagram :: rest) :
      Answers D socks st (.recvFrom sock) (some datagram)
        ⟨st.world, Function.update st.mail sock rest⟩
  | timeout {sock : SocketAddr} (hmail : st.mail sock = []) :
      Answers D socks st (.recvFrom sock) none st

open Dialogue

/-! ## Holding a conversation

With nobody else about and the clock at one instant, every conversation can be held. -/

/-- Where a packet goes when nothing happens in between. -/
def travel (env : Env) (w : World) : Option Packet → World × Option ClientPacket
  | none => (w, none)
  | some packet =>
    match taskAt w.server packet.peer with
    | none => (w, none)
    | some task =>
      ({ w with server := w.server.withTable (task.receive env w.server.allocationTable
          w.server.channelTable packet.socket packet.payload).1 },
        some (task.packetFor env.systemTime w.server.channelTable packet.socket packet.payload))

def converse {α : Type} (D : Digests) (env : Env) : Talk α → Stage → Except Failure α × Stage
  | .done r, st => (r, st)
  | .call (.sendTo sock msg) next, st =>
    let o := serve D env st.world.server msg sock
    let arrived := travel env ⟨o.server, env.now⟩ o.sent
    converse D env (next none)
      ⟨arrived.1, postPacket (post st.mail sock o.response.toList) arrived.2⟩
  | .call (.recvFrom sock) next, st =>
    match st.mail sock with
    | [] => converse D env (next none) st
    | datagram :: rest =>
      converse D env (next (some datagram)) ⟨st.world, Function.update st.mail sock rest⟩

theorem Passes.refl (w : World) : Passes D socks w w :=
  ⟨[], .nil, fun _ hx => absurd hx (by simp)⟩

theorem travel_travels (D : Digests) (socks : List SocketAddr) (env : Env) (w : World)
    (sent : Option Packet) :
    Travels D socks w sent (travel env w sent).1 (travel env w sent).2 ∧
      (travel env w sent).1.clock = w.clock := by
  cases sent with
  | none => exact ⟨.nothing, rfl⟩
  | some packet =>
      rw [travel]
      cases htask : taskAt w.server packet.peer with
      | none => exact ⟨.leaves htask, rfl⟩
      | some task => exact ⟨.arrives (.refl w) htask (Or.inl rfl), rfl⟩

theorem converse_runs {α : Type} {env : Env} (hsend : env.sendOk = true) (hshort : ShortErrors env)
    (D : Digests) (socks : List SocketAddr) (d : Talk α) : ∀ st : Stage, st.world.clock ≤ env.now →
      Runs (Answers D socks) d st (converse D env d st).1 (converse D env d st).2 ∧
        (converse D env d st).2.world.clock ≤ env.now := by
  induction d with
  | done r => exact fun st hclock => ⟨.done, hclock⟩
  | call message next ih =>
      intro st hclock
      cases message with
      | sendTo sock msg =>
          have htravels := travel_travels D socks env
            ⟨(serve D env st.world.server msg sock).server, env.now⟩
            (serve D env st.world.server msg sock).sent
          obtain ⟨hruns, hend⟩ := ih none ⟨_, postPacket (post st.mail sock
            (serve D env st.world.server msg sock).response.toList) _⟩ htravels.2.le
          exact ⟨.call (.sendTo (.refl _) (.refl _) hclock hsend hshort htravels.1) hruns, hend⟩
      | recvFrom sock =>
          rw [converse]
          cases hmail : st.mail sock with
          | nil =>
              obtain ⟨hruns, hend⟩ := ih none st hclock
              exact ⟨.call (.timeout hmail) hruns, hend⟩
          | cons datagram rest =>
              obtain ⟨hruns, hend⟩ := ih (some datagram)
                ⟨st.world, Function.update st.mail sock rest⟩ hclock
              exact ⟨.call (.recvFrom hmail) hruns, hend⟩

/-! ## Calls -/

variable {st st' : Stage} {msg : Bytes} {m : Message} {self : Client} {tid : TransactionId}
  {rounds : ℕ} {sock : SocketAddr}

theorem post_self (mail : SocketAddr → List Bytes) (sock : SocketAddr) (datagrams : List Bytes) :
    post mail sock datagrams sock = mail sock ++ datagrams :=
  Function.update_self ..

theorem serve_of_reads (hreads : UdpReads msg m) (D : Digests) (env : Env) (server : TurnServer)
    (sock : SocketAddr) : serve D env server msg sock = react D env server (.message m sock) := by
  rw [serve, handleUdpMessage_of_reads hreads]
  rfl

/-- Whatever the datagram is, the server does a step of its own or nothing. -/
theorem serve_cases (D : Digests) (env : Env) (server : TurnServer) (data : Bytes)
    (client : SocketAddr) :
    (∃ event, (∀ change, event ≠ .changeAuth change) ∧
      serve D env server data client = react D env server event) ∨
    serve D env server data client = .unchanged server none := by
  unfold serve
  rcases handleUdpMessage_cases D env server data client with
    ⟨heq, -⟩ | ⟨msg, -, heq⟩ | ⟨heq, -⟩
  · rw [heq]
    exact Or.inl ⟨.channelData data client, by simp, rfl⟩
  · rw [heq]
    exact Or.inl ⟨.message msg client, by simp, rfl⟩
  · rw [heq]
    exact Or.inr rfl

theorem serve_unmoved (D : Digests) (env : Env) (data : Bytes) (client : SocketAddr)
    (hc : server.Consistent) :
    Unmoved (fun _ => False) ⟨server, env.now⟩ ⟨(serve D env server data client).server,
      env.now⟩ := by
  rcases serve_cases D env server data client with ⟨event, hauth, heq⟩ | heq
  · rw [heq]
    let e : Transition := ⟨env, event, server, (react D env server event).1,
      (react D env server event).2, (react D env server event).3, (react D env server event).4⟩
    have hstep : Step D ⟨server, env.now⟩ e ⟨(react D env server event).server, env.now⟩ :=
      ⟨.refl _, le_rfl, rfl, rfl⟩
    exact (hstep.unmoved hc hauth).mono (fun _ h => h.elim)
  · rw [heq]
    exact .refl hc

theorem Travels.unmoved {sent : Option Packet} {packet : Option ClientPacket}
    (h : Travels D socks w sent w' packet) (hc : w.server.Consistent) :
    Unmoved (fun _ => False) w w' := by
  cases h with
  | nothing => exact .refl hc
  | leaves _ => exact .refl hc
  | @arrives _ w₁ task source env hpasses _ _ =>
      have hunmoved := hpasses.unmoved hc
      exact (hunmoved.mono (fun _ h => h.elim)).trans
        (receive_unmoved task env source _ hunmoved.consistent)

theorem Answers.unmoved {call : Call} {answer : Option Bytes}
    (h : Answers D socks st call answer st') (hc : st.world.server.Consistent) :
    Unmoved (fun _ => False) st.world st'.world := by
  cases h with
  | @sendTo sock msg w w' server env packet hpasses hrehashed hclock _ _ htravels =>
      have h₁ := hpasses.unmoved hc
      have h₂ := rehashed_unmoved (P := fun _ => False) hrehashed hclock h₁.consistent
      have h₃ := serve_unmoved D env msg sock h₂.consistent
      exact (((h₁.mono (fun _ h => h.elim)).trans h₂).trans h₃).trans
        (htravels.unmoved h₃.consistent)
  | recvFrom _ => exact .refl hc
  | timeout _ => exact .refl hc

/-- A conversation does not change the settings, and time does not go back in it. -/
theorem runs_unmoved {α : Type} {d : Talk α} {r : Except Failure α}
    (h : Runs (Answers D socks) d st r st') (hc : st.world.server.Consistent) :
    Unmoved (fun _ => False) st.world st'.world := by
  refine h.invariant (P := fun st' => Unmoved (fun _ => False) st.world st'.world) (.refl hc) ?_
  intro st₁ call answer st₂ hanswer hunmoved
  exact hunmoved.trans (hanswer.unmoved hunmoved.consistent)

/-- A datagram that is read as a message makes a step of the server, after others have acted. -/
structure Handled (D : Digests) (socks : List SocketAddr) (w : World) (sock : SocketAddr)
    (m : Message) (e : Transition) (w' : World) : Prop where
  exists_passes : ∃ w₁, Passes D socks w w₁ ∧ Step D w₁ e w'
  event : e.event = .message m sock
  sendOk : e.env.sendOk = true
  short : ShortErrors e.env

theorem answers_sendTo {answer : Option Bytes} (hreads : UdpReads msg m)
    (h : Answers D socks st (.sendTo sock msg) answer st') :
    ∃ e w packet, Handled D socks st.world sock m e w ∧ Travels D socks w e.sent st'.world packet ∧
      st'.mail = postPacket (post st.mail sock e.response.toList) packet := by
  cases h with
  | @sendTo _ _ w w' server env packet hpasses hrehashed hclock hsend hshort htravels =>
      rw [serve_of_reads hreads] at htravels ⊢
      let e : Transition := ⟨env, .message m sock, server, (react D env server (.message m sock)).1,
        (react D env server (.message m sock)).2, (react D env server (.message m sock)).3,
        (react D env server (.message m sock)).4⟩
      exact ⟨e, _, packet, ⟨⟨w, hpasses, hrehashed, hclock, rfl, rfl⟩, rfl, hsend, hshort⟩,
        htravels, rfl⟩

/-- Only a Send sends a packet. -/
theorem Handled.sent_eq_none {e : Transition} (h : Handled D socks w sock m e w')
    (hmethod : m.header.method ≠ .send) : e.sent = none := by
  obtain ⟨w₁, -, hstep⟩ := h.exists_passes
  have heffect := hstep.effect h.event
  generalize e.after = after, e.response = response, e.sent = sent, e.removed = removed at heffect ⊢
  cases heffect with
  | inert _ => rfl
  | challenge _ _ => rfl
  | allocateFailed _ _ _ _ => rfl
  | allocated _ _ _ _ _ => rfl
  | deleted _ _ _ _ => rfl
  | refreshed _ _ _ _ _ _ => rfl
  | permitted _ _ _ _ => rfl
  | bound _ _ _ _ _ _ _ _ => rfl
  | relayed _ _ hsend => exact absurd hsend hmethod

/-- The loop stops at the first datagram that gives something. -/
theorem runs_recvUntil {β : Type} {read : Bytes → Option β} {b : β} {datagram : Bytes}
    {rest : List Bytes} {r : Except Failure (Option β)} (pre : List Bytes) :
    ∀ {rounds : ℕ} {st : Stage}, Runs (Answers D socks) (recvUntil sock read rounds) st r st' →
      st.mail sock = pre ++ datagram :: rest → (∀ d ∈ pre, read (received d) = none) →
      read (received datagram) = some b → pre.length < rounds →
      r = .ok (some b) ∧ st' = ⟨st.world, Function.update st.mail sock rest⟩ := by
  induction pre with
  | nil =>
      intro rounds st hrun hmail _ hread hrounds
      obtain ⟨rounds, rfl⟩ : ∃ n, rounds = n + 1 := ⟨rounds - 1, by simp at hrounds; omega⟩
      obtain ⟨answer, st₁, hanswer, hrest⟩ := runs_call_iff.1 hrun
      cases hanswer with
      | timeout hempty => exact absurd (hempty.symm.trans hmail) (by simp)
      | recvFrom hfirst =>
          obtain ⟨rfl, rfl⟩ := List.cons.inj (hfirst.symm.trans hmail)
          simp only [hread] at hrest
          exact runs_pure_iff.1 hrest
  | cons d pre ih =>
      intro rounds st hrun hmail hpre hread hrounds
      obtain ⟨rounds, rfl⟩ : ∃ n, rounds = n + 1 := ⟨rounds - 1, by simp at hrounds; omega⟩
      obtain ⟨answer, st₁, hanswer, hrest⟩ := runs_call_iff.1 hrun
      cases hanswer with
      | timeout hempty => exact absurd (hempty.symm.trans hmail) (by simp)
      | recvFrom hfirst =>
          obtain ⟨rfl, rfl⟩ := List.cons.inj (hfirst.symm.trans hmail)
          simp only [hpre _ (List.mem_cons_self ..)] at hrest
          obtain ⟨hr, hst⟩ := ih hrest (Function.update_self ..)
            (fun d hd => hpre d (List.mem_cons_of_mem _ hd)) hread
            (by simp at hrounds; omega)
          exact ⟨hr, by rw [hst, Function.update_idem]⟩

/-- If none of them gives anything, the client times out, and has read them all. -/
theorem runs_recvUntil_none {β : Type} {read : Bytes → Option β} {r : Except Failure (Option β)}
    {pre : List Bytes} :
    ∀ {rounds : ℕ} {st : Stage}, Runs (Answers D socks) (recvUntil sock read rounds) st r st' →
      st.mail sock = pre → (∀ d ∈ pre, read (received d) = none) → pre.length < rounds →
      r = .ok none ∧ st' = ⟨st.world, Function.update st.mail sock []⟩ := by
  induction pre with
  | nil =>
      intro rounds st hrun hmail _ hrounds
      obtain ⟨rounds, rfl⟩ : ∃ n, rounds = n + 1 := ⟨rounds - 1, by simp at hrounds; omega⟩
      obtain ⟨answer, st₁, hanswer, hrest⟩ := runs_call_iff.1 hrun
      cases hanswer with
      | timeout _ =>
          obtain ⟨hr, rfl⟩ := runs_pure_iff.1 hrest
          refine ⟨hr, ?_⟩
          rw [← hmail, Function.update_eq_self]
      | recvFrom hfirst => exact absurd (hfirst.symm.trans hmail) (by simp)
  | cons d pre ih =>
      intro rounds st hrun hmail hpre hrounds
      obtain ⟨rounds, rfl⟩ : ∃ n, rounds = n + 1 := ⟨rounds - 1, by simp at hrounds; omega⟩
      obtain ⟨answer, st₁, hanswer, hrest⟩ := runs_call_iff.1 hrun
      cases hanswer with
      | timeout hempty => exact absurd (hempty.symm.trans hmail) (by simp)
      | recvFrom hfirst =>
          obtain ⟨rfl, rfl⟩ := List.cons.inj (hfirst.symm.trans hmail)
          simp only [hpre _ (List.mem_cons_self ..)] at hrest
          obtain ⟨hr, hst⟩ := ih hrest (Function.update_self ..)
            (fun d hd => hpre d (List.mem_cons_of_mem _ hd)) (by simp at hrounds; omega)
          exact ⟨hr, by rw [hst, Function.update_idem]⟩

/-- A header with the magic cookie is all that an answer is known by. -/
theorem isAnswer_header (h : MessageHeader) (body : Bytes) (hcookie : h.magicCookie = magicCookie) :
    isAnswer h.transactionId (received (h.encode ++ body)) = true := by
  have hlen : 20 ≤ (received (h.encode ++ body)).length := by
    rw [received, List.length_take, List.length_append, MessageHeader.encode_length]
    omega
  have hhead : (received (h.encode ++ body)).take 20 = h.encode := by
    rw [take_received]
    exact List.take_left' (MessageHeader.encode_length h)
  have hword : ((received (h.encode ++ body)).drop 4).take 4 = putU32 stunMagicCookie := by
    have hdrop : (h.encode.drop 4).take 4 = putU32 stunMagicCookie := by
      rw [MessageHeader.encode, hcookie]
      rfl
    rw [← hdrop, ← hhead, List.take_drop, List.take_drop, List.take_take]
    rfl
  have htid : ((received (h.encode ++ body)).drop 8).take 12 = h.transactionId.val := by
    rw [List.take_drop, hhead, MessageHeader.encode]
    exact List.drop_left' rfl
  simp [isAnswer, hlen, hword, htid]

/-- Every answer of the server carries the transaction id of the message it answers. -/
theorem Handled.isAnswer {e : Transition} {b : Bytes} (h : Handled D socks w sock m e w')
    (hresponse : e.response = some b) :
    isAnswer m.header.transactionId (received b) = true := by
  obtain ⟨w₁, -, hstep⟩ := h.exists_passes
  have hok := hstep.ok_of_response h.event hresponse
  rcases processMessage_reply hok hresponse with ⟨-, rfl⟩ | ⟨u, response, rfl, hreply, -⟩
  · have hheader := isAnswer_header ⟨.binding, .success, 12, magicCookie, m.header.transactionId⟩
    unfold createBindingResponseFast
    rw [List.append_assoc, List.append_assoc]
    exact hheader _ rfl
  · have hanswer := isAnswer_received response
    rcases hreply.header with heq | heq <;> rw [heq] at hanswer <;> exact hanswer

/-- Nothing waits at the socket that could be taken for the answer, and there is time to read past
    all of it. -/
structure Expects (st : Stage) (sock : SocketAddr) (tid : TransactionId) (rounds : ℕ) : Prop where
  stale : ∀ d ∈ st.mail sock, isAnswer tid (received d) = false
  time : (st.mail sock).length < rounds

/-- `_send_recv` of a request returns the server's answer, past whatever waits at the socket, and
    runs into the timeout if there is none. -/
theorem runs_sendRecv {r : Except Failure Bytes}
    (hrun : Runs (Answers D socks) (sendRecv rounds self msg tid) st r st')
    (hreads : UdpReads msg m) (htid : m.header.transactionId = tid)
    (hmethod : m.header.method ≠ .send) (hexpects : Expects st self.sock tid rounds) :
    ∃ e, Handled D socks st.world self.sock m e st'.world ∧
      st'.mail = Function.update st.mail self.sock [] ∧
      (∀ b, e.response = some b → r = .ok (received b)) ∧
      (e.response = none → r = .error .timeoutError) := by
  obtain ⟨_, st₁, hanswer, hrest⟩ := runs_call_iff.1 hrun
  obtain ⟨e, w, packet, hhandled, htravels, hmail⟩ := answers_sendTo hreads hanswer
  rw [hhandled.sent_eq_none hmethod] at htravels
  cases htravels
  have hwaits : st₁.mail self.sock = st.mail self.sock ++ e.response.toList := by
    rw [hmail]
    exact post_self ..
  have hempty : Function.update st₁.mail self.sock [] = Function.update st.mail self.sock [] := by
    rw [hmail]
    exact Function.update_idem ..
  have hstale : ∀ d ∈ st.mail self.sock, (if isAnswer tid (received d) = true
      then some (received d) else none) = none := by
    intro d hd
    rw [if_neg (by rw [hexpects.stale d hd]; simp)]
  refine ⟨e, ?_⟩
  -- what the loop finds
  have hloop : ∀ found st₂, Runs (Answers D socks) (recvUntil self.sock (fun data =>
      if isAnswer tid data = true then some data else none) rounds) st₁ found st₂ →
      found = .ok (e.response.map received) ∧
        st₂ = ⟨st₁.world, Function.update st.mail self.sock []⟩ := by
    intro found st₂ hloop
    rw [← hempty]
    cases hresponse : e.response with
    | none =>
        rw [hresponse, Option.toList_none, List.append_nil] at hwaits
        exact runs_recvUntil_none hloop hwaits hstale hexpects.time
    | some b =>
        rw [hresponse, Option.toList_some] at hwaits
        have hanswer := hhandled.isAnswer hresponse
        rw [htid] at hanswer
        exact runs_recvUntil _ hloop hwaits hstale (if_pos hanswer) hexpects.time
  rcases runs_bind_iff.1 hrest with ⟨found, st₂, hfound, hmatch⟩ | ⟨f, -, hfailed⟩
  · obtain ⟨hresult, rfl⟩ := hloop _ _ hfound
    obtain rfl := Except.ok.inj hresult
    cases hresponse : e.response with
    | none =>
        rw [hresponse] at hmatch
        obtain ⟨hr, rfl⟩ := runs_done_iff.1 hmatch
        exact ⟨hhandled, rfl, fun b hb => absurd hb (by simp), fun _ => hr⟩
    | some b =>
        rw [hresponse] at hmatch
        obtain ⟨hr, rfl⟩ := runs_done_iff.1 hmatch
        refine ⟨hhandled, rfl, fun b' hb' => ?_, fun hnone => absurd hnone (by simp)⟩
        obtain rfl := Option.some.inj hb'
        exact hr
  · exact absurd (hloop _ _ hfailed).1 (by simp)

end TurnCli

end Miuturn
