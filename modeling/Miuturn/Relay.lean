import Miuturn.Origin

set_option autoImplicit false

/-! # Relaying is authorised by the sender's own requests

A permission or a channel binding is only ever entered by a request of the client whose allocation
it is for, and it goes with that allocation. `Justified` keeps this as an invariant over histories:
the allocation at hand was created by an Allocate of its client, nothing but that client's later
requests gave it its permissions and bindings, and it has been there ever since. -/

open RustStd

namespace Miuturn

/-- The allocation of client `c` at `k` was created by the step `e₀` of the history and has been
    there since: it is owned by `c` after each of the steps `post` that followed, and none of them
    replaced it. -/
structure CurrentSince (history : List Transition) (c k : SocketAddr) (pre : List Transition)
    (e₀ : Transition) (post : List Transition) : Prop where
  split : history = pre ++ e₀ :: post
  created : ∃ m, e₀.Granted .allocate c m
  owned : ∀ e ∈ e₀ :: post, ∃ a, e.after.allocationTable.allocations.lookup k = some a ∧
    a.clientAddr = c
  kept : ∀ e ∈ post, ∀ m, ¬ e.Granted .allocate c m

/-- The allocation `a` at `k`, its permissions and its bindings come from its client's requests. -/
structure Justified (history : List Transition) (server : TurnServer) (k : SocketAddr)
    (a : Allocation) (pre : List Transition) (e₀ : Transition) (post : List Transition) : Prop where
  current : CurrentSince history a.clientAddr k pre e₀ post
  permissions : ∀ ip ∈ a.permissions, ∃ e ∈ post, Permits e a.clientAddr ip
  bindings : ∀ n b, server.channelTable.getByChannel k n = some b →
    ∃ e ∈ post, Binds e a.clientAddr k n b.peerAddr

variable {D : Digests} {e : Transition} {k : SocketAddr} {a : Allocation} {msg : Message}
  {client : SocketAddr}

/-! ## Runs -/

theorem CurrentSince.snoc {history pre post : List Transition} {c : SocketAddr} {e₀ : Transition}
    (h : CurrentSince history c k pre e₀ post)
    (howned : ∃ a, e.after.allocationTable.allocations.lookup k = some a ∧ a.clientAddr = c)
    (hkept : ∀ m, ¬ e.Granted .allocate c m) :
    CurrentSince (history ++ [e]) c k pre e₀ (post ++ [e]) where
  split := by rw [h.split, List.append_assoc, List.cons_append]
  created := h.created
  owned := by
    intro e' he'
    rw [← List.cons_append, List.mem_append, List.mem_singleton] at he'
    rcases he' with he' | rfl
    · exact h.owned e' he'
    · exact howned
  kept := by
    intro e' he'
    rw [List.mem_append, List.mem_singleton] at he'
    rcases he' with he' | rfl
    · exact h.kept e' he'
    · exact hkept

/-- One step: what was justified stays so, and the rest the step justifies itself. -/
theorem Origin.justified {history : List Transition} (horigin : Origin e k a)
    (ha : e.after.allocationTable.allocations.lookup k = some a)
    (h : ∀ a', e.before.allocationTable.allocations.lookup k = some a' →
      ∃ pre e₀ post, Justified history e.before k a' pre e₀ post) :
    ∃ pre e₀ post, Justified (history ++ [e]) e.after k a pre e₀ post := by
  cases horigin with
  | kept hbefore hcontinues hold =>
      obtain ⟨hclient, -, -, hpermissions, hbindings⟩ := hcontinues
      obtain ⟨pre, e₀, post, hj⟩ := h _ hbefore
      have hcurrent := hj.current
      rw [hclient] at hcurrent
      refine ⟨pre, e₀, post ++ [e], hcurrent.snoc ⟨a, ha, rfl⟩ hold, ?_, ?_⟩
      · intro ip hip
        rcases hpermissions ip hip with hip | hpermits
        · obtain ⟨e₁, he₁, hpermits⟩ := hj.permissions ip hip
          rw [hclient] at hpermits
          exact ⟨e₁, List.mem_append_left _ he₁, hpermits⟩
        · exact ⟨e, List.mem_append_right _ (List.mem_singleton_self e), hpermits⟩
      · intro n b hb
        rcases hbindings n b hb with ⟨b', hb', hpeer⟩ | hbinds
        · obtain ⟨e₁, he₁, hbinds⟩ := hj.bindings n b' hb'
          rw [hclient, hpeer] at hbinds
          exact ⟨e₁, List.mem_append_left _ he₁, hbinds⟩
        · exact ⟨e, List.mem_append_right _ (List.mem_singleton_self e), hbinds⟩
  | created hgranted _ hpermissions hbindings =>
      refine ⟨history, e, [], ⟨rfl, ⟨_, hgranted⟩, ?_, fun e' he' => absurd he' (by simp)⟩, ?_, ?_⟩
      · intro e' he'
        obtain rfl := List.mem_singleton.1 he'
        exact ⟨a, ha, rfl⟩
      · intro ip hip
        rw [hpermissions] at hip
        exact absurd hip (Finset.notMem_empty ip)
      · intro n b hb
        rw [hbindings n] at hb
        exact absurd hb (by simp)

theorem Rehashed.justified {server server' : TurnServer} (h : Rehashed server server')
    {history : List Transition}
    (hj : ∀ k a, server.allocationTable.allocations.lookup k = some a →
      ∃ pre e₀ post, Justified history server k a pre e₀ post) :
    ∀ k a, server'.allocationTable.allocations.lookup k = some a →
      ∃ pre e₀ post, Justified history server' k a pre e₀ post := by
  intro k a ha
  rw [h.lookup_allocations] at ha
  obtain ⟨pre, e₀, post, hk⟩ := hj k a ha
  refine ⟨pre, e₀, post, hk.current, hk.permissions, fun n b hb => hk.bindings n b ?_⟩
  rw [← h.getByChannel]
  exact hb

/-- In every state reached, every allocation is justified. -/
theorem Run.justified {w₀ w : World} {history : List Transition} (hrun : Run D w₀ history w)
    (hstart : Started w₀.server) :
    ∀ k a, w.server.allocationTable.allocations.lookup k = some a →
      ∃ pre e₀ post, Justified history w.server k a pre e₀ post := by
  refine Trace.Run.invariant (P := fun history w =>
    ∀ k a, w.server.allocationTable.allocations.lookup k = some a →
      ∃ pre e₀ post, Justified history w.server k a pre e₀ post) hrun ?_ ?_
  · intro k a ha
    rw [hstart.fresh.allocations] at ha
    exact absurd ha (by simp)
  · intro history w e w' hprev ih hstep k a ha
    rw [hstep.next] at ha ⊢
    have hbefore := Run.consistent_before hprev hstart.fresh.consistent hstep
    exact (hstep.origin hbefore ha).justified ha
      (fun a' ha' => hstep.rehashed.justified ih k a' ha')

/-! ## What is sent -/

/-- Only a Send sends a packet, and to an IP that the client's allocation permits. -/
theorem Effect.sent {env : Env} {server : TurnServer} {o : Outcome} {packet : Packet}
    (he : Effect D env server msg client o) (hsent : o.sent = some packet) :
    ∃ entry, server.allocationTable.entryOfClient client = some entry ∧
      packet.peer.ip ∈ entry.2.permissions := by
  cases he with
  | inert _ => exact absurd hsent (by simp [Outcome.unchanged])
  | challenge reason _ => exact absurd hsent (by simp [Outcome.unchanged])
  | allocateFailed _ _ _ _ => exact absurd hsent (by simp)
  | allocated _ _ _ _ _ => exact absurd hsent (by simp)
  | deleted _ _ _ _ => exact absurd hsent (by simp)
  | refreshed _ _ _ _ _ _ => exact absurd hsent (by simp)
  | permitted _ _ _ _ => exact absurd hsent (by simp)
  | bound _ _ _ _ _ _ _ _ => exact absurd hsent (by simp)
  | relayed peer data _ => exact sendToPeer_sent hsent

/-- Whatever a step relays is authorised by requests of its own client, made on the client's current
    allocation: a packet sent for a message by a CreatePermission for the IP of the peer, a packet
    sent for ChannelData by the ChannelBind that created the binding used. -/
theorem relaying_authorised {w₀ w w' : World} {history : List Transition}
    (hstart : Started w₀.server) (hrun : Run D w₀ history w) (hstep : Step D w e w')
    {packet : Packet} (hsent : e.sent = some packet) :
    (∀ m c, e.event = .message m c →
      ∃ k, e.before.allocationTable.findAllocationByClient c = some k ∧
        ∃ pre e₀ post, CurrentSince history c k pre e₀ post ∧
          ∃ e₁ ∈ post, Permits e₁ c packet.peer.ip) ∧
    (∀ data c, e.event = .channelData data c →
      ∃ k, e.before.allocationTable.findAllocationByClient c = some k ∧
        ∃ n, u16At data 0 = .ok n ∧ ∃ pre e₀ post, CurrentSince history c k pre e₀ post ∧
          ∃ e₁ ∈ post, Binds e₁ c k n packet.peer) := by
  have hc := hrun.consistent_before hstart.fresh.consistent hstep
  have hjustified := hstep.rehashed.justified (hrun.justified hstart)
  have hfind : ∀ {c entry}, e.before.allocationTable.entryOfClient c = some entry →
      e.before.allocationTable.findAllocationByClient c = some entry.1 := by
    intro c entry hentry
    rw [findAllocationByClient_of_entry hentry, (hc.key _ _ (entryOfClient_eq_some hentry).1).1]
  constructor
  · intro m c hevent
    obtain ⟨entry, hentry, hip⟩ := (hstep.effect hevent).sent hsent
    obtain ⟨hlookup, hclient⟩ := entryOfClient_eq_some hentry
    obtain ⟨pre, e₀, post, hj⟩ := hjustified _ _ hlookup
    refine ⟨entry.1, hfind hentry, pre, e₀, post, ?_⟩
    rw [← hclient]
    exact ⟨hj.current, hj.permissions _ hip⟩
  · intro data c hevent
    obtain ⟨sent, heq, hpacket⟩ := react_channelData D e.env e.before data c
    rw [← hevent, hstep.outcome] at heq
    obtain ⟨entry, n, channel, hentry, hn, hchannel, hpeer⟩ :=
      hpacket packet ((Outcome.mk.inj heq).2.2.1 ▸ hsent)
    obtain ⟨hlookup, hclient⟩ := entryOfClient_eq_some hentry
    obtain ⟨pre, e₀, post, hj⟩ := hjustified _ _ hlookup
    rw [(hc.key _ _ hlookup).1] at hchannel
    refine ⟨entry.1, hfind hentry, n, hn, pre, e₀, post, ?_⟩
    rw [← hclient, hpeer]
    exact ⟨hj.current, hj.bindings n channel hchannel⟩

def samplePeer : SocketAddr := .v4 ⟨192, 0, 2, 9⟩ 9000

/-- The PEER-ADDRESS attribute of the sample peer. -/
def samplePeerAttribute : Attribute :=
  ⟨Attribute.peerAddress, encodeXorAddress samplePeer magicCookie sampleTransaction⟩

/-- A client allocates, permits the peer and binds channel 0x4000 to it. -/
def permittedPeer : List (Env × Event) :=
  [(sampleEnv 1, .message (sampleRequest .allocate []) sampleClient),
   (sampleEnv 2, .message (sampleRequest .createPermission [samplePeerAttribute]) sampleClient),
   (sampleEnv 3, .message (sampleRequest .channelBind
      [⟨Attribute.channelNumber, [0x40, 0, 0, 0]⟩, samplePeerAttribute]) sampleClient)]

/-- The world after `permittedPeer`. -/
def permittedWorld : World := (play sampleDigests ⟨sampleServer true none, 0⟩ permittedPeer).2

theorem permittedWorld_run : Run sampleDigests ⟨sampleServer true none, 0⟩
    (play sampleDigests ⟨sampleServer true none, 0⟩ permittedPeer).1 permittedWorld :=
  Run.of_play (by decide)

/-- The client then sends one byte, once with Send and once on the channel; both go to the peer. -/
theorem relaying_authorised_both_ways :
    ∃ send data : Transition, send.event = .message (sampleRequest .send
        [samplePeerAttribute, ⟨Attribute.data, [7]⟩]) sampleClient ∧
      data.event = .channelData [0x40, 0, 0, 1, 7] sampleClient ∧
      send.sent = some ⟨.v4 ⟨10, 0, 0, 1⟩ 5000, samplePeer, [7]⟩ ∧
      data.sent = some ⟨.v4 ⟨10, 0, 0, 1⟩ 5000, samplePeer, [7]⟩ ∧
      (∃ e₁, Permits e₁ sampleClient samplePeer.ip) ∧
      ∃ k e₁, Binds e₁ sampleClient k 0x4000 samplePeer := by
  have hstart : Started (World.server ⟨sampleServer true none, 0⟩) := sampleServer_started true none
  have hsend : (Transition.of sampleDigests (sampleEnv 4) permittedWorld.server (.message
      (sampleRequest .send [samplePeerAttribute, ⟨Attribute.data, [7]⟩]) sampleClient)).sent
      = some ⟨.v4 ⟨10, 0, 0, 1⟩ 5000, samplePeer, [7]⟩ := by decide +kernel
  have hdata : (Transition.of sampleDigests (sampleEnv 4) permittedWorld.server
      (.channelData [0x40, 0, 0, 1, 7] sampleClient)).sent
      = some ⟨.v4 ⟨10, 0, 0, 1⟩ 5000, samplePeer, [7]⟩ := by decide +kernel
  have hclock : permittedWorld.clock ≤ (sampleEnv 4).now := by decide +kernel
  obtain ⟨-, -, -, -, -, -, e₁, -, hpermits⟩ :=
    (relaying_authorised hstart permittedWorld_run (Step.of_clock hclock _) hsend).1 _ _ rfl
  obtain ⟨k, -, n, hn, -, -, -, -, e₂, -, hbinds⟩ :=
    (relaying_authorised hstart permittedWorld_run (Step.of_clock hclock _) hdata).2 _ _ rfl
  obtain rfl : (0x4000 : UInt16) = n := Except.ok.inj hn
  exact ⟨_, _, rfl, rfl, hsend, hdata, ⟨e₁, hpermits⟩, k, e₂, hbinds⟩

end Miuturn
