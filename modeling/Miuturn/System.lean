import Miuturn.ServerSteps
import Miuturn.Trace

set_option autoImplicit false

/-! # The running server

The server as a transition system. A step is one whole request, ChannelData frame, cleanup pass or
change to the users and access rules, at one clock reading; requests are taken as parsed messages
and `Frames.lean` shows that datagrams and stream frames are no more than that. The hash maps have
no iteration order of their own: before every step their entries may be rearranged (`Rehashed`), so
that whatever is proved of all runs holds for every order in which the maps may be iterated. A step
that panics leaves the server as it was.

A label of a run records the step with the server before and after it, so that statements about
histories can be made. -/

open RustStd

namespace Miuturn

/-- What the admin interface can do to the `AuthManager` it shares with the server. -/
inductive AuthChange where
  | addUser (user : User)
  | removeUser (username : String)
  | addAclRule (rule : AclRule)
  | removeAclRule (ipRange : String) (priority : UInt32)

def AuthChange.apply (am : AuthManager) : AuthChange → AuthManager
  | .addUser user => am.addUser user
  | .removeUser username => am.removeUser username
  | .addAclRule rule => am.addAclRule rule
  | .removeAclRule ipRange priority => am.removeAclRule ipRange priority

inductive Event where
  | message (msg : Message) (client : SocketAddr)
  | channelData (data : Bytes) (client : SocketAddr)
  | cleanupAllocations
  | cleanupChannels
  | cleanupNonces
  | changeAuth (change : AuthChange)

/-- One pass of `start_nonce_cleanup_task`. -/
def cleanupNonces (server : TurnServer) (now : ℕ) : TurnServer :=
  { server with nonceMap :=
      server.nonceMap.retain (fun _ entry => decide (asSecs (now - entry.createdAt) < 600)) }

/-- One pass of `start_allocation_cleanup_task`. -/
def cleanupAllocations (server : TurnServer) (now : ℕ) : Outcome :=
  let result := server.allocationTable.cleanupExpired server.channelTable now
  ⟨{ server with allocationTable := result.1.1, channelTable := result.1.2 }, none, none, result.2⟩

def TurnServer.changeAuth (server : TurnServer) (change : AuthChange) : TurnServer :=
  { server with authManager := server.authManager.map (fun am => change.apply am) }

/-- One step, as far as it returns. -/
def perform (D : Digests) (env : Env) (server : TurnServer) : Event → Rust Outcome
  | .message msg client => processMessage D env server msg client
  | .channelData data client => handleChannelData env server data client
  | .cleanupAllocations => .ok (cleanupAllocations server env.now)
  | .cleanupChannels =>
    .ok (.unchanged { server with channelTable := server.channelTable.cleanupExpired env.now } none)
  | .cleanupNonces => .ok (.unchanged (cleanupNonces server env.now) none)
  | .changeAuth change => .ok (.unchanged (server.changeAuth change) none)

/-- One step. A panic ends the task that handled the request and leaves the server as it was. -/
def react (D : Digests) (env : Env) (server : TurnServer) (event : Event) : Outcome :=
  match perform D env server event with
  | .ok o => o
  | .error _ => .unchanged server none

/-- The server and the last clock reading. -/
structure World where
  server : TurnServer
  clock : ℕ

/-- One step of a run, with the server before and after it. -/
structure Transition where
  env : Env
  event : Event
  before : TurnServer
  after : TurnServer
  response : Option Bytes
  sent : Option Packet
  removed : ℕ

/-- The same server with the entries of its two tables in another order. -/
def Rehashed (server server' : TurnServer) : Prop :=
  ∃ allocations channels, HashMap.Same server.allocationTable.allocations allocations ∧
    HashMap.Same server.channelTable.channels channels ∧
    server' = { server with
      allocationTable := { server.allocationTable with allocations := allocations },
      channelTable := ⟨channels⟩ }

theorem Rehashed.refl (server : TurnServer) : Rehashed server server :=
  ⟨_, _, .refl _, .refl _, rfl⟩

/-- The steps of the system: the clock does not go back. -/
structure Step (D : Digests) (w : World) (e : Transition) (w' : World) : Prop where
  rehashed : Rehashed w.server e.before
  clock : w.clock ≤ e.env.now
  outcome : react D e.env e.before e.event = ⟨e.after, e.response, e.sent, e.removed⟩
  next : w' = ⟨e.after, e.env.now⟩

/-- Runs of the server, with their histories. -/
abbrev Run (D : Digests) := Trace.Run (Step D)

/-- A server as it is started: any configuration, nothing allocated, bound or issued yet. -/
structure Started (server : TurnServer) : Prop where
  config : ∃ relayAddr relayBindAddr realm minPort maxPort maxAllocations maxDuration password
      authDisabled serverName new authManager stunEnabled turnEnabled,
    TurnServer.withPortRangeLimitsBindAddressAndPassword relayAddr relayBindAddr realm minPort
      maxPort maxAllocations maxDuration password authDisabled serverName = .ok new ∧
    server = { new with authManager, stunEnabled, turnEnabled }

/-- Nothing is allocated, bound or issued. -/
structure TurnServer.Fresh (server : TurnServer) : Prop where
  allocations : server.allocationTable.allocations = ∅
  setBits : server.allocationTable.portAllocator.allocated.setBits = ∅
  allocatedCount : server.allocationTable.portAllocator.allocatedCount = 0
  stats : server.allocationTable.stats = ⟨0, 0, 0, 0⟩
  trackers : server.allocationTable.bandwidthManager.trackers = ∅
  channels : server.channelTable.channels = ∅
  nonceMap : server.nonceMap = ∅

theorem Started.fresh {server : TurnServer} (h : Started server) : server.Fresh := by
  obtain ⟨_, _, _, _, _, _, _, _, _, _, new, _, _, _, hnew, rfl⟩ := h.config
  obtain ⟨table, htable, hnew⟩ := Rust.bind_eq_ok.1 hnew
  obtain ⟨pa, hpa, htable⟩ := Rust.bind_eq_ok.1 htable
  obtain rfl := Except.ok.inj htable
  obtain rfl := Except.ok.inj hnew
  obtain ⟨-, -, hbits, hcount⟩ := PortAllocator.new_eq_ok hpa
  exact ⟨rfl, hbits, hcount, rfl, rfl, rfl, rfl⟩

/-! ## What a step can do -/

theorem react_message (D : Digests) (env : Env) (server : TurnServer) (msg : Message)
    (client : SocketAddr) :
    Effect D env server msg client (react D env server (.message msg client)) := by
  simp only [react, perform]
  cases h : processMessage D env server msg client with
  | ok o => exact processMessage_effect h
  | error f => exact .inert (fun b hb => absurd hb (by simp))

/-- ChannelData never changes the server and is never answered. What it sends goes to the peer of a
    binding of the client's allocation. -/
theorem react_channelData (D : Digests) (env : Env) (server : TurnServer) (data : Bytes)
    (client : SocketAddr) :
    ∃ sent, react D env server (.channelData data client) = ⟨server, none, sent, 0⟩ ∧
      ∀ packet, sent = some packet →
        ∃ e n channel, server.allocationTable.entryOfClient client = some e ∧
          u16At data 0 = .ok n ∧
          server.channelTable.getByChannel e.2.relayedAddr n = some channel ∧
          packet.peer = channel.peerAddr := by
  simp only [react, perform]
  rcases handleChannelData_cases env server data client with
    h | ⟨e, n, channel, relay, payload, he, hn, hchannel, h⟩
  · rw [h]
    exact ⟨none, rfl, fun packet hp => absurd hp (by simp)⟩
  · rw [h]
    refine ⟨_, rfl, fun packet hp => ⟨e, n, channel, he, hn, hchannel, ?_⟩⟩
    split at hp
    · obtain rfl := Option.some.inj hp
      rfl
    · exact absurd hp (by simp)

theorem Step.after_eq {D : Digests} {w w' : World} {e : Transition} (h : Step D w e w') :
    e.after = (react D e.env e.before e.event).server := by rw [h.outcome]

theorem Step.effect {D : Digests} {w w' : World} {e : Transition} (h : Step D w e w')
    {msg : Message} {client : SocketAddr} (hevent : e.event = .message msg client) :
    Effect D e.env e.before msg client ⟨e.after, e.response, e.sent, e.removed⟩ := by
  rw [← h.outcome, hevent]
  exact react_message D e.env e.before msg client

/-- A step on a message that is handled without a panic is what the handler returns. -/
theorem Step.outcome_of_ok {D : Digests} {w w' : World} {e : Transition} (h : Step D w e w')
    {msg : Message} {client : SocketAddr} {o : Outcome} (hevent : e.event = .message msg client)
    (ho : processMessage D e.env e.before msg client = .ok o) :
    o = ⟨e.after, e.response, e.sent, e.removed⟩ := by
  have houtcome := h.outcome
  rw [hevent, react, perform, ho] at houtcome
  exact houtcome

/-- There is no answer from a handler that panics. -/
theorem Step.ok_of_response {D : Digests} {w w' : World} {e : Transition} (h : Step D w e w')
    {msg : Message} {client : SocketAddr} {b : Bytes} (hevent : e.event = .message msg client)
    (hresponse : e.response = some b) :
    processMessage D e.env e.before msg client = .ok ⟨e.after, e.response, e.sent, e.removed⟩ := by
  cases ho : processMessage D e.env e.before msg client with
  | ok o => rw [h.outcome_of_ok hevent ho]
  | error f =>
      have houtcome := h.outcome
      rw [hevent, react, perform, ho] at houtcome
      have hnone := congrArg Outcome.response houtcome
      exact absurd (hnone.trans hresponse) (by simp [Outcome.unchanged])

/-- With TURN disabled, a request that would authenticate is dropped. -/
theorem Step.turnDisabled {D : Digests} {w w' : World} {e : Transition} (h : Step D w e w')
    {msg : Message} {client : SocketAddr} (hevent : e.event = .message msg client)
    (hmethod : msg.header.method ∈ authenticatedMethods) (hturn : e.before.turnEnabled = false) :
    e.after = e.before ∧ e.response = none := by
  obtain ⟨hafter, hresponse, -, -⟩ :=
    Outcome.mk.inj (h.outcome_of_ok hevent (processMessage_turnDisabled hmethod hturn))
  exact ⟨hafter.symm, hresponse.symm⟩

/-! ## Runs by evaluation -/

/-- The transition an event makes, with the maps in the order they are in. -/
def Transition.of (D : Digests) (env : Env) (server : TurnServer) (event : Event) : Transition :=
  let o := react D env server event
  ⟨env, event, server, o.server, o.response, o.sent, o.removed⟩

theorem Step.of_clock {D : Digests} {env : Env} {w : World} (h : w.clock ≤ env.now)
    (event : Event) : Step D w (.of D env w.server event)
      ⟨(Transition.of D env w.server event).after, env.now⟩ :=
  ⟨.refl _, h, rfl, rfl⟩

/-- The history of a list of events and the world after them. -/
def play (D : Digests) (w : World) : List (Env × Event) → List Transition × World
  | [] => ([], w)
  | (env, event) :: rest =>
    let e := Transition.of D env w.server event
    let result := play D ⟨e.after, env.now⟩ rest
    (e :: result.1, result.2)

/-- Events played in the order of their clock readings are a run. -/
theorem Run.of_play {D : Digests} {steps : List (Env × Event)} :
    ∀ {w : World}, (w.clock :: steps.map (fun s => s.1.now)).IsChain (· ≤ ·) →
      Run D w (play D w steps).1 (play D w steps).2 := by
  induction steps with
  | nil => exact fun _ => .nil
  | cons step steps ih =>
      intro w hclock
      obtain ⟨env, event⟩ := step
      obtain ⟨hle, hrest⟩ := List.isChain_cons_cons.1 hclock
      exact (Trace.Run.single (Step.of_clock hle event)).append (ih hrest)

/-! ## A small configuration

Four relay ports on one address, for the concrete runs of the other modules. -/

def samplePorts : PortAllocator :=
  { minPort := 5000, maxPort := 5003, portCount := 4, size := by decide, nonempty := by decide,
    allocated := [0#64], allocatedCount := 0, words := by decide }

def sampleServer (authDisabled : Bool) (authManager : Option AuthManager) : TurnServer where
  allocationTable :=
    { allocations := ∅, portAllocator := samplePorts, bindAddr := ⟨10, 0, 0, 1⟩,
      externalAddr := ⟨203, 0, 113, 1⟩, stats := ⟨0, 0, 0, 0⟩, maxConcurrentAllocations := none,
      maxAllocationDurationSecs := none, bandwidthManager := ⟨∅⟩ }
  channelTable := .new
  realm := "miuturn"
  nonceMap := ∅
  password := "password"
  authDisabled := authDisabled
  authManager := authManager
  serverName := "miuturn"
  stunEnabled := true
  turnEnabled := true

theorem sampleServer_started (authDisabled : Bool) (authManager : Option AuthManager) :
    Started (sampleServer authDisabled authManager) :=
  ⟨⟨203, 0, 113, 1⟩, ⟨10, 0, 0, 1⟩, "miuturn", 5000, 5003, none, none, "password", authDisabled,
    "miuturn", sampleServer authDisabled none, authManager, true, true, rfl, rfl⟩

/-- The outside world at a number of seconds: sockets bind, packets are sent, and the random numbers
    are zero. -/
def sampleEnv (secs : ℕ) : Env where
  now := fromSecs secs
  systemTime := fromSecs secs
  nonceBytes := ⟨List.replicate 16 0, rfl⟩
  portChoice := fun _ => ⟨0, 0, []⟩
  bindResult := fun _ => .ok ()
  sendOk := true

/-- Digests that show the key they were made with. -/
def sampleDigests : Digests where
  md5 := fun input => input
  hmacSha1 := fun key _ => ⟨(key ++ List.replicate 20 0).take 20, by simp⟩

def sampleClient : SocketAddr := .v4 ⟨198, 51, 100, 7⟩ 4000

def sampleTransaction : TransactionId := ⟨List.replicate 12 0, rfl⟩

def sampleRequest (method : Method) (attributes : List Attribute) : Message :=
  ⟨⟨method, .request, 0, magicCookie, sampleTransaction⟩, attributes⟩

/-- One user, `alice` with the password `secret`. -/
def sampleUsers : AuthManager := AuthManager.new.addUser ⟨"alice", "secret", none⟩

/-- A request of `alice`, signed with a password, that carries the nonce of the sample world. -/
def sampleLogin (method : Method) (password : String) (attributes : List Attribute) : Message :=
  addResponseMessageIntegrity sampleDigests
    (sampleRequest method ([⟨Attribute.username, strBytes "alice"⟩,
      ⟨Attribute.nonce, strBytes (generateNonce (sampleEnv 0))⟩] ++ attributes))
    (computeMessageIntegrityKey sampleDigests "alice" "miuturn" password)

end Miuturn
