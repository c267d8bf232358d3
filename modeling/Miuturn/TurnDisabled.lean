import Miuturn.Frames
import Miuturn.PortSearch

set_option autoImplicit false

/-! # A server with TURN disabled

`turn_enabled` is read in one place, `process_message`. ChannelData frames and the cleanup tasks do
not pass there; they find nothing to work on, because nothing was ever allocated, bound or issued.
So the server stays exactly as it was constructed, whatever arrives, and all it ever does is answer
Binding requests.

Inputs are taken as they arrive: datagrams and stream frames as bytes, and the passes of the three
cleanup tasks. The maps are empty throughout, so there is no iteration order to consider. -/

open RustStd

namespace Miuturn

inductive Input where
  | datagram (data : Bytes) (client : SocketAddr)
  | frame (data : Bytes) (client : SocketAddr)
  | cleanupAllocations
  | cleanupChannels
  | cleanupNonces

/-- One input, by the function of the source that takes it. -/
def receive (D : Digests) (env : Env) (server : TurnServer) : Input → Rust Outcome
  | .datagram data client => handleUdpMessage D env server data client
  | .frame data client => handleTcpMessage D env server data client
  | .cleanupAllocations => perform D env server .cleanupAllocations
  | .cleanupChannels => perform D env server .cleanupChannels
  | .cleanupNonces => perform D env server .cleanupNonces

/-- Inputs one after the other, with what each of them leaves behind. -/
def receiveAll (D : Digests) (server : TurnServer) : List (Env × Input) → Rust (List Outcome)
  | [] => pure []
  | (env, input) :: inputs => do
    let o ← receive D env server input
    let rest ← receiveAll D o.server inputs
    pure (o :: rest)

/-- The message an input is read as, with its client. -/
inductive Input.Reads : Input → Message → SocketAddr → Prop where
  | datagram {data : Bytes} {msg : Message} {client : SocketAddr} (h : UdpReads data msg) :
      Reads (.datagram data client) msg client
  | frame {data : Bytes} {msg : Message} {client : SocketAddr} (h : TcpReads data msg) :
      Reads (.frame data client) msg client

/-- The input is a Binding request, and the bytes are the answer to it. -/
def Input.AnsweredAsBinding (input : Input) (answer : Bytes) : Prop :=
  ∃ msg client, input.Reads msg client ∧ msg.header.method = .binding ∧
    answer = createBindingResponseFast msg.header.transactionId client

/-- The input has no effect on the server or on a peer. At most it is answered, if it is a Binding
    request and STUN is enabled. -/
structure Inert (server : TurnServer) (input : Input) (o : Outcome) : Prop where
  unchanged : o.server = server
  sent : o.sent = none
  answer : ∀ b, o.response = some b → server.stunEnabled = true ∧ input.AnsweredAsBinding b

theorem inert_none (server : TurnServer) (input : Input) :
    Inert server input (.unchanged server none) :=
  ⟨rfl, rfl, fun _ hb => absurd hb (by simp [Outcome.unchanged])⟩

variable {D : Digests} {env : Env} {server : TurnServer}

/-- With TURN disabled a message is dropped, or it is a Binding request and STUN is enabled. -/
theorem inert_message (hturn : server.turnEnabled = false) {input : Input} {msg : Message}
    {client : SocketAddr} (hreads : input.Reads msg client) :
    ∃ o, perform D env server (.message msg client) = .ok o ∧ Inert server input o := by
  show ∃ o, processMessage D env server msg client = .ok o ∧ _
  unfold processMessage
  by_cases hm : msg.header.method = .binding
  · cases hstun : server.stunEnabled with
    | false =>
        rw [if_pos ⟨hm, rfl⟩]
        exact ⟨_, rfl, inert_none server input⟩
    | true =>
        rw [if_neg (by simp), if_neg (fun h => h.1 hm), hm]
        refine ⟨_, rfl, rfl, rfl, fun b hb => ⟨hstun, msg, client, hreads, hm, ?_⟩⟩
        exact (Option.some.inj hb).symm
  · rw [if_neg (fun h => hm h.1), if_pos ⟨hm, hturn⟩]
    exact ⟨_, rfl, inert_none server input⟩

/-- ChannelData needs an allocation. -/
theorem inert_channelData (hfresh : server.Fresh) (input : Input) (data : Bytes)
    (client : SocketAddr) :
    ∃ o, perform D env server (.channelData data client) = .ok o ∧ Inert server input o := by
  rcases handleChannelData_cases env server data client with h | ⟨e, _, _, _, _, hentry, -, -, -⟩
  · exact ⟨_, h, inert_none server input⟩
  · have ha := (entryOfClient_eq_some hentry).1
    rw [hfresh.allocations] at ha
    exact absurd ha (by simp)

/-- A pass over empty tables leaves the server as it is. -/
theorem cleanupExpired_empty {t : AllocationTable} {ct : ChannelTable} {now : ℕ}
    (h : t.allocations = ∅) : t.cleanupExpired ct now = ((t, ct), 0) := by
  have hexpired : t.expiredAddrs now = [] := by
    unfold AllocationTable.expiredAddrs
    rw [h]
    rfl
  unfold AllocationTable.cleanupExpired
  rw [hexpired]
  simp only [AllocationTable.dropEntries, subActive_zero]

/-- One input. -/
theorem receive_inert (D : Digests) (env : Env) (hfresh : server.Fresh)
    (hturn : server.turnEnabled = false) (input : Input) :
    ∃ o, receive D env server input = .ok o ∧ Inert server input o := by
  cases input with
  | datagram data client =>
      rcases handleUdpMessage_cases D env server data client with ⟨h, -⟩ | ⟨msg, hreads, h⟩ | ⟨h, -⟩
      · rw [receive, h]
        exact inert_channelData hfresh _ data client
      · rw [receive, h]
        exact inert_message hturn (.datagram hreads)
      · exact ⟨_, h, inert_none server _⟩
  | frame data client =>
      rcases handleTcpMessage_cases D env server data client with ⟨h, -⟩ | ⟨msg, hreads, h⟩ | ⟨h, -⟩
      · rw [receive, h]
        exact inert_channelData hfresh _ data client
      · rw [receive, h]
        exact inert_message hturn (.frame hreads)
      · exact ⟨_, h, inert_none server _⟩
  | cleanupAllocations =>
      refine ⟨_, rfl, ?_, rfl, fun b hb => absurd hb (by simp [cleanupAllocations])⟩
      unfold cleanupAllocations
      rw [cleanupExpired_empty hfresh.allocations]
  | cleanupChannels =>
      have hempty : server.channelTable = ⟨∅⟩ := congrArg ChannelTable.mk hfresh.channels
      have hchannels : server.channelTable.cleanupExpired env.now = server.channelTable := by
        rw [hempty]
        rfl
      rw [receive, perform, hchannels]
      exact ⟨_, rfl, inert_none server _⟩
  | cleanupNonces =>
      have hself : { server with nonceMap := ∅ } = server := by rw [← hfresh.nonceMap]
      have hnonces : cleanupNonces server env.now = server := by
        unfold cleanupNonces
        rw [hfresh.nonceMap]
        exact hself
      rw [receive, perform, hnonces]
      exact ⟨_, rfl, inert_none server _⟩

/-- Any sequence of inputs: each of them is inert, and meets the server as it was constructed. -/
theorem receiveAll_inert (hfresh : server.Fresh) (hturn : server.turnEnabled = false)
    (inputs : List (Env × Input)) :
    ∃ outcomes, receiveAll D server inputs = .ok outcomes ∧
      List.Forall₂ (fun i o => Inert server i.2 o) inputs outcomes := by
  induction inputs with
  | nil => exact ⟨[], rfl, .nil⟩
  | cons i inputs ih =>
      obtain ⟨env, input⟩ := i
      obtain ⟨o, ho, hinert⟩ := receive_inert D env hfresh hturn input
      obtain ⟨outcomes, houtcomes, hall⟩ := ih
      refine ⟨o :: outcomes, ?_, .cons hinert hall⟩
      rw [receiveAll, ho, Rust.ok_bind, hinert.unchanged, houtcomes, Rust.ok_bind]
      rfl

/-- The tables hold nothing and no port is taken. -/
structure TurnServer.Empty (server : TurnServer) : Prop where
  allocations : server.allocationTable.allocations = ∅
  ports : ∀ port, server.allocationTable.portAllocator.isAllocated port = false
  channels : server.channelTable.channels = ∅
  nonces : server.nonceMap = ∅

theorem TurnServer.Fresh.empty (h : server.Fresh) : server.Empty where
  allocations := h.allocations
  ports := by
    intro port
    by_contra hport
    obtain ⟨-, hbit⟩ := PortAllocator.isAllocated_iff.1 (Bool.eq_true_of_not_eq_false hport)
    rw [← Bitmap.mem_setBits, h.setBits] at hbit
    exact absurd hbit (Finset.notMem_empty _)
  channels := h.channels
  nonces := h.nonceMap

/-- A server with TURN disabled takes any sequence of inputs without a panic. After each of them
    its tables are empty, nothing was sent to a peer, and only Binding requests were answered, and
    those only with STUN enabled. -/
theorem turn_disabled_inert (hstart : Started server) (hturn : server.turnEnabled = false)
    (D : Digests) (inputs : List (Env × Input)) :
    ∃ outcomes, receiveAll D server inputs = .ok outcomes ∧
      List.Forall₂ (fun i o => o.server.Empty ∧ o.sent = none ∧
        ∀ b, o.response = some b → server.stunEnabled = true ∧ i.2.AnsweredAsBinding b)
        inputs outcomes := by
  obtain ⟨outcomes, houtcomes, hall⟩ := receiveAll_inert hstart.fresh hturn inputs
  refine ⟨outcomes, houtcomes, hall.imp ?_⟩
  intro i o hinert
  refine ⟨?_, hinert.sent, hinert.answer⟩
  rw [hinert.unchanged]
  exact hstart.fresh.empty

/-- The sample server with TURN disabled. -/
def stunServer : TurnServer := { sampleServer true none with turnEnabled := false }

theorem stunServer_started : Started stunServer :=
  ⟨⟨203, 0, 113, 1⟩, ⟨10, 0, 0, 1⟩, "miuturn", 5000, 5003, none, none, "password", true, "miuturn",
    sampleServer true none, none, true, false, rfl, rfl⟩

/-- An Allocate request, ChannelData, a cleanup pass and a Binding request. -/
def stunInputs : List (Env × Input) :=
  [(sampleEnv 1, .datagram (sampleRequest .allocate []).encode sampleClient),
   (sampleEnv 2, .frame [0x40, 0x00, 0x00, 0x01, 0x2a] sampleClient),
   (sampleEnv 3, .cleanupAllocations),
   (sampleEnv 4, .datagram (sampleRequest .binding []).encode sampleClient)]

theorem turn_disabled_inert_sample :
    ∃ outcomes, receiveAll sampleDigests stunServer stunInputs = .ok outcomes ∧
      List.Forall₂ (fun i o => o.server.Empty ∧ o.sent = none ∧
        ∀ b, o.response = some b → stunServer.stunEnabled = true ∧ i.2.AnsweredAsBinding b)
        stunInputs outcomes :=
  turn_disabled_inert stunServer_started rfl sampleDigests stunInputs

end Miuturn
