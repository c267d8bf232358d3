import Miuturn.Answers
import Miuturn.Frames
import Miuturn.LockedSink
import Miuturn.Stream

set_option autoImplicit false

/-! # Who writes on a stream connection (`server.rs`)

The task of a TCP or TLS connection writes its answers on the connection, and the relay task of the
client's allocation writes what peers have sent. Each takes the connection's lock for a whole packet
(`write_locked_stream_frame`); the socket takes the bytes in pieces. A relay task is aborted when
its allocation is removed, also in the middle of a packet, which frees the lock.

So the packets on a connection are never mixed, and without such an abort the client reads them one
by one. After an abort in the middle of a packet the client reads what is missing off the packets
that follow. -/

open RustStd

namespace Miuturn

/-- The tasks that write on a connection. -/
inductive Writer where
  | connection
  | relay (relayedAddr : SocketAddr)
  deriving DecidableEq

/-- What `write_stream_frame` writes for a packet. -/
def frameBytes (packet : StreamPacket) : Bytes :=
  match writeStreamFrame packet.bytes with
  | .ok bytes => bytes
  | .error _ => []

/-- The write half of a connection behind its lock. -/
abbrev StreamWriter := LockedSink.Sink UInt8 Writer

/-- What the tasks do in `write_locked_stream_frame`: take the lock with a packet to write, get some
    bytes through, return. A task is gone if it is aborted or the write fails. -/
abbrev WriterEvent := LockedSink.Act StreamPacket Writer

def WriterRun : List WriterEvent → StreamWriter → Prop :=
  LockedSink.SinkRun frameBytes LockedSink.fresh

theorem frameBytes_eq (packet : StreamPacket) :
    frameBytes packet = packet.bytes ++ List.replicate packet.padding 0 := by
  rw [frameBytes, (writeStreamFrame_of_missing packet.missing_eq).1]

theorem complete_frameBytes (packet : StreamPacket) :
    Framing.Complete streamFormat (frameBytes packet) := by
  rw [frameBytes_eq]
  exact packet.complete

theorem readsBack_frameBytes (packet : StreamPacket) : packet.ReadsBack (frameBytes packet) := by
  rw [frameBytes_eq]
  exact packet.readsBack _

theorem forall₂_readsBack (packets : List StreamPacket) :
    List.Forall₂ StreamPacket.ReadsBack packets (packets.map frameBytes) := by
  rw [List.forall₂_map_right_iff, List.forall₂_same]
  exact fun packet _ => readsBack_frameBytes packet

/-- What the task of a connection writes is a packet, if the attributes of the answer fit a 16-bit
    length. -/
theorem exists_packet_of_answer {D : Digests} {env : Env} {server : TurnServer} {data b : Bytes}
    {ip : Ipv4Addr} {port : UInt16} {o : Outcome}
    (h : handleTcpMessage D env server data (.v4 ip port) = .ok o) (hb : o.response = some b)
    (hfit : b.length ≤ 20 + 65535) : ∃ packet : StreamPacket, packet.bytes = b := by
  rcases handleTcpMessage_cases D env server data (.v4 ip port) with
    ⟨heq, -⟩ | ⟨msg, -, heq⟩ | ⟨heq, -⟩
  · -- ChannelData is not answered
    rw [h] at heq
    rcases handleChannelData_cases env server data (.v4 ip port) with
      hnone | ⟨_, _, _, _, _, -, -, -, hsent⟩
    · obtain rfl := Except.ok.inj (heq.trans hnone)
      exact absurd hb (by simp [Outcome.unchanged])
    · obtain rfl := Except.ok.inj (heq.trans hsent)
      exact absurd hb (by simp)
  · rw [h] at heq
    rcases processMessage_reply heq.symm hb with ⟨-, rfl⟩ | ⟨u, response, rfl, -, -⟩
    · rw [createBindingResponseFast_v4] at hfit ⊢
      rw [Message.encode_length] at hfit
      exact ⟨.message _ (by omega), rfl⟩
    · rw [Message.encode_length] at hfit
      exact ⟨.message response (by omega), rfl⟩
  · rw [h] at heq
    obtain rfl := Except.ok.inj heq
    exact absurd hb (by simp [Outcome.unchanged])

/-- And so is what a relay task writes for a datagram of an IPv4 peer. -/
theorem exists_packet_of_relay (task : RelayTask) (systemTime : ℕ) (ct : ChannelTable)
    {peer : SocketAddr} {ip : Ipv4Addr} {port : UInt16} {payload : Bytes}
    (hct : ∀ n, ct.getByPeerForRelayed task.relayedAddr (task.effectivePeer peer) = some n →
      isChannelNumber n = true)
    (hpeer : task.effectivePeer peer = .v4 ip port) (hlen : payload.length ≤ 65507) :
    ∃ packet : StreamPacket, packet.bytes = (task.packetFor systemTime ct peer payload).data := by
  unfold RelayTask.packetFor
  cases hfound : ct.getByPeerForRelayed task.relayedAddr (task.effectivePeer peer) with
  | some n => exact ⟨.channelData n (hct n hfound) payload hlen, rfl⟩
  | none =>
      rw [hpeer]
      exact ⟨.dataIndication systemTime ip port payload hlen, rfl⟩

variable {history : List WriterEvent} {w : StreamWriter} {chunks : List Bytes}

theorem readLoop_of_flatten (hchunks : ∀ c ∈ chunks, c ≠ []) :
    readLoop [] chunks = .ok (Framing.drain streamFormat chunks.flatten) := by
  rw [readLoop_eq chunks hchunks, Framing.feed_eq_drain _ _ next_nil, List.nil_append]

/-- However the tasks take turns and in whatever pieces the bytes are written and read: if no task
    was gone in the middle of a packet, the client reads the packets that were written, in the order
    of the lock, and keeps a beginning of the one that is being written. Each frame reads back. -/
theorem packets_intact (hrun : WriterRun history w) (hchunks : ∀ c ∈ chunks, c ≠ [])
    (hread : chunks.flatten = w.out)
    (huncut : LockedSink.Uncut frameBytes (LockedSink.turns history).dropLast) :
    ∃ frames rest, readLoop [] chunks = .ok (frames, rest) ∧
      List.Forall₂ StreamPacket.ReadsBack
        (LockedSink.whole frameBytes (LockedSink.turns history)) frames ∧
      (rest = [] ∨ ∃ packet got, (LockedSink.turns history).getLast? = some (packet, got) ∧
        rest = (frameBytes packet).take got) := by
  obtain ⟨rest, hdrain, hrest⟩ :=
    LockedSink.drain_written complete_frameBytes hrun.explains.bounded huncut
  rw [readLoop_of_flatten hchunks, hread, hrun.out_eq_written, hdrain]
  refine ⟨_, rest, rfl, forall₂_readsBack _, ?_⟩
  exact hrest.imp_right fun ⟨t, ht, heq⟩ => ⟨t.1, t.2, ht, heq⟩

/-- The length of a frame can be told from its first four bytes. -/
theorem frameSize_take (packet : StreamPacket) {got : ℕ} (h : 4 ≤ got) :
    frameSize ((frameBytes packet).take got) = some (frameBytes packet).length := by
  have hsize := complete_iff.1 (complete_frameBytes packet)
  obtain ⟨k, rfl⟩ := Nat.exists_eq_add_of_le' h
  obtain ⟨a, b, c, d, rest, heq, hn⟩ := exists_of_frameSize hsize
  rw [heq] at hn ⊢
  rw [hn]
  rfl

/-- A task that is gone in the middle of a packet, after its first four bytes: the client reads what
    is missing off the packets that are written after it, so that their first bytes are lost, and
    goes on in the middle of them. -/
theorem cut_packet_swallows {packet : StreamPacket} {got : ℕ}
    {earlier later : List (LockedSink.Turn StreamPacket)} (hrun : WriterRun history w)
    (hchunks : ∀ c ∈ chunks, c ≠ []) (hread : chunks.flatten = w.out)
    (hturns : LockedSink.turns history = earlier ++ (packet, got) :: later)
    (huncut : LockedSink.Uncut frameBytes earlier) (hgot : 4 ≤ got)
    (hlater : (frameBytes packet).length ≤ got + (LockedSink.written frameBytes later).length) :
    ∃ frames rest,
      drainFrames ((LockedSink.written frameBytes later).drop ((frameBytes packet).length - got))
        = .ok (frames, rest) ∧
      readLoop [] chunks = .ok
        ((LockedSink.whole frameBytes earlier).map frameBytes
          ++ ((frameBytes packet).take got
            ++ (LockedSink.written frameBytes later).take ((frameBytes packet).length - got))
          :: frames, rest) := by
  refine ⟨_, _, drainFrames_eq _, ?_⟩
  rw [readLoop_of_flatten hchunks, hread, hrun.out_eq_written, hturns]
  exact congrArg _ (LockedSink.drain_after_cut complete_frameBytes huncut
    (frameSize_take packet hgot) hlater)

/-! ## A relay task that is aborted -/

/-- The answer to a Binding request. -/
def sampleAnswer : StreamPacket :=
  .message ⟨⟨.binding, .success, 0, magicCookie, ⟨List.replicate 12 7, rfl⟩⟩, []⟩ (by decide)

/-- Three bytes of a peer. -/
def samplePeerData : StreamPacket := .channelData 0x4000 rfl [1, 2, 3] (by decide)

def sampleRelay : Writer := .relay (.v4 ⟨10, 0, 0, 1⟩ 49152)

/-- The relay task writes a packet in two pieces, and the connection's task half of an answer. -/
def sampleWrites : List WriterEvent :=
  [.acquire sampleRelay samplePeerData, .push 5, .push 3, .release,
    .acquire .connection sampleAnswer, .push 10]

def sampleHalf : StreamWriter :=
  ⟨frameBytes samplePeerData ++ (frameBytes sampleAnswer).take 10,
    some (.connection, (frameBytes sampleAnswer).drop 10)⟩

/-- The client reads the packet of the peer. -/
theorem packets_intact_half : WriterRun sampleWrites sampleHalf ∧
    ∃ frames rest, readLoop [] [sampleHalf.out] = .ok (frames, rest) ∧
      List.Forall₂ StreamPacket.ReadsBack [samplePeerData] frames := by
  have hrun : WriterRun sampleWrites sampleHalf := Trace.Run.of_exec (by decide +kernel)
  have hout : [sampleHalf.out].flatten = sampleHalf.out := List.append_nil _
  obtain ⟨frames, rest, hread, hframes, -⟩ :=
    packets_intact hrun (by decide +kernel) hout (by decide +kernel)
  exact ⟨hrun, frames, rest, hread, hframes⟩

/-- The relay task is aborted with five of its eight bytes through, and the answer is written. -/
def sampleAbort : List WriterEvent :=
  [.acquire sampleRelay samplePeerData, .push 5, .drop, .acquire .connection sampleAnswer, .push 20,
    .release]

def sampleCut : StreamWriter :=
  ⟨(frameBytes samplePeerData).take 5 ++ frameBytes sampleAnswer, none⟩

/-- The client reads ChannelData that ends with the first three bytes of the answer. -/
theorem cut_packet_swallows_answer : WriterRun sampleAbort sampleCut ∧
    ∃ frames rest, readLoop [] [sampleCut.out]
      = .ok ([0x40, 0, 0, 3, 1, 1, 1, 0] :: frames, rest) := by
  have hrun : WriterRun sampleAbort sampleCut := Trace.Run.of_exec (by decide +kernel)
  have hout : [sampleCut.out].flatten = sampleCut.out := List.append_nil _
  have hturns : LockedSink.turns sampleAbort = [] ++ (samplePeerData, 5) :: [(sampleAnswer, 20)] :=
    rfl
  obtain ⟨frames, rest, -, hread⟩ := cut_packet_swallows hrun (by decide +kernel) hout hturns
    (by decide +kernel) (by decide) (by decide +kernel)
  exact ⟨hrun, frames, rest, hread⟩

end Miuturn
