import Miuturn.Framing
import Miuturn.MessageProofs
import Miuturn.RelayTask
import Mathlib.Data.List.Forall2
import Mathlib.Tactic.IntervalCases

set_option autoImplicit false

/-! # Stream connections (`server.rs`)

TCP and TLS clients send and receive the same packets as UDP clients, one after the other on a byte
stream: STUN messages, whose header says how long they are, and ChannelData, padded to a multiple of
four. `extract_stream_frame` takes packets off the front of the read buffer and
`write_stream_frame` writes them. The reader is an instance of `Framing.lean`, and what the writer
puts on the stream are complete frames of it. -/

open RustStd

namespace Miuturn

/-! ## Reading -/

/-- `(len + 3) & !3`. -/
def paddedLen (len : ℕ) : ℕ := (len + 3) / 4 * 4

/-- `(0x4000..=0x7FFF).contains(&word)`. -/
def isChannelNumber (word : UInt16) : Bool :=
  decide (0x4000 ≤ word.toNat ∧ word.toNat ≤ 0x7FFF)

/-- `extract_stream_frame`: the frame and the buffer after it. -/
def extractStreamFrame (buf : Bytes) : Rust (Option (Bytes × Bytes)) :=
  if buf.length < 4 then pure none
  else do
    let firstWord ← u16At buf 0
    let payloadLen := (← u16At buf 2).toNat
    if isChannelNumber firstWord then
      let frameLen := 4 + paddedLen payloadLen
      if buf.length < frameLen then pure none
      else pure (some (buf.take frameLen, buf.drop frameLen))
    else if buf.length < 20 then pure none
    else
      let frameLen := 20 + payloadLen
      if buf.length < frameLen then pure none
      else pure (some (buf.take frameLen, buf.drop frameLen))

/-- The length of a frame, from its first two words. -/
def frameLen (firstWord payloadLen : UInt16) : ℕ :=
  if isChannelNumber firstWord then 4 + paddedLen payloadLen.toNat else 20 + payloadLen.toNat

/-- The length of the frame a buffer begins with. -/
def frameSize : Bytes → Option ℕ
  | a :: b :: c :: d :: _ => some (frameLen (fromBeBytes16 a b) (fromBeBytes16 c d))
  | _ => none

theorem frameLen_bounds (firstWord payloadLen : UInt16) :
    4 ≤ frameLen firstWord payloadLen ∧ frameLen firstWord payloadLen ≤ 65555 := by
  have hlt := payloadLen.toNat_lt
  unfold frameLen paddedLen
  split <;> omega

/-- A buffer that tells the length of its first frame has the four bytes that do. -/
theorem exists_of_frameSize {buf : Bytes} {n : ℕ} (h : frameSize buf = some n) :
    ∃ a b c d rest, buf = a :: b :: c :: d :: rest ∧
      n = frameLen (fromBeBytes16 a b) (fromBeBytes16 c d) := by
  rcases buf with _ | ⟨a, _ | ⟨b, _ | ⟨c, _ | ⟨d, rest⟩⟩⟩⟩
  · exact absurd h (by simp [frameSize])
  · exact absurd h (by simp [frameSize])
  · exact absurd h (by simp [frameSize])
  · exact absurd h (by simp [frameSize])
  · exact ⟨a, b, c, d, rest, rfl, (Option.some.inj h).symm⟩

theorem frameSize_eq_some {buf : Bytes} {n : ℕ} (h : frameSize buf = some n) :
    4 ≤ n ∧ n ≤ 65555 ∧ 4 ≤ buf.length := by
  obtain ⟨a, b, c, d, rest, rfl, rfl⟩ := exists_of_frameSize h
  obtain ⟨hmin, hmax⟩ := frameLen_bounds (fromBeBytes16 a b) (fromBeBytes16 c d)
  exact ⟨hmin, hmax, by simp only [List.length_cons]; omega⟩

theorem frameSize_eq_none {buf : Bytes} (h : frameSize buf = none) : buf.length < 4 := by
  rcases buf with _ | ⟨a, _ | ⟨b, _ | ⟨c, _ | ⟨d, rest⟩⟩⟩⟩
  · simp
  · simp
  · simp
  · simp
  · exact absurd h (by simp [frameSize])

/-- The frames of a stream connection. -/
def streamFormat : Framing.Format UInt8 where
  size := frameSize
  stable := by
    intro buf more n h
    obtain ⟨a, b, c, d, rest, rfl, rfl⟩ := exists_of_frameSize h
    rfl
  pos := fun buf n h => by
    have := (frameSize_eq_some h).1
    omega

/-- `extract_stream_frame` never panics. The check for the 20 bytes of a STUN header decides nothing
    that the length of the frame does not. -/
theorem extractStreamFrame_eq (buf : Bytes) :
    extractStreamFrame buf = .ok (Framing.next streamFormat buf) := by
  unfold extractStreamFrame Framing.next
  rcases buf with _ | ⟨a, _ | ⟨b, _ | ⟨c, _ | ⟨d, rest⟩⟩⟩⟩
  · rfl
  · rfl
  · rfl
  · rfl
  · rw [if_neg (by simp only [List.length_cons]; omega)]
    simp only [u16At, byteAt_succ, byteAt_zero, Rust.ok_bind, Rust.pure_eq_ok, streamFormat,
      frameSize, frameLen]
    generalize a :: b :: c :: d :: rest = buf
    split
    · split
      · rw [if_neg (by omega)]
      · rw [if_pos (by omega)]
    · split
      · rw [if_neg (by omega)]
      · split
        · rw [if_neg (by omega)]
        · rw [if_pos (by omega)]

/-- `while let Some(data) = extract_stream_frame(&mut buf)`: the frames, and the buffer after
    them. -/
def drainFrames (buf : Bytes) : Rust (List Bytes × Bytes) :=
  match h : extractStreamFrame buf with
  | .ok (some (data, rest)) =>
    have : rest.length < buf.length :=
      Framing.length_lt_of_next (Except.ok.inj ((extractStreamFrame_eq buf).symm.trans h))
    do
      let (frames, last) ← drainFrames rest
      pure (data :: frames, last)
  | .ok none => pure ([], buf)
  | .error f => .error f
termination_by buf.length

/-- The read loop of `run_tcp` and `run_tls` on what `read_buf` returns: a read of no bytes ends it.
    The frames in the order they are handled, and what is left in the buffer. -/
def readLoop (buf : Bytes) : List Bytes → Rust (List Bytes × Bytes)
  | [] => pure ([], buf)
  | chunk :: reads =>
    if chunk.isEmpty then pure ([], buf)
    else do
      let (frames, rest) ← drainFrames (buf ++ chunk)
      let (later, last) ← readLoop rest reads
      pure (frames ++ later, last)

theorem drainFrames_eq (buf : Bytes) :
    drainFrames buf = .ok (Framing.drain streamFormat buf) := by
  fun_induction Framing.drain streamFormat buf with
  | case1 buf frame rest h _ result ih =>
      rw [drainFrames]
      split
      · next data rest' h' =>
          rw [extractStreamFrame_eq, h] at h'
          obtain ⟨rfl, rfl⟩ := Prod.mk.inj (Option.some.inj (Except.ok.inj h'))
          rw [ih]
          rfl
      · next h' =>
          rw [extractStreamFrame_eq, h] at h'
          exact absurd h' (by simp)
      · next h' =>
          rw [extractStreamFrame_eq] at h'
          exact absurd h' (by simp)
  | case2 buf h =>
      rw [drainFrames]
      split
      · next h' =>
          rw [extractStreamFrame_eq, h] at h'
          exact absurd h' (by simp)
      · rfl
      · next h' =>
          rw [extractStreamFrame_eq] at h'
          exact absurd h' (by simp)

theorem readLoop_eq (chunks : List Bytes) (hchunks : ∀ c ∈ chunks, c ≠ []) :
    ∀ buf : Bytes, readLoop buf chunks = .ok (Framing.feed streamFormat buf chunks) := by
  induction chunks with
  | nil => exact fun _ => rfl
  | cons chunk chunks ih =>
      intro buf
      have hchunk : ¬ chunk.isEmpty = true := by
        rw [List.isEmpty_iff]
        exact hchunks chunk (List.mem_cons_self ..)
      rw [readLoop, if_neg hchunk, drainFrames_eq, Rust.ok_bind]
      dsimp only
      rw [ih (fun c hc => hchunks c (List.mem_cons_of_mem _ hc))]
      rfl

theorem next_nil : Framing.next streamFormat [] = none := rfl

/-- One read of the whole stream, which reads nothing if the stream is empty. -/
theorem readLoop_single (s : Bytes) : readLoop [] [s] = .ok (Framing.drain streamFormat s) := by
  cases s with
  | nil =>
      rw [Framing.drain_of_none next_nil]
      rfl
  | cons a s =>
      rw [readLoop_eq [a :: s] (by simp), Framing.feed_eq_drain _ _ next_nil]
      simp

/-- What stays in the buffer is shorter than the longest frame. -/
theorem length_lt_of_next_none {rest : Bytes} (h : Framing.next streamFormat rest = none) :
    rest.length < 65555 := by
  cases hsize : frameSize rest with
  | none =>
      have := frameSize_eq_none hsize
      omega
  | some n =>
      have hlt := Framing.next_eq_none.1 h n hsize
      have := frameSize_eq_some hsize
      omega

/-! ## Whole packets -/

/-- The first word of a message is not a channel number. -/
theorem isChannelNumber_encodeTypeWord (method : Method) (eventType : EventType) :
    isChannelNumber (encodeTypeWord method eventType) = false := by
  cases method <;> cases eventType <;> rfl

theorem frameSize_put (x y : UInt16) (rest : Bytes) :
    frameSize (putU16 x ++ (putU16 y ++ rest)) = some (frameLen x y) := by
  show some (frameLen (fromBeBytes16 _ _) (fromBeBytes16 _ _)) = _
  rw [fromBeBytes16_put, fromBeBytes16_put]

theorem complete_iff {frame : Bytes} :
    Framing.Complete streamFormat frame ↔ frameSize frame = some frame.length := Iff.rfl

/-- The two words an encoded message begins with. -/
theorem Message.encode_eq_put (m : Message) :
    m.encode = putU16 (encodeTypeWord m.header.method m.header.eventType)
      ++ (putU16 (UInt16.ofNat (encodeAttributes m.attributes).length)
        ++ (putU32 magicCookie
          ++ (m.header.transactionId.val ++ encodeAttributes m.attributes))) := by
  simp only [Message.encode, MessageHeader.encode, List.append_assoc]

theorem complete_message (m : Message) (hfit : (encodeAttributes m.attributes).length ≤ 65535) :
    Framing.Complete streamFormat m.encode := by
  refine complete_iff.2 ?_
  rw [Message.encode_length, Message.encode_eq_put, frameSize_put, frameLen,
    isChannelNumber_encodeTypeWord, if_neg (by simp), toNat_ofNat_of_le_65535 hfit]

/-- ChannelData with its payload and the bytes that pad it. -/
theorem complete_channelData {n : UInt16} (hn : isChannelNumber n = true) {payload padding : Bytes}
    (hlen : payload.length ≤ 65535)
    (hpad : payload.length + padding.length = paddedLen payload.length) :
    Framing.Complete streamFormat
      (putU16 n ++ (putU16 (UInt16.ofNat payload.length) ++ (payload ++ padding))) := by
  refine complete_iff.2 ?_
  rw [frameSize_put, frameLen, hn, if_pos rfl, toNat_ofNat_of_le_65535 hlen, ← hpad]
  simp only [List.length_append, putU16_length, Option.some.injEq]
  omega

/-- A packet as it stands on a stream: an encoded message whose attributes fit a 16-bit length, or
    ChannelData with its payload and padding. -/
inductive StreamItem where
  | message (m : Message) (hfit : (encodeAttributes m.attributes).length ≤ 65535)
  | channelData (n : UInt16) (hn : isChannelNumber n = true) (payload padding : Bytes)
      (hlen : payload.length ≤ 65535)
      (hpad : payload.length + padding.length = paddedLen payload.length)

def StreamItem.bytes : StreamItem → Bytes
  | .message m _ => m.encode
  | .channelData n _ payload padding _ _ =>
    putU16 n ++ (putU16 (UInt16.ofNat payload.length) ++ (payload ++ padding))

theorem StreamItem.complete (item : StreamItem) : Framing.Complete streamFormat item.bytes := by
  cases item with
  | message m hfit => exact complete_message m hfit
  | channelData n hn payload padding hlen hpad => exact complete_channelData hn hlen hpad

/-- **Deframing does not depend on how the bytes arrive.** For every stream and every way of cutting
    it into reads: the loop returns, with the frames and the rest that a single read of the stream
    gives; the frames and the rest together are the stream; every frame has at least four bytes; the
    rest holds no complete frame and is shorter than 65555 bytes; and a stream of whole packets is
    taken apart into those packets. -/
theorem stream_deframing (s : Bytes) (chunks : List Bytes) (hcut : chunks.flatten = s)
    (hchunks : ∀ c ∈ chunks, c ≠ []) :
    ∃ frames rest, readLoop [] chunks = .ok (frames, rest) ∧
      readLoop [] [s] = .ok (frames, rest) ∧ frames.flatten ++ rest = s ∧
      (∀ frame ∈ frames, 4 ≤ frame.length) ∧ extractStreamFrame rest = .ok none ∧
      rest.length < 65555 ∧
      ∀ items : List StreamItem, s = (items.map StreamItem.bytes).flatten →
        frames = items.map StreamItem.bytes ∧ rest = [] := by
  refine ⟨(Framing.drain streamFormat s).1, (Framing.drain streamFormat s).2, ?_,
    readLoop_single s, Framing.drain_flatten s, ?_, ?_, ?_, ?_⟩
  · rw [readLoop_eq chunks hchunks, Framing.feed_eq_drain _ _ next_nil, List.nil_append, hcut]
  · exact Framing.forall_mem_drain (F := streamFormat) (P := fun n => 4 ≤ n)
      (fun buf n h => (frameSize_eq_some h).1) s
  · rw [extractStreamFrame_eq, Framing.next_drain]
  · exact length_lt_of_next_none (Framing.next_drain s)
  · intro items hitems
    have hcomplete : ∀ frame ∈ items.map StreamItem.bytes,
        Framing.Complete streamFormat frame := by
      intro frame hframe
      obtain ⟨item, -, rfl⟩ := List.mem_map.1 hframe
      exact item.complete
    have hdrain := Framing.drain_flatten_of_complete _ hcomplete next_nil
    rw [List.append_nil, ← hitems] at hdrain
    rw [hdrain]
    exact ⟨rfl, rfl⟩

/-- A Binding request and one byte of ChannelData, cut inside the first header, inside the second
    and before the padding. -/
theorem stream_deframing_two_packets :
    readLoop [] [[0, 1, 0], [0, 0x21, 0x12, 0xA4, 0x42, 0, 0, 0, 0, 0, 0, 0, 0, 0, 0, 0, 0, 0x40],
        [0, 0, 1, 7], [0, 0, 0]]
      = .ok ([[0, 1, 0, 0, 0x21, 0x12, 0xA4, 0x42, 0, 0, 0, 0, 0, 0, 0, 0, 0, 0, 0, 0],
          [0x40, 0, 0, 1, 7, 0, 0, 0]], []) := by
  obtain ⟨frames, rest, hloop, -, -, -, -, -, hitems⟩ :=
    stream_deframing _ [[0, 1, 0],
      [0, 0x21, 0x12, 0xA4, 0x42, 0, 0, 0, 0, 0, 0, 0, 0, 0, 0, 0, 0, 0x40], [0, 0, 1, 7],
      [0, 0, 0]]
      rfl (by decide)
  obtain ⟨rfl, rfl⟩ := hitems
    [.message ⟨⟨.binding, .request, 0, magicCookie, ⟨List.replicate 12 0, rfl⟩⟩, []⟩ (by decide),
     .channelData 0x4000 rfl [7] [0, 0, 0] (by decide) (by decide)] (by decide)
  exact hloop

/-! ## Writing -/

/-- `missing_stream_channel_padding`. -/
def missingStreamChannelPadding (data : Bytes) : Rust ℕ :=
  if data.length < 4 then pure 0
  else do
    let channelNum ← u16At data 0
    if !isChannelNumber channelNum then pure 0
    else
      let payloadLen := (← u16At data 2).toNat
      let unpaddedFrameLen := 4 + payloadLen
      if data.length < unpaddedFrameLen then pure 0
      else
        let paddedFrameLen := 4 + paddedLen payloadLen
        pure (paddedFrameLen - data.length)

/-- `write_stream_frame`: the bytes it writes. -/
def writeStreamFrame (data : Bytes) : Rust Bytes := do
  let paddingLen ← missingStreamChannelPadding data
  if paddingLen > 0 then
    let zeroPadding ← slice [0, 0, 0] 0 paddingLen
    pure (data ++ zeroPadding)
  else pure data

theorem missingStreamChannelPadding_put (x y : UInt16) (rest : Bytes) :
    missingStreamChannelPadding (putU16 x ++ (putU16 y ++ rest))
      = .ok (if isChannelNumber x = true ∧ y.toNat ≤ rest.length
          then paddedLen y.toNat - rest.length else 0) := by
  have hx := u16At_append [] x (putU16 y ++ rest)
  have hy := u16At_append (putU16 x) y rest
  have hlen : (putU16 x ++ (putU16 y ++ rest)).length = 4 + rest.length := by
    simp only [List.length_append, putU16_length]
    omega
  rw [putU16_length] at hy
  rw [missingStreamChannelPadding, hlen, if_neg (by omega)]
  simp only [List.nil_append, List.length_nil] at hx
  simp only [hx, hy, Rust.ok_bind]
  cases isChannelNumber x with
  | false => rfl
  | true =>
      simp only [Bool.not_true, Bool.false_eq_true, if_false, true_and]
      split
      · rw [if_neg (by omega)]
        rfl
      · rw [if_pos (by omega), Nat.add_sub_add_left]
        rfl

/-- The padding is found on every input, and it is never longer than the three zeros there are. -/
theorem exists_missingStreamChannelPadding (data : Bytes) :
    ∃ k, missingStreamChannelPadding data = .ok k ∧ k ≤ 3 := by
  rcases data with _ | ⟨a, _ | ⟨b, _ | ⟨c, _ | ⟨d, rest⟩⟩⟩⟩
  · exact ⟨0, rfl, by omega⟩
  · exact ⟨0, rfl, by omega⟩
  · exact ⟨0, rfl, by omega⟩
  · exact ⟨0, rfl, by omega⟩
  · have hdata : a :: b :: c :: d :: rest
        = putU16 (fromBeBytes16 a b) ++ (putU16 (fromBeBytes16 c d) ++ rest) := by
      rw [putU16_fromBeBytes16, putU16_fromBeBytes16]
      rfl
    rw [hdata, missingStreamChannelPadding_put]
    refine ⟨_, rfl, ?_⟩
    unfold paddedLen
    split <;> omega

theorem writeStreamFrame_of_missing {data : Bytes} {k : ℕ}
    (h : missingStreamChannelPadding data = .ok k) :
    writeStreamFrame data = .ok (data ++ List.replicate k 0) ∧ k ≤ 3 := by
  obtain ⟨k', hk', hle⟩ := exists_missingStreamChannelPadding data
  obtain rfl := Except.ok.inj (h.symm.trans hk')
  refine ⟨?_, hle⟩
  rw [writeStreamFrame, h, Rust.ok_bind]
  split
  · have hzeros : slice [0, 0, 0] 0 k = .ok (List.replicate k 0) := by
      interval_cases k <;> rfl
    rw [hzeros]
    rfl
  · next hzero =>
      obtain rfl : k = 0 := by omega
      rw [List.replicate_zero, List.append_nil]
      rfl

/-! ## What a stream client receives -/

theorem channelDataPacket_eq (chNum : UInt16) (payload : Bytes) :
    channelDataPacket chNum payload
      = putU16 chNum ++ (putU16 (UInt16.ofNat payload.length) ++ payload) := by
  rw [putU16_eq_shift, putU16_eq_shift]
  rfl

theorem dataIndication_fits (tid : TransactionId) (ip : Ipv4Addr) (port : UInt16) {payload : Bytes}
    (hlen : payload.length ≤ 65507) :
    (encodeAttributes (dataIndication tid (.v4 ip port) payload).attributes).length ≤ 65535 := by
  have hpeer := Attribute.encode_length ⟨Attribute.peerAddress,
    encodeXorAddress (.v4 ip port) magicCookie tid⟩ (by decide : 8 ≤ 65535)
  have hdata := Attribute.encode_length ⟨Attribute.data, payload⟩
    (show payload.length ≤ 65535 by omega)
  simp only [dataIndication, encodeAttributes, List.flatMap_cons, List.flatMap_nil,
    List.length_append, List.length_nil, hpeer, hdata, encodeXorAddress_length]
  omega

/-- A packet handed to `write_stream_frame`: a message whose attributes fit a 16-bit length, the
    Data indication of a datagram from an IPv4 peer, or the ChannelData of a datagram. -/
inductive StreamPacket where
  | message (m : Message) (hfit : (encodeAttributes m.attributes).length ≤ 65535)
  | dataIndication (systemTime : ℕ) (ip : Ipv4Addr) (port : UInt16) (payload : Bytes)
      (hlen : payload.length ≤ 65507)
  | channelData (n : UInt16) (hn : isChannelNumber n = true) (payload : Bytes)
      (hlen : payload.length ≤ 65507)

namespace StreamPacket

def bytes : StreamPacket → Bytes
  | .message m _ => m.encode
  | .dataIndication systemTime ip port payload _ =>
    buildDataIndication systemTime (.v4 ip port) payload
  | .channelData n _ payload _ => channelDataPacket n payload

/-- What a client reads from the frame of a packet: the message; from a Data indication the peer and
    the payload; from ChannelData the number and, in the length it declares, the payload. -/
def ReadsBack : StreamPacket → Bytes → Prop
  | .message m _, frame => ∃ m', Message.parse frame = .ok (some m') ∧
      m'.header.method = m.header.method ∧ m'.header.eventType = m.header.eventType ∧
      m'.header.transactionId = m.header.transactionId ∧ m'.attributes = m.attributes
  | .dataIndication _ ip port payload _, frame => ∃ m' peerAttr dataAttr,
      Message.parse frame = .ok (some m') ∧
      m'.header.method = .data ∧ m'.header.eventType = .indication ∧
      m'.getAttribute Attribute.peerAddress = some peerAttr ∧
      decodeXorAddress peerAttr.value magicCookie m'.header.transactionId
        = .ok (some (.v4 ip port)) ∧
      m'.getAttribute Attribute.data = some dataAttr ∧ dataAttr.value = payload
  | .channelData n _ payload _, frame => ∃ len, u16At frame 0 = .ok n ∧ u16At frame 2 = .ok len ∧
      slice frame 4 (4 + len.toNat) = .ok payload

/-- The padding that `write_stream_frame` adds. -/
def padding : StreamPacket → ℕ
  | .message _ _ | .dataIndication _ _ _ _ _ => 0
  | .channelData _ _ payload _ => paddedLen payload.length - payload.length

theorem missing_message (m : Message) : missingStreamChannelPadding m.encode = .ok 0 := by
  rw [Message.encode_eq_put, missingStreamChannelPadding_put, isChannelNumber_encodeTypeWord,
    if_neg (by simp)]

theorem missing_eq (packet : StreamPacket) :
    missingStreamChannelPadding packet.bytes = .ok packet.padding := by
  cases packet with
  | message m hfit => exact missing_message m
  | dataIndication systemTime ip port payload hlen => exact missing_message _
  | channelData n hn payload hlen =>
      rw [bytes, channelDataPacket_eq, missingStreamChannelPadding_put,
        toNat_ofNat_of_le_65535 (by omega), if_pos ⟨hn, le_rfl⟩]
      rfl

theorem complete (packet : StreamPacket) :
    Framing.Complete streamFormat (packet.bytes ++ List.replicate packet.padding 0) := by
  cases packet with
  | message m hfit =>
      rw [bytes, padding, List.replicate_zero, List.append_nil]
      exact complete_message m hfit
  | dataIndication systemTime ip port payload hlen =>
      rw [bytes, padding, List.replicate_zero, List.append_nil]
      exact complete_message _ (dataIndication_fits _ ip port hlen)
  | channelData n hn payload hlen =>
      rw [bytes, channelDataPacket_eq, List.append_assoc, List.append_assoc]
      refine complete_channelData hn (by omega) ?_
      rw [List.length_replicate, padding]
      unfold paddedLen
      omega

theorem readsBack (packet : StreamPacket) (t : Bytes) : packet.ReadsBack (packet.bytes ++ t) := by
  cases packet with
  | message m hfit => exact ⟨_, Message.parse_encode m hfit t, rfl, rfl, rfl, rfl⟩
  | dataIndication systemTime ip port payload hlen =>
      refine ⟨_, _, _, Message.parse_encode _ (dataIndication_fits _ ip port hlen) t, rfl, rfl, rfl,
        ?_, rfl, rfl⟩
      rw [decodeXorAddress_eq, xorAddressOf_encodeXorAddress]
  | channelData n hn payload hlen =>
      refine ⟨UInt16.ofNat payload.length, ?_⟩
      rw [bytes, channelDataPacket_eq, toNat_ofNat_of_le_65535 (by omega)]
      have hn' := u16At_append [] n (putU16 (UInt16.ofNat payload.length) ++ (payload ++ t))
      have hlen' := u16At_append (putU16 n) (UInt16.ofNat payload.length) (payload ++ t)
      have hpayload := slice_append (putU16 n ++ putU16 (UInt16.ofNat payload.length)) payload t
      simp only [List.append_assoc, List.length_append, putU16_length, Nat.reduceAdd,
        List.length_nil, List.nil_append] at hn' hlen' hpayload ⊢
      exact ⟨hn', hlen', hpayload⟩

end StreamPacket

/-- **Peer data reaches a stream client intact.** Whatever packets are written, no write panics;
    draining what was written gives one frame for each packet, in order, which is the packet with at
    most three zeros after it; and each frame reads back. -/
theorem stream_delivery (packets : List StreamPacket) :
    ∃ frames, packets.mapM (fun packet => writeStreamFrame packet.bytes) = .ok frames ∧
      drainFrames frames.flatten = .ok (frames, []) ∧
      List.Forall₂ (fun packet frame => packet.ReadsBack frame ∧
        ∃ k ≤ 3, frame = packet.bytes ++ List.replicate k 0) packets frames := by
  refine ⟨packets.map (fun packet => packet.bytes ++ List.replicate packet.padding 0), ?_, ?_, ?_⟩
  · induction packets with
    | nil => rfl
    | cons packet packets ih =>
        rw [List.mapM_cons, (writeStreamFrame_of_missing packet.missing_eq).1, Rust.ok_bind, ih]
        rfl
  · have hcomplete : ∀ frame ∈ packets.map
        (fun packet => packet.bytes ++ List.replicate packet.padding 0),
        Framing.Complete streamFormat frame := by
      intro frame hframe
      obtain ⟨packet, -, rfl⟩ := List.mem_map.1 hframe
      exact packet.complete
    have hdrain := Framing.drain_flatten_of_complete _ hcomplete next_nil
    rw [List.append_nil] at hdrain
    rw [drainFrames_eq, hdrain]
  · rw [List.forall₂_map_right_iff, List.forall₂_same]
    intro packet _
    exact ⟨packet.readsBack _, packet.padding,
      (writeStreamFrame_of_missing packet.missing_eq).2, rfl⟩

end Miuturn
