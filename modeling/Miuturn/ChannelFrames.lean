import Miuturn.Permissions

set_option autoImplicit false

/-! # ChannelData and its declared length

`handle_channel_data` serves datagrams, which arrive as they were sent, and frames of a stream,
which are padded to a multiple of four. It sends the bytes behind the header, as many as the length
field says or as there are: what is behind them is never sent, but of a datagram that is shorter
than it says the rest is sent all the same. -/

open RustStd

namespace Miuturn

variable {env : Env} {server : TurnServer} {client : SocketAddr} {data : Bytes}

/-- A channel number leads out of a relay socket of the server: the client has an allocation with a
    socket, and the allocation has a binding of that number. -/
def ChannelOut (server : TurnServer) (client : SocketAddr) (n : UInt16) : Prop :=
  ∃ a relay b, server.allocationTable.getAllocationByClient client = some a ∧
    a.relay = some relay ∧ server.channelTable.getByChannel a.relayedAddr n = some b

/-- A frame is sent if its number leads out of a socket that takes it, and what is sent are bytes
    behind the header, at most as many as declared. -/
theorem handleChannelData_sent {o : Outcome} {packet : Packet}
    (h : handleChannelData env server data client = .ok o) (hsent : o.sent = some packet) :
    4 ≤ data.length ∧ env.sendOk = true ∧ ChannelOut server client (wordAt data 0) ∧
      packet.payload = (data.drop 4).take (wordAt data 2).toNat := by
  unfold handleChannelData at h
  by_cases hshort : data.length < 4
  · rw [if_pos hshort] at h
    cases h
    cases hsent
  · have hslice := slice_eq_ok (show 4 ≤ 4 + min (wordAt data 2).toNat (data.length - 4) by omega)
      (show 4 + min (wordAt data 2).toNat (data.length - 4) ≤ data.length by omega)
    rw [if_neg hshort, u16At_eq_wordAt (by omega), Rust.ok_bind, u16At_eq_wordAt (by omega),
      Rust.ok_bind] at h
    dsimp only at h
    rw [hslice, Rust.ok_bind, Nat.add_sub_cancel_left] at h
    refine ⟨not_lt.1 hshort, ?_⟩
    split at h
    · cases h
      cases hsent
    · next a ha =>
        split at h
        · next b relay hb hrelay =>
            cases h
            dsimp only at hsent
            split at hsent
            · next hok =>
                cases hsent
                refine ⟨hok, ⟨a, relay, b, ha, hrelay, hb⟩, ?_⟩
                show (data.drop 4).take (min (wordAt data 2).toNat (data.length - 4)) = _
                rw [← List.length_drop, List.take_eq_take_iff]
                omega
            · cases hsent
        · cases h
          cases hsent

theorem frameSize_append {data : Bytes} (h : 4 ≤ data.length) (rest : Bytes) :
    frameSize (data ++ rest) = some (frameLen (wordAt data 0) (wordAt data 2)) := by
  match data, h with
  | _ :: _ :: _ :: _ :: _, _ => rfl

/-- ChannelData from a stream is as long as it says. -/
theorem whole_of_stream {buf rest : Bytes} (hchannel : isChannelNumber (wordAt data 0) = true)
    (h : extractStreamFrame buf = .ok (some (data, rest))) :
    4 + (wordAt data 2).toNat ≤ data.length := by
  rw [extractStreamFrame_eq] at h
  obtain ⟨hsize, rfl⟩ := Framing.next_eq_some.1 (Except.ok.inj h)
  have hfour := (frameSize_eq_some hsize).1
  have hdata := Option.some.inj (hsize.symm.trans (frameSize_append hfour rest))
  rw [frameLen, if_pos hchannel, paddedLen] at hdata
  omega

/-- **Whole ChannelData.** What `handle_channel_data` sends is exactly the declared number of bytes
    behind the header, if the frame has so many; a shorter one is sent as it is, if it has a header,
    its number leads out of a socket and the socket takes it. Frames of a stream are never
    shorter. -/
theorem channelData_whole_iff (env : Env) (server : TurnServer) (data : Bytes)
    (client : SocketAddr) (hchannel : isChannelNumber (wordAt data 0) = true) :
    ((∀ o packet, handleChannelData env server data client = .ok o → o.sent = some packet →
        packet.payload.length = (wordAt data 2).toNat ∧ packet.payload <+: data.drop 4) ↔
      4 + (wordAt data 2).toNat ≤ data.length ∨ data.length < 4 ∨
        ¬ ChannelOut server client (wordAt data 0) ∨ env.sendOk = false) ∧
    ∀ buf rest, extractStreamFrame buf = .ok (some (data, rest)) →
      4 + (wordAt data 2).toNat ≤ data.length := by
  refine ⟨⟨fun hwhole => ?_, ?_⟩, fun buf rest h => whole_of_stream hchannel h⟩
  · by_contra hcut
    simp only [not_or, not_not, Bool.not_eq_false] at hcut
    obtain ⟨hcut, hfour, ⟨a, relay, b, ha, hrelay, hb⟩, hok⟩ := hcut
    have hout := handleChannelData_bound env (not_lt.1 hfour) (u16At_eq_wordAt (by omega)) ha hrelay
      hb
    rw [if_pos hok] at hout
    have hlen := (hwhole _ _ hout rfl).1
    rw [(handleChannelData_sent hout rfl).2.2.2, List.length_take, List.length_drop] at hlen
    omega
  · intro hcond o packet ho hpacket
    obtain ⟨hfour, hok, hout, hpayload⟩ := handleChannelData_sent ho hpacket
    rcases hcond with hfits | hshort | hnot | hfails
    · rw [hpayload]
      refine ⟨?_, List.take_prefix _ _⟩
      rw [List.length_take, List.length_drop]
      omega
    · omega
    · exact absurd hout hnot
    · exact absurd (hok.symm.trans hfails) (by decide)

/-- A frame with one byte and the padding of a stream, on the channel of a permitted peer: the peer
    gets the byte. -/
theorem channelData_whole_iff_padded :
    (handleChannelData (sampleEnv 4) permittedWorld.server [0x40, 0, 0, 1, 7, 0, 0, 0]
      sampleClient).toOption.bind Outcome.sent
        = some ⟨.v4 ⟨10, 0, 0, 1⟩ 5000, samplePeer, [7]⟩ ∧
    ∀ o packet, handleChannelData (sampleEnv 4) permittedWorld.server [0x40, 0, 0, 1, 7, 0, 0, 0]
        sampleClient = .ok o → o.sent = some packet →
      packet.payload.length = 1 ∧ packet.payload <+: [7, 0, 0, 0] :=
  ⟨by decide +kernel, (channelData_whole_iff (sampleEnv 4) permittedWorld.server
    [0x40, 0, 0, 1, 7, 0, 0, 0] sampleClient rfl).1.2 (Or.inl (by decide))⟩

/-- A datagram that declares five bytes and carries two: the peer gets the two. -/
theorem channelData_cut_relayed :
    isChannelNumber (wordAt [0x40, 0, 0, 5, 7, 8] 0) = true ∧
    (handleChannelData (sampleEnv 4) permittedWorld.server [0x40, 0, 0, 5, 7, 8]
      sampleClient).toOption.bind Outcome.sent
        = some ⟨.v4 ⟨10, 0, 0, 1⟩ 5000, samplePeer, [7, 8]⟩ :=
  ⟨rfl, by decide +kernel⟩

end Miuturn
