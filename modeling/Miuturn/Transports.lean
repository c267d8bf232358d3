import Miuturn.Answers

set_option autoImplicit false

/-! # Datagrams and stream frames compared

`handle_tcp_message` serves TCP and TLS, `handle_udp_message` UDP and DTLS. They differ in one
place: what `Message::parse` rejects is given up on a stream, and is read once more by the fallback
reader if it came as a datagram. So a frame is treated alike on all transports exactly if the
fallback reader has nothing to add. -/

open RustStd

namespace Miuturn

variable {D : Digests} {env : Env} {server : TurnServer} {msg : Message} {client : SocketAddr}

theorem processMessage_eq_unchanged_iff :
    processMessage D env server msg client = .ok (.unchanged server none) ↔
      Ignored D env server msg client := by
  rw [← processMessage_ignored_iff]
  constructor
  · intro h
    exact ⟨_, h, rfl, rfl⟩
  · rintro ⟨o, ho, hnone, hserver⟩
    rw [ho]
    -- a step that is not answered and changes nothing sends nothing either
    rcases (processMessage_effect ho).silent_cases hnone with rfl | ⟨-, peer, data, rfl⟩
    · rfl
    · rcases sendToPeer_cases server.allocationTable env.sendOk client peer data with
        heq | ⟨e, relay, -, -, heq⟩
      · rw [heq]
        rfl
      · rw [heq] at hserver
        exact absurd (congrArg TurnServer.allocationTable hserver) (countPacket_ne _ _ _)

/-- The frame is handled alike on a stream and as a datagram: the same answer, the same packet and
    the same server after it. In particular both drop a frame that is not ChannelData and that
    `Message::parse` rejects. -/
structure TransportIndependent (D : Digests) (env : Env) (server : TurnServer) (data : Bytes)
    (client : SocketAddr) : Prop where
  same : handleTcpMessage D env server data client = handleUdpMessage D env server data client
  rejected : isChannelDataFrame data = .ok false → Message.parse data = .ok none →
    handleTcpMessage D env server data client = .ok (.unchanged server none) ∧
      handleUdpMessage D env server data client = .ok (.unchanged server none)

/-- The fallback reader does not take ChannelData for a message. -/
theorem not_isChannelDataFrame_of_fallbackParse {data : Bytes}
    (h : fallbackParse data = .ok (some msg)) : isChannelDataFrame data ≠ .ok true := by
  obtain ⟨hi, lo, hhi, hlo, hmethod⟩ := fallbackMethod_of_fallbackParse h
  intro hframe
  unfold isChannelDataFrame at hframe
  split at hframe
  · exact absurd hframe (by simp)
  · simp only [u16At, hhi, hlo, Rust.ok_bind, Rust.pure_eq_ok, ← shiftOr16_eq, Except.ok.injEq,
      decide_eq_true_eq] at hframe
    have htable : ∀ word, fallbackMethod word = some msg.header.method → word.toNat ≤ 9 := by
      intro word hword
      unfold fallbackMethod at hword
      split_ifs at hword with h1 h2 h3 h4 h5 h6
      all_goals subst_vars; decide
    have hle := htable _ hmethod
    omega

/-- Either the two handlers do the same, and the fallback reader finds nothing; or a stream drops
    the frame and a datagram is handled as the message that the fallback reader finds. -/
theorem handleUdpMessage_eq_tcp_or (D : Digests) (env : Env) (server : TurnServer) (data : Bytes)
    (client : SocketAddr) :
    (handleTcpMessage D env server data client = handleUdpMessage D env server data client ∧
      (Message.parse data = .ok none → ∀ msg, fallbackParse data ≠ .ok (some msg))) ∨
    ∃ msg, Message.parse data = .ok none ∧ fallbackParse data = .ok (some msg) ∧
      handleTcpMessage D env server data client = .ok (.unchanged server none) ∧
      handleUdpMessage D env server data client = processMessage D env server msg client := by
  obtain ⟨isData, hdata⟩ := exists_isChannelDataFrame data
  obtain ⟨parsed, hparsed⟩ := Message.exists_parse data
  obtain ⟨fallback, hfallback⟩ := exists_fallbackParse data
  rw [handleTcpMessage, handleTcpWith, handleUdpMessage, handleUdpWith, ← fallbackParse]
  by_cases hlen : data.length < 4
  · have hnone : Message.parse data = .ok none := by
      unfold Message.parse
      exact if_pos (by omega)
    have hshort : fallbackParse data = .ok none := by
      unfold fallbackParse fallbackParseIn
      exact if_pos (by omega)
    refine Or.inl ⟨?_, fun _ msg h => absurd (hshort.symm.trans h) (by simp)⟩
    rw [if_pos hlen, isChannelDataFrame, if_pos hlen, hnone]
    rfl
  · rw [if_neg hlen]
    cases isData with
    | true =>
        refine Or.inl ⟨?_, fun _ msg h => not_isChannelDataFrame_of_fallbackParse h hdata⟩
        rw [hdata]
        rfl
    | false =>
        cases parsed with
        | some msg =>
            refine Or.inl ⟨?_, fun h => absurd (hparsed.symm.trans h) (by simp)⟩
            rw [hdata, hparsed]
            rfl
        | none =>
            cases fallback with
            | some msg =>
                refine Or.inr ⟨msg, hparsed, hfallback, ?_, ?_⟩
                · rw [hdata, hparsed]
                  rfl
                · rw [hdata, hparsed, hfallback]
                  rfl
            | none =>
                refine Or.inl ⟨?_, fun _ msg h => absurd (hfallback.symm.trans h) (by simp)⟩
                rw [hdata, hparsed, hfallback]
                rfl

/-- A stream and datagrams treat a frame alike exactly if the fallback reader has nothing to add: it
    is not reached, reads nothing, or reads a message that is ignored. -/
theorem transport_independent_iff (D : Digests) (env : Env) (server : TurnServer) (data : Bytes)
    (client : SocketAddr) :
    TransportIndependent D env server data client ↔
      (Message.parse data = .ok none → ∀ msg, fallbackParse data = .ok (some msg) →
        Ignored D env server msg client) := by
  have htcp : isChannelDataFrame data = .ok false → Message.parse data = .ok none →
      handleTcpMessage D env server data client = .ok (.unchanged server none) := by
    intro hframe hparse
    unfold handleTcpMessage handleTcpWith
    rw [hframe, hparse]
    rfl
  rcases handleUdpMessage_eq_tcp_or D env server data client with
    ⟨hsame, hno⟩ | ⟨msg, hparse, hfallback, hdrop, hread⟩
  · constructor
    · intro _ hparse msg hmsg
      exact absurd hmsg (hno hparse msg)
    · intro _
      exact ⟨hsame, fun hframe hparse => ⟨htcp hframe hparse, hsame ▸ htcp hframe hparse⟩⟩
  · constructor
    · intro h _ msg' hmsg'
      obtain rfl : msg = msg' := Option.some.inj (Except.ok.inj (hfallback.symm.trans hmsg'))
      rw [← processMessage_eq_unchanged_iff, ← hread, ← h.same, hdrop]
    · intro h
      have hignored := processMessage_eq_unchanged_iff.2 (h hparse msg hfallback)
      rw [← hread] at hignored
      exact ⟨hdrop.trans hignored.symm, fun _ _ => ⟨hdrop, hignored⟩⟩

/-- A Binding request whose body is two stray bytes. -/
def strayBody : Bytes :=
  MessageHeader.encode ⟨.binding, .request, 2, magicCookie, sampleTransaction⟩ ++ [0, 0]

/-- The two bytes are no attribute, so a stream drops the request; a datagram is answered. -/
theorem stray_body_answered_in_datagram :
    extractStreamFrame strayBody = .ok (some (strayBody, [])) ∧
      handleTcpMessage sampleDigests (sampleEnv 0) (sampleServer true none) strayBody sampleClient
        = .ok (.unchanged (sampleServer true none) none) ∧
      handleUdpMessage sampleDigests (sampleEnv 0) (sampleServer true none) strayBody sampleClient
        = .ok (.unchanged (sampleServer true none)
            (some (createBindingResponseFast sampleTransaction sampleClient))) ∧
      ¬ TransportIndependent sampleDigests (sampleEnv 0) (sampleServer true none) strayBody
        sampleClient := by
  have hparse : Message.parse strayBody = .ok none := by decide +kernel
  have hfallback : fallbackParse strayBody
      = .ok (some ⟨⟨.binding, .request, 2, magicCookie, sampleTransaction⟩, []⟩) := by
    decide +kernel
  have htcp : handleTcpMessage sampleDigests (sampleEnv 0) (sampleServer true none) strayBody
      sampleClient = .ok (.unchanged (sampleServer true none) none) := by
    unfold handleTcpMessage handleTcpWith
    rw [show isChannelDataFrame strayBody = .ok false by decide, hparse]
    rfl
  have hudp : handleUdpMessage sampleDigests (sampleEnv 0) (sampleServer true none) strayBody
      sampleClient = .ok (.unchanged (sampleServer true none)
        (some (createBindingResponseFast sampleTransaction sampleClient))) := by
    rw [handleUdpMessage_of_reads ⟨by decide, by decide, Or.inr ⟨hparse, hfallback⟩⟩]
    rfl
  refine ⟨by decide +kernel, htcp, hudp, fun h => ?_⟩
  have hsame := congrArg (fun r => r.toOption.map Outcome.response)
    (htcp.symm.trans (h.same.trans hudp))
  exact absurd hsame (by simp [Except.toOption, Outcome.unchanged])

end Miuturn
