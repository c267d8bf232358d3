import Miuturn.Answers
import Miuturn.Login

set_option autoImplicit false

/-! # Every answer is a well-formed answer to its request

The handlers build their answers in four ways (the fast path for Binding, the success and error
builders, and the hand-built Allocate answer) and sign them one by one. Here it is shown of all of
them at once, from `processMessage_reply`: the bytes are one message with a matching length field,
the message answers the request, and a success is signed with the key that let the request in. -/

open RustStd

namespace Miuturn

variable {D : Digests} {env : Env} {server : TurnServer} {msg : Message} {client : SocketAddr}
  {u : String}

/-- The length field of an encoded message counts the bytes after the header. -/
theorem Message.u16At_encode (m : Message) (hfit : (encodeAttributes m.attributes).length ≤ 65535) :
    ∃ len, u16At m.encode 2 = .ok len ∧ m.encode.length = 20 + len.toNat := by
  refine ⟨UInt16.ofNat (encodeAttributes m.attributes).length, ?_, ?_⟩
  · rw [Message.encode_eq_put]
    exact u16At_append (putU16 (encodeTypeWord m.header.method m.header.eventType)) _ _
  · rw [Message.encode_length, toNat_ofNat_of_le_65535 hfit]

/-- A success for a request that has passed is signed with the key that let it in. -/
theorem signResponse_of_passed (henabled : server.authDisabled = false)
    (hauth : verifyTurnAuth D env server msg client = .ok (.ok u)) (response : Message) :
    ∃ pw, Authenticates D env server msg client u pw ∧
      signResponse D env server u response
        = addResponseMessageIntegrity D response
            (computeMessageIntegrityKey D u server.realm pw) := by
  obtain ⟨pw, hpw⟩ := (verifyTurnAuth_eq_ok henabled).1 hauth
  refine ⟨pw, hpw, ?_⟩
  unfold signResponse
  rw [henabled, if_neg (by simp), hpw.password]

/-- The bytes are a well-formed STUN answer to the message: one message with a matching length
    field, of class Success or Error, with the method and transaction id of the message; and with
    auth enabled a Success for a request that authenticates is signed with the key that let the
    request in. -/
def IsAnswer (D : Digests) (env : Env) (server : TurnServer) (msg : Message) (client : SocketAddr)
    (b : Bytes) : Prop :=
  (∃ len, u16At b 2 = .ok len ∧ b.length = 20 + len.toNat) ∧
  ∃ answer, Message.parse b = .ok (some answer) ∧
    (answer.header.eventType = .success ∨ answer.header.eventType = .error) ∧
    answer.header.method = msg.header.method ∧
    answer.header.transactionId = msg.header.transactionId ∧
    (server.authDisabled = false → msg.header.method ∈ authenticatedMethods →
      answer.header.eventType = .success →
      ∃ u pw, Authenticates D env server msg client u pw ∧
        verifyMessageIntegrity D answer (computeMessageIntegrityKey D u server.realm pw)
          = .ok true)

/-- Every answer of `process_message` to an IPv4 client is well formed, if its attributes fit a
    16-bit length. -/
theorem processMessage_isAnswer {ip : Ipv4Addr} {port : UInt16} {o : Outcome} {b : Bytes}
    (h : processMessage D env server msg (.v4 ip port) = .ok o) (hb : o.response = some b)
    (hfit : b.length ≤ 20 + 65535) : IsAnswer D env server msg (.v4 ip port) b := by
  rcases processMessage_reply h hb with ⟨hm, rfl⟩ | ⟨u, response, rfl, hreply, hpassed⟩
  · rw [createBindingResponseFast_v4]
    have hlen := bindingSuccess_length msg.header.transactionId ip port
    have hparse := Message.parse_encode (bindingSuccess msg.header.transactionId ip port)
      (by omega) []
    rw [List.append_nil] at hparse
    refine ⟨Message.u16At_encode _ (by omega), _, hparse, Or.inl rfl, hm.symm, rfl, ?_⟩
    intro _ hmethod _
    rw [hm] at hmethod
    exact absurd hmethod (by decide)
  · rw [Message.encode_length] at hfit
    have hparse := Message.parse_encode response (by omega) []
    rw [List.append_nil] at hparse
    refine ⟨Message.u16At_encode _ (by omega), _, hparse, ?_, ?_, ?_, ?_⟩
    · rcases hreply.header with heq | heq <;> simp [heq, answerHeader]
    · rcases hreply.header with heq | heq <;> simp [heq, answerHeader]
    · rcases hreply.header with heq | heq <;> simp [heq, answerHeader]
    · intro henabled _ hclass
      cases hreply with
      | error attributes => exact EventType.noConfusion hclass
      | success hunsigned =>
          obtain ⟨pw, hpw, hsigned⟩ := signResponse_of_passed henabled (hpassed hclass)
            ⟨answerHeader msg .success, _⟩
          rw [hsigned]
          have hverified := fun length => verifyMessageIntegrity_signed D
            (computeMessageIntegrityKey D u server.realm pw) hunsigned length magicCookie []
          simp only [List.append_nil] at hverified
          exact ⟨u, pw, hpw, hverified _⟩

/-- The Allocate of `alice` after a challenge is answered with a signed Success. -/
theorem processMessage_isAnswer_allocate :
    ∃ o b, processMessage sampleDigests (sampleEnv 1) challengedWorld.server
        (sampleLogin .allocate "secret" []) sampleClient = .ok o ∧ o.response = some b ∧
      answerClass b = some .success ∧
      IsAnswer sampleDigests (sampleEnv 1) challengedWorld.server
        (sampleLogin .allocate "secret" []) sampleClient b := by
  have hanswer : (processMessage sampleDigests (sampleEnv 1) challengedWorld.server
      (sampleLogin .allocate "secret" []) sampleClient).toOption.bind
        (fun o => o.response.map (fun b => (answerClass b, decide (b.length ≤ 20 + 65535))))
      = some (some .success, true) := by decide +kernel
  obtain ⟨o, ho, hresponse⟩ := Option.bind_eq_some_iff.1 hanswer
  obtain ⟨b, hb, hclass⟩ := Option.map_eq_some_iff.1 hresponse
  obtain ⟨hclass, hfit⟩ := Prod.mk.inj hclass
  have hprocess : processMessage sampleDigests (sampleEnv 1) challengedWorld.server
      (sampleLogin .allocate "secret" []) sampleClient = .ok o := by
    cases hp : processMessage sampleDigests (sampleEnv 1) challengedWorld.server
        (sampleLogin .allocate "secret" []) sampleClient with
    | error f =>
        rw [hp] at ho
        exact absurd ho (by simp [Except.toOption])
    | ok o' =>
        rw [hp] at ho
        exact congrArg Except.ok (Option.some.inj ho)
  exact ⟨o, b, hprocess, hb, hclass, processMessage_isAnswer hprocess hb (of_decide_eq_true hfit)⟩

end Miuturn
