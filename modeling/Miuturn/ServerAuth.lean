import Miuturn.MessageProofs
import Miuturn.Server

set_option autoImplicit false

/-! # What authentication decides

`verify_turn_auth` is a chain of early returns. Here it is taken apart once: `Claims` collects the
conditions under which a request gets as far as the integrity check, `Authenticates` those under
which it passes, and the remaining outcomes are an error answer (with at most one new nonce) or the
fault of reading twenty bytes from a shorter MESSAGE-INTEGRITY. Everything else in the development
uses these characterisations and does not unfold the function again. -/

open RustStd

namespace Miuturn

/-! ## The class of an answer -/

/-- The class in the header of an encoded message, as its receiver reads it. -/
def answerClass (answer : Bytes) : Option EventType :=
  match MessageHeader.parse answer with
  | .ok (some header) => some header.eventType
  | _ => none

theorem answerClass_encode (m : Message) : answerClass m.encode = some m.header.eventType := by
  unfold answerClass Message.encode
  rw [MessageHeader.parse_encode _ rfl]

@[simp] theorem answerClass_errorResponse (msg : Message) (code : ErrorCode)
    (reason : Option String) (server : TurnServer) :
    answerClass (errorResponseMessage msg code reason server).encode = some .error :=
  answerClass_encode _

@[simp] theorem answerClass_unauthorized (env : Env) (server : TurnServer) (msg : Message)
    (reason : Option String) :
    answerClass (unauthorizedMessage env server msg reason).encode = some .error :=
  answerClass_encode _

/-- Signing keeps the header, so a success answer stays one. -/
theorem signResponse_header (D : Digests) (env : Env) (server : TurnServer) (username : String)
    (response : Message) :
    (signResponse D env server username response).header = response.header := by
  unfold signResponse
  split
  · rfl
  · split <;> rfl

/-! ## The decision -/

/-- The request gets as far as the integrity check: the ACL admits its address, its first NONCE is
    in the map and at most 600 whole seconds old, and `pw` is the password looked up for its first
    USERNAME `u`. -/
structure Claims (env : Env) (server : TurnServer) (msg : Message) (client : SocketAddr)
    (u pw : String) : Prop where
  acl : server.aclAdmits client = true
  nonce : ∃ nonceAttr entry, msg.getAttribute Attribute.nonce = some nonceAttr ∧
    server.nonceMap.lookup (fromUtf8Lossy nonceAttr.value) = some entry ∧
    asSecs (env.now - entry.createdAt) ≤ 600
  username : ∃ usernameAttr, msg.getAttribute Attribute.username = some usernameAttr ∧
    fromUtf8Lossy usernameAttr.value = u
  password : server.getPasswordForUser env u = some pw

/-- The digest a request of user `u` has to carry. -/
def expectedIntegrity (D : Digests) (server : TurnServer) (msg : Message) (u pw : String) : Bytes :=
  (D.hmacSha1 (computeMessageIntegrityKey D u server.realm pw)
    (integrityInput msg.header msg.beforeIntegrity)).val

/-- The request passes: moreover the first 20 bytes of its first MESSAGE-INTEGRITY are the
    digest. -/
structure Authenticates (D : Digests) (env : Env) (server : TurnServer) (msg : Message)
    (client : SocketAddr) (u pw : String) : Prop extends Claims env server msg client u pw where
  integrity : ∃ integrityAttr, msg.getAttribute Attribute.messageIntegrity = some integrityAttr ∧
    20 ≤ integrityAttr.value.length ∧
    integrityAttr.value.take 20 = expectedIntegrity D server msg u pw

variable {D : Digests} {env : Env} {server : TurnServer} {msg : Message} {client : SocketAddr}

theorem Claims.unique {u u' pw pw' : String} (h : Claims env server msg client u pw)
    (h' : Claims env server msg client u' pw') : u = u' ∧ pw = pw' := by
  obtain ⟨attr, hattr, rfl⟩ := h.username
  obtain ⟨attr', hattr', rfl⟩ := h'.username
  obtain rfl := Option.some.inj (hattr.symm.trans hattr')
  exact ⟨rfl, Option.some.inj (h.password.symm.trans h'.password)⟩

/-- What a claim says about the nonce that the request carries. -/
theorem Claims.nonce_entry {u pw : String} (h : Claims env server msg client u pw)
    {attr : Attribute} (hattr : msg.getAttribute Attribute.nonce = some attr) :
    ∃ entry, server.nonceMap.lookup (fromUtf8Lossy attr.value) = some entry ∧
      asSecs (env.now - entry.createdAt) ≤ 600 := by
  obtain ⟨attr', entry, hattr', hentry, hage⟩ := h.nonce
  obtain rfl := Option.some.inj (hattr.symm.trans hattr')
  exact ⟨entry, hentry, hage⟩

/-- What it says about the user that the request names. -/
theorem Claims.password_of {u pw : String} (h : Claims env server msg client u pw)
    {attr : Attribute} (hattr : msg.getAttribute Attribute.username = some attr) :
    server.getPasswordForUser env (fromUtf8Lossy attr.value) = some pw := by
  obtain ⟨attr', hattr', rfl⟩ := h.username
  obtain rfl := Option.some.inj (hattr.symm.trans hattr')
  exact h.password

/-- `verify_turn_auth`, taken apart: either the request gets as far as the integrity check, or it is
    answered with an error before that. -/
theorem verifyTurnAuth_cases (D : Digests) (env : Env) (msg : Message) (client : SocketAddr)
    (henabled : server.authDisabled = false) :
    (∃ u pw, Claims env server msg client u pw ∧
      verifyTurnAuth D env server msg client =
        (verifyMessageIntegrity D msg (computeMessageIntegrityKey D u server.realm pw) >>=
          fun ok => if ok then pure (.ok u)
            else pure (.error (create401Response env server msg (some "Bad integrity"))))) ∨
    ((∀ u pw, ¬ Claims env server msg client u pw) ∧
      (verifyTurnAuth D env server msg client
          = .ok (.error (server, createErrorResponseBytes msg .forbidden server)) ∨
        ∃ reason, verifyTurnAuth D env server msg client
          = .ok (.error (create401Response env server msg reason)))) := by
  unfold verifyTurnAuth
  rw [henabled, if_neg (by simp)]
  cases hacl : server.aclAdmits client with
  | false => exact Or.inr ⟨fun u pw hc => by simp [hc.acl] at hacl, Or.inl rfl⟩
  | true =>
      rw [if_neg (by simp)]
      cases hn : msg.getAttribute Attribute.nonce with
      | none =>
          refine Or.inr ⟨fun u pw hc => ?_, Or.inr ⟨none, rfl⟩⟩
          obtain ⟨attr, entry, hattr, -⟩ := hc.nonce
          exact absurd (hn.symm.trans hattr) (by simp)
      | some nonceAttr =>
          cases hu : msg.getAttribute Attribute.username with
          | none =>
              refine Or.inr ⟨fun u pw hc => ?_, Or.inr ⟨none, rfl⟩⟩
              obtain ⟨attr, hattr, -⟩ := hc.username
              exact absurd (hu.symm.trans hattr) (by simp)
          | some usernameAttr =>
              dsimp only
              cases hentry : server.nonceMap.lookup (fromUtf8Lossy nonceAttr.value) with
              | none =>
                  refine Or.inr ⟨fun u pw hc => ?_, Or.inr ⟨_, rfl⟩⟩
                  obtain ⟨entry, he, -⟩ := hc.nonce_entry hn
                  exact absurd (hentry.symm.trans he) (by simp)
              | some entry =>
                  dsimp only
                  by_cases hage : asSecs (env.now - entry.createdAt) > 600
                  · rw [if_pos hage]
                    refine Or.inr ⟨fun u pw hc => ?_, Or.inr ⟨_, rfl⟩⟩
                    obtain ⟨entry', he, hle⟩ := hc.nonce_entry hn
                    obtain rfl := Option.some.inj (hentry.symm.trans he)
                    exact absurd hage (not_lt.2 hle)
                  · rw [if_neg hage]
                    cases hpw : server.getPasswordForUser env
                        (fromUtf8Lossy usernameAttr.value) with
                    | none =>
                        refine Or.inr ⟨fun u pw hc => ?_, Or.inr ⟨_, rfl⟩⟩
                        exact absurd (hpw.symm.trans (hc.password_of hu)) (by simp)
                    | some pw =>
                        refine Or.inl ⟨_, pw, ⟨hacl, ⟨nonceAttr, entry, hn, hentry, not_lt.1 hage⟩,
                          ⟨usernameAttr, hu, rfl⟩, hpw⟩, rfl⟩

/-- `verify_message_integrity`, by the length of the attribute it reads. -/
theorem verifyMessageIntegrity_cases (D : Digests) (msg : Message) (key : Bytes) :
    (msg.getAttribute Attribute.messageIntegrity = none ∧
      verifyMessageIntegrity D msg key = .ok false) ∨
    ∃ attr, msg.getAttribute Attribute.messageIntegrity = some attr ∧
      ((attr.value.length < 20 ∧ verifyMessageIntegrity D msg key = .error .sliceOutOfRange) ∨
        (20 ≤ attr.value.length ∧ verifyMessageIntegrity D msg key = .ok
          ((D.hmacSha1 key (integrityInput msg.header msg.beforeIntegrity)).val
            == attr.value.take 20))) := by
  unfold verifyMessageIntegrity
  cases hattr : msg.getAttribute Attribute.messageIntegrity with
  | none => exact Or.inl ⟨rfl, rfl⟩
  | some attr =>
      refine Or.inr ⟨attr, rfl, ?_⟩
      by_cases hlen : attr.value.length < 20
      · refine Or.inl ⟨hlen, ?_⟩
        dsimp only
        rw [slice, if_neg (by omega)]
        rfl
      · refine Or.inr ⟨not_lt.1 hlen, ?_⟩
        dsimp only
        rw [slice_eq_ok (by omega) (by omega)]
        rfl

/-! ## Signing and checking -/

/-- The integrity attribute of a signed message is found, whatever comes after it. -/
theorem getAttribute_signed {attributes : List Attribute} {header : MessageHeader}
    (hunsigned : Message.getAttribute ⟨header, attributes⟩ Attribute.messageIntegrity = none)
    (header' : MessageHeader) (digest : Bytes) (rest : List Attribute) :
    Message.getAttribute ⟨header', attributes ++ ⟨Attribute.messageIntegrity, digest⟩ :: rest⟩
      Attribute.messageIntegrity = some ⟨Attribute.messageIntegrity, digest⟩ := by
  unfold Message.getAttribute at hunsigned ⊢
  rw [List.find?_append, hunsigned]
  simp

/-- It covers what was signed. -/
theorem beforeIntegrity_signed {attributes : List Attribute} {header : MessageHeader}
    (hunsigned : Message.getAttribute ⟨header, attributes⟩ Attribute.messageIntegrity = none)
    (header' : MessageHeader) (digest : Bytes) (rest : List Attribute) :
    Message.beforeIntegrity ⟨header', attributes ++ ⟨Attribute.messageIntegrity, digest⟩ :: rest⟩
      = attributes := by
  have hall : ∀ a ∈ attributes, decide (a.attrType ≠ Attribute.messageIntegrity) = true := by
    intro a ha
    have hne := List.find?_eq_none.1 hunsigned a ha
    simpa using hne
  unfold Message.beforeIntegrity
  rw [List.takeWhile_append_of_pos hall, List.takeWhile_cons_of_neg (by simp), List.append_nil]

/-- What a receiver checks of a signed message is what was signed, whatever length and cookie it has
    read in the header and whatever attributes were appended. -/
theorem verifyMessageIntegrity_signed (D : Digests) (key : Bytes) {m : Message}
    (hunsigned : m.getAttribute Attribute.messageIntegrity = none) (messageLength : UInt16)
    (cookie : UInt32) (rest : List Attribute) :
    verifyMessageIntegrity D
      ⟨{ m.header with messageLength := messageLength, magicCookie := cookie },
        (addResponseMessageIntegrity D m key).attributes ++ rest⟩ key = .ok true := by
  have hlen : (D.hmacSha1 key (integrityInput m.header m.attributes)).val.length = 20 :=
    (D.hmacSha1 key (integrityInput m.header m.attributes)).property
  unfold verifyMessageIntegrity addResponseMessageIntegrity
  dsimp only
  rw [List.append_assoc, List.singleton_append, getAttribute_signed hunsigned,
    beforeIntegrity_signed hunsigned]
  dsimp only
  rw [slice_eq_ok (by omega) (by omega), List.drop_zero, List.take_of_length_le (by omega),
    Rust.ok_bind]
  exact congrArg Except.ok (beq_iff_eq.2 rfl)

/-- A message without an integrity attribute that is signed and has any attributes appended passes
    the check with the same key, as it is and, if its attributes fit a 16-bit length, after it was
    encoded and parsed back. -/
theorem signed_message_verifies (D : Digests) (m : Message)
    (hunsigned : ∀ a ∈ m.attributes, a.attrType ≠ Attribute.messageIntegrity) (key : Bytes)
    (xs : List Attribute) :
    let signed := addResponseMessageIntegrity D m key
    let extended : Message := { signed with attributes := signed.attributes ++ xs }
    verifyMessageIntegrity D extended key = .ok true ∧
      ((encodeAttributes extended.attributes).length ≤ 65535 →
        ∃ parsed, Message.parse extended.encode = .ok (some parsed) ∧
          verifyMessageIntegrity D parsed key = .ok true) := by
  intro signed extended
  have hnone : m.getAttribute Attribute.messageIntegrity = none :=
    List.find?_eq_none.2 (fun a ha => by simpa using hunsigned a ha)
  refine ⟨verifyMessageIntegrity_signed D key hnone m.header.messageLength m.header.magicCookie xs,
    fun hfit => ?_⟩
  have hparse := Message.parse_encode extended hfit []
  rw [List.append_nil] at hparse
  exact ⟨_, hparse, verifyMessageIntegrity_signed D key hnone _ _ xs⟩

/-- A Refresh answer with an unpadded realm, signed, with a second integrity attribute of three
    bytes and a padded name behind the first. -/
theorem signed_message_verifies_twice :
    let m : Message := ⟨⟨.refresh, .success, 7, 0, ⟨List.replicate 12 5, rfl⟩⟩,
      [⟨Attribute.realm, [1, 2, 3, 4]⟩]⟩
    let D : Digests := ⟨id, fun key _ => ⟨List.replicate 20 (key.headD 0), List.length_replicate⟩⟩
    let signed := addResponseMessageIntegrity D m [1, 2, 3]
    let extended : Message := { signed with attributes := signed.attributes ++
      [⟨Attribute.messageIntegrity, [7, 7, 7]⟩, ⟨Attribute.software, [9]⟩] }
    ∃ parsed, Message.parse extended.encode = .ok (some parsed) ∧
      verifyMessageIntegrity D parsed [1, 2, 3] = .ok true :=
  (signed_message_verifies _ _ (by decide) _ _).2 (by decide)

/-- Success of `verify_turn_auth`, on a server with auth enabled. -/
theorem verifyTurnAuth_eq_ok (henabled : server.authDisabled = false) {u : String} :
    verifyTurnAuth D env server msg client = .ok (.ok u) ↔
      ∃ pw, Authenticates D env server msg client u pw := by
  rcases verifyTurnAuth_cases D env msg client henabled with
    ⟨u', pw', hc, heq⟩ | ⟨hno, hforbidden | ⟨reason, hreason⟩⟩
  · rw [heq]
    constructor
    · intro h
      rcases verifyMessageIntegrity_cases D msg (computeMessageIntegrityKey D u' server.realm pw')
        with ⟨-, hv⟩ | ⟨attr, hattr, ⟨-, hv⟩ | ⟨hlen, hv⟩⟩
      · rw [hv, Rust.ok_bind] at h
        exact absurd h (by simp)
      · rw [hv, Rust.error_bind] at h
        exact absurd h (by simp)
      · rw [hv, Rust.ok_bind] at h
        split at h
        · next hmac =>
            obtain rfl : u' = u := by simpa using h
            exact ⟨pw', hc, attr, hattr, hlen, (beq_iff_eq.1 hmac).symm⟩
        · exact absurd h (by simp)
    · rintro ⟨pw, hauth⟩
      obtain ⟨rfl, rfl⟩ := hc.unique hauth.toClaims
      obtain ⟨attr, hattr, hlen, hmac⟩ := hauth.integrity
      rcases verifyMessageIntegrity_cases D msg (computeMessageIntegrityKey D u' server.realm pw')
        with ⟨hnone, -⟩ | ⟨attr', hattr', ⟨hshort, -⟩ | ⟨-, hv⟩⟩
      · exact absurd (hnone.symm.trans hattr) (by simp)
      · obtain rfl := Option.some.inj (hattr.symm.trans hattr')
        omega
      · obtain rfl := Option.some.inj (hattr.symm.trans hattr')
        rw [hv, hmac, Rust.ok_bind, if_pos (by simp [expectedIntegrity])]
        rfl
  · rw [hforbidden]
    exact ⟨fun h => absurd h (by simp), fun ⟨pw, h⟩ => absurd h.toClaims (hno u pw)⟩
  · rw [hreason]
    exact ⟨fun h => absurd h (by simp), fun ⟨pw, h⟩ => absurd h.toClaims (hno u pw)⟩

/-- Failure of `verify_turn_auth`: a Forbidden that changes nothing, or a 401 that adds its
    nonce. -/
theorem verifyTurnAuth_eq_error {answer : TurnServer × Bytes}
    (h : verifyTurnAuth D env server msg client = .ok (.error answer)) :
    answer = (server, createErrorResponseBytes msg .forbidden server) ∨
      ∃ reason, answer = create401Response env server msg reason := by
  cases hdis : server.authDisabled with
  | true =>
      unfold verifyTurnAuth at h
      rw [hdis, if_pos rfl] at h
      split at h <;> exact absurd h (by simp)
  | false =>
      rcases verifyTurnAuth_cases D env msg client hdis with
        ⟨u, pw, hc, heq⟩ | ⟨-, hforbidden | ⟨reason, hreason⟩⟩
      · rw [heq, Rust.bind_eq_ok] at h
        obtain ⟨ok, -, h⟩ := h
        cases ok with
        | true => exact absurd h (by simp)
        | false => exact Or.inr ⟨_, by simpa using h.symm⟩
      · rw [hforbidden] at h
        exact Or.inl (by simpa using h.symm)
      · rw [hreason] at h
        exact Or.inr ⟨reason, by simpa using h.symm⟩

/-- `verify_turn_auth` panics exactly on a request that gets as far as the integrity check and whose
    first MESSAGE-INTEGRITY is shorter than 20 bytes. -/
theorem verifyTurnAuth_fault :
    (∃ f, verifyTurnAuth D env server msg client = .error f) ↔
      server.authDisabled = false ∧ (∃ u pw, Claims env server msg client u pw) ∧
        ∃ attr, msg.getAttribute Attribute.messageIntegrity = some attr ∧
          attr.value.length < 20 := by
  cases hdis : server.authDisabled with
  | true =>
      unfold verifyTurnAuth
      rw [hdis, if_pos rfl]
      split <;> simp
  | false =>
      rcases verifyTurnAuth_cases D env msg client hdis with
        ⟨u, pw, hc, heq⟩ | ⟨hno, hforbidden | ⟨reason, hreason⟩⟩
      · rw [heq]
        rcases verifyMessageIntegrity_cases D msg (computeMessageIntegrityKey D u server.realm pw)
          with ⟨hnone, hv⟩ | ⟨attr, hattr, ⟨hlen, hv⟩ | ⟨hlen, hv⟩⟩
        · rw [hv, hnone]
          simp
        · rw [hv]
          exact ⟨fun _ => ⟨rfl, ⟨u, pw, hc⟩, attr, hattr, hlen⟩, fun _ => ⟨_, rfl⟩⟩
        · rw [hv, hattr, Rust.ok_bind]
          constructor
          · rintro ⟨f, hf⟩
            split at hf <;> exact absurd hf (by simp)
          · rintro ⟨-, -, attr', hattr', hshort⟩
            obtain rfl := Option.some.inj hattr'
            omega
      · rw [hforbidden]
        exact ⟨fun ⟨f, hf⟩ => absurd hf (by simp), fun ⟨_, ⟨u, pw, hc⟩, _⟩ => absurd hc (hno u pw)⟩
      · rw [hreason]
        exact ⟨fun ⟨f, hf⟩ => absurd hf (by simp), fun ⟨_, ⟨u, pw, hc⟩, _⟩ => absurd hc (hno u pw)⟩

/-- With auth disabled every request is somebody's. -/
theorem verifyTurnAuth_disabled (hdis : server.authDisabled = true) :
    ∃ u, verifyTurnAuth D env server msg client = .ok (.ok u) := by
  unfold verifyTurnAuth
  rw [hdis, if_pos rfl]
  split
  · exact ⟨_, rfl⟩
  · exact ⟨_, rfl⟩

end Miuturn
