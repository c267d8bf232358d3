import Miuturn.AuthRuns

set_option autoImplicit false

/-! # The challenge-response login

A client that is challenged and signs its request with the password of its user gets in, whatever
the server does in between: the nonce of the 401 answer stays in the map for 600 seconds, no matter
how often the cleanup runs, and the bytes of the signed request are read back to a message whose
digest the server recomputes from the same input. -/

open RustStd

namespace Miuturn

variable {D : Digests} {env : Env} {server : TurnServer} {msg : Message} {client : SocketAddr}
  {e : Transition}

/-! ## The challenge -/

/-- A request without NONCE or USERNAME is answered with a 401, whatever else it carries. -/
theorem verifyTurnAuth_unclaimed (hauth : server.authDisabled = false)
    (hacl : server.aclAdmits client = true)
    (hno : msg.getAttribute Attribute.nonce = none ∨ msg.getAttribute Attribute.username = none) :
    verifyTurnAuth D env server msg client
      = .ok (.error (create401Response env server msg none)) := by
  unfold verifyTurnAuth
  rw [hauth, if_neg (by simp), hacl, if_neg (by simp)]
  rcases hno with hnone | hnone
  · rw [hnone]
    rfl
  · rw [hnone]
    cases msg.getAttribute Attribute.nonce <;> rfl

/-- What such a request leaves behind. -/
theorem Step.challenged {w w' : World} (h : Step D w e w') (hevent : e.event = .message msg client)
    (hmethod : msg.header.method ∈ authenticatedMethods)
    (hno : msg.getAttribute Attribute.nonce = none ∨ msg.getAttribute Attribute.username = none)
    (hauth : w.server.authDisabled = false) (hturn : w.server.turnEnabled = true)
    (hacl : w.server.aclAdmits client = true) :
    e.response = some (unauthorizedMessage e.env e.before msg none).encode ∧
      e.after = (create401Response e.env e.before msg none).1 := by
  have hsettings := h.rehashed.settings
  have hauth' : e.before.authDisabled = false :=
    (congrArg Settings.authDisabled hsettings).trans hauth
  have hturn' : e.before.turnEnabled = true :=
    (congrArg Settings.turnEnabled hsettings).trans hturn
  have hacl' : e.before.aclAdmits client = true := by
    rw [← hacl]
    unfold TurnServer.aclAdmits
    rw [show e.before.authManager = w.server.authManager from
      congrArg Settings.authManager hsettings]
  have hrefused : verifyTurnAuth D e.env e.before msg client
      = .ok (.error (create401Response e.env e.before msg none)) :=
    verifyTurnAuth_unclaimed hauth' hacl' hno
  obtain ⟨hserver, hresponse, -⟩ := Outcome.mk.inj (h.outcome_of_ok hevent
    ((processMessage_authenticated hmethod hturn').trans (withAuth_error hrefused _)))
  exact ⟨hresponse.symm, hserver.symm⟩

/-! ## The nonce stays -/

/-- A nonce made at `t` or later, or a newer one of the same text, survives every step before
    `t` plus 600 seconds. -/
theorem Step.nonce_kept {w w' : World} (h : Step D w e w') {nonce : String} {entry : NonceEntry}
    {t : ℕ} (hentry : e.before.nonceMap.lookup nonce = some entry) (hcreated : t ≤ entry.createdAt)
    (hlate : t ≤ e.env.now) (hearly : e.env.now < t + fromSecs 600) :
    ∃ entry', e.after.nonceMap.lookup nonce = some entry' ∧ t ≤ entry'.createdAt := by
  rcases h.nonceMap_cases with hsame | ⟨-, hinsert⟩ | hclean
  · exact ⟨entry, by rw [hsame]; exact hentry, hcreated⟩
  · rw [hinsert]
    by_cases hnonce : nonce = generateNonce e.env
    · exact ⟨⟨nonce, e.env.now⟩, by rw [hnonce]; exact AList.lookup_insert _, hlate⟩
    · exact ⟨entry, by rw [AList.lookup_insert_ne hnonce]; exact hentry, hcreated⟩
  · -- the entry is younger than 600 seconds, so the pass keeps it
    have hage : asSecs (e.env.now - entry.createdAt) < 600 :=
      asSecs_sub_lt (by decide) (by omega)
    refine ⟨entry, ?_, hcreated⟩
    rw [hclean, cleanupNonces, HashMap.lookup_retain, hentry]
    simp [hage]

/-- The same for a whole run. -/
theorem Run.nonce_kept {w₁ w₂ : World} {history : List Transition} (h : Run D w₁ history w₂)
    {nonce : String} {t : ℕ} (hclock : t ≤ w₁.clock)
    (hentry : ∃ entry, w₁.server.nonceMap.lookup nonce = some entry ∧ t ≤ entry.createdAt)
    (hearly : w₂.clock < t + fromSecs 600) :
    ∃ entry, w₂.server.nonceMap.lookup nonce = some entry ∧ t ≤ entry.createdAt := by
  have hinv := Trace.Run.invariant (P := fun _ w => t ≤ w.clock ∧ (w.clock < t + fromSecs 600 →
    ∃ entry, w.server.nonceMap.lookup nonce = some entry ∧ t ≤ entry.createdAt)) h
    ⟨hclock, fun _ => hentry⟩ ?_
  · exact hinv.2 hearly
  · rintro history w e w' - ⟨hle, ih⟩ hstep
    have hnow := hstep.clock
    rw [hstep.next]
    refine ⟨hle.trans hnow, fun hlt => ?_⟩
    obtain ⟨entry, hlookup, hcreated⟩ := ih (lt_of_le_of_lt hnow hlt)
    rw [← hstep.rehashed.nonceMap] at hlookup
    exact hstep.nonce_kept hlookup hcreated (hle.trans hnow) hlt

/-! ## The signed request -/

theorem Message.getAttribute_append {header header' : MessageHeader} {attributes : List Attribute}
    {attr : Attribute} {attrType : UInt16} (rest : List Attribute)
    (h : Message.getAttribute ⟨header, attributes⟩ attrType = some attr) :
    Message.getAttribute ⟨header', attributes ++ rest⟩ attrType = some attr := by
  unfold Message.getAttribute at h ⊢
  rw [List.find?_append, h]
  rfl

/-- Signing, encoding and reading back: the message read has the attributes that were signed, and
    the digest the server expects of it for a user is the one made of them with the user's key. -/
theorem parse_signed {key : Bytes} (server : TurnServer)
    (hunsigned : msg.getAttribute Attribute.messageIntegrity = none)
    (hfit : (encodeAttributes (addResponseMessageIntegrity D msg key).attributes).length ≤ 65535) :
    ∃ header, Message.parse (addResponseMessageIntegrity D msg key).encode
        = .ok (some ⟨header, (addResponseMessageIntegrity D msg key).attributes⟩) ∧
      ∀ u pw, expectedIntegrity D server
          ⟨header, (addResponseMessageIntegrity D msg key).attributes⟩ u pw
        = (D.hmacSha1 (computeMessageIntegrityKey D u server.realm pw)
            (integrityInput msg.header msg.attributes)).val := by
  have hparse := Message.parse_encode (addResponseMessageIntegrity D msg key) hfit []
  rw [List.append_nil] at hparse
  refine ⟨_, hparse, fun u pw => ?_⟩
  -- the part before the integrity attribute is the message as it was signed
  unfold expectedIntegrity addResponseMessageIntegrity
  rw [beforeIntegrity_signed hunsigned]
  rfl

/-- The first NONCE of the message is in the map and at most 600 whole seconds old. -/
def FreshNonce (env : Env) (server : TurnServer) (msg : Message) : Prop :=
  ∃ nonceAttr entry, msg.getAttribute Attribute.nonce = some nonceAttr ∧
    server.nonceMap.lookup (fromUtf8Lossy nonceAttr.value) = some entry ∧
    asSecs (env.now - entry.createdAt) ≤ 600

/-- A signed request with a fresh nonce passes exactly if the ACL admits its address and the
    password looked up for its user makes the digest it carries. -/
theorem verifyTurnAuth_signed {key : Bytes} {u : String} (henabled : server.authDisabled = false)
    (hnonce : FreshNonce env server msg)
    (huser : msg.getAttribute Attribute.username = some ⟨Attribute.username, strBytes u⟩)
    (hunsigned : msg.getAttribute Attribute.messageIntegrity = none)
    (hfit : (encodeAttributes (addResponseMessageIntegrity D msg key).attributes).length ≤ 65535) :
    ∃ request, Message.parse (addResponseMessageIntegrity D msg key).encode = .ok (some request) ∧
      ∀ client, verifyTurnAuth D env server request client = .ok (.ok u) ↔
        server.aclAdmits client = true ∧ ∃ pw, server.getPasswordForUser env u = some pw ∧
          addResponseMessageIntegrity D msg (computeMessageIntegrityKey D u server.realm pw)
            = addResponseMessageIntegrity D msg key := by
  obtain ⟨header, hparse, hexpected⟩ := parse_signed server hunsigned hfit
  refine ⟨_, hparse, fun client => (verifyTurnAuth_eq_ok henabled).trans ?_⟩
  have hattr := getAttribute_signed hunsigned header
    (D.hmacSha1 key (integrityInput msg.header msg.attributes)).val []
  -- two digests are equal exactly if the messages signed with them are
  have hsame : ∀ key', (D.hmacSha1 key (integrityInput msg.header msg.attributes)).val
      = (D.hmacSha1 key' (integrityInput msg.header msg.attributes)).val ↔
        addResponseMessageIntegrity D msg key' = addResponseMessageIntegrity D msg key := by
    intro key'
    simp [addResponseMessageIntegrity, eq_comm]
  constructor
  · rintro ⟨pw, ⟨hacl, -, -, hpw⟩, integrityAttr, hfound, -, hdigest⟩
    obtain rfl := Option.some.inj (hattr.symm.trans hfound)
    rw [hexpected, List.take_of_length_le (D.hmacSha1 _ _).property.le] at hdigest
    exact ⟨hacl, pw, hpw, (hsame _).1 hdigest⟩
  · rintro ⟨hacl, pw, hpw, hdigest⟩
    refine ⟨pw, ⟨hacl, ?_, ?_, hpw⟩, _, hattr, (D.hmacSha1 _ _).property.ge, ?_⟩
    · obtain ⟨nonceAttr, entry, hfound, hentry⟩ := hnonce
      exact ⟨nonceAttr, entry, Message.getAttribute_append _ hfound, hentry⟩
    · exact ⟨_, Message.getAttribute_append _ huser, fromUtf8Lossy_strBytes u⟩
    · rw [hexpected, List.take_of_length_le (D.hmacSha1 _ _).property.le]
      exact (hsame _).2 hdigest

/-- The login works. A request without NONCE or USERNAME, from an address the ACL admits, is
    answered with a 401 that carries a nonce. Any message with that nonce and the name of a user,
    signed with the password that the server looks up for the user, authenticates as the user when
    the server reads its bytes less than 600 seconds later, whatever requests and cleanups came in
    between. -/
theorem login_works {w w₁ : World} (hstep : Step D w e w₁) (hevent : e.event = .message msg client)
    (hmethod : msg.header.method ∈ authenticatedMethods)
    (hno : msg.getAttribute Attribute.nonce = none ∨ msg.getAttribute Attribute.username = none)
    (hauth : w.server.authDisabled = false) (hturn : w.server.turnEnabled = true)
    (hacl : w.server.aclAdmits client = true) :
    e.response = some (unauthorizedMessage e.env e.before msg none).encode ∧
    ∃ nonceAttr,
      (unauthorizedMessage e.env e.before msg none).getAttribute Attribute.nonce = some nonceAttr ∧
      ∀ (history : List Transition) (w₂ : World) (server : TurnServer) (env : Env)
        (client' : SocketAddr) (request : Message) (u pw : String), Run D w₁ history w₂ →
        Rehashed w₂.server server →
        w₂.clock ≤ env.now → env.now < e.env.now + fromSecs 600 →
        server.aclAdmits client' = true → server.getPasswordForUser env u = some pw →
        request.getAttribute Attribute.nonce = some nonceAttr →
        request.getAttribute Attribute.username = some ⟨Attribute.username, strBytes u⟩ →
        request.getAttribute Attribute.messageIntegrity = none →
        (encodeAttributes (addResponseMessageIntegrity D request
          (computeMessageIntegrityKey D u w.server.realm pw)).attributes).length ≤ 65535 →
        ∃ request', Message.parse (addResponseMessageIntegrity D request
            (computeMessageIntegrityKey D u w.server.realm pw)).encode = .ok (some request') ∧
          verifyTurnAuth D env server request' client' = .ok (.ok u) := by
  obtain ⟨hresponse, hafter⟩ := hstep.challenged hevent hmethod hno hauth hturn hacl
  refine ⟨hresponse, ⟨Attribute.nonce, strBytes (generateNonce e.env)⟩, rfl, ?_⟩
  intro history w₂ server env client' request u pw hrun hrehashed hclock hearly hacl' hpw hnonce
    huser hunsigned hfit
  -- the settings of the server that reads the request
  have hsettings : ∃ l, server.settings = w.server.settings.changed l :=
    ⟨_, by rw [hrehashed.settings, hrun.settings, hstep.settings, Settings.changed_changed]⟩
  obtain ⟨changes, hsettings⟩ := hsettings
  have henabled : server.authDisabled = false :=
    (congrArg Settings.authDisabled hsettings).trans hauth
  have hrealm : server.realm = w.server.realm := congrArg Settings.realm hsettings
  -- the nonce it finds
  have hissued : ∃ entry, w₁.server.nonceMap.lookup (generateNonce e.env) = some entry ∧
      e.env.now ≤ entry.createdAt := by
    refine ⟨⟨generateNonce e.env, e.env.now⟩, ?_, le_refl _⟩
    rw [hstep.next, hafter]
    exact AList.lookup_insert _
  obtain ⟨entry, hentry, hcreated⟩ := hrun.nonce_kept (by rw [hstep.next]) hissued
    (lt_of_le_of_lt hclock hearly)
  rw [← hrehashed.nonceMap] at hentry
  have hage : asSecs (env.now - entry.createdAt) ≤ 600 :=
    le_of_lt (asSecs_sub_lt (by decide) (by omega))
  have hfresh : FreshNonce env server request :=
    ⟨_, entry, hnonce, by rw [fromUtf8Lossy_strBytes]; exact hentry, hage⟩
  -- and the digest
  obtain ⟨request', hparse, hiff⟩ := verifyTurnAuth_signed henabled hfresh huser hunsigned hfit
  exact ⟨request', hparse, (hiff client').2 ⟨hacl', pw, hpw, by rw [hrealm]⟩⟩

/-- The challenge of the sample server at second 0, with a nonce cleanup at second 300 and the
    request of `alice` at second 599. -/
theorem login_works_alice :
    ∃ request, Message.parse (sampleLogin .allocate "secret" []).encode = .ok (some request) ∧
      verifyTurnAuth sampleDigests (sampleEnv 599)
        (play sampleDigests challengedWorld [(sampleEnv 300, .cleanupNonces)]).2.server request
        sampleClient = .ok (.ok "alice") := by
  have hstep : Step sampleDigests ⟨sampleServer false (some sampleUsers), 0⟩
      (.of sampleDigests (sampleEnv 0) (sampleServer false (some sampleUsers))
        (.message (sampleRequest .allocate []) sampleClient)) challengedWorld :=
    Step.of_clock (by decide) _
  have hrun : Run sampleDigests challengedWorld
      (play sampleDigests challengedWorld [(sampleEnv 300, .cleanupNonces)]).1
      (play sampleDigests challengedWorld [(sampleEnv 300, .cleanupNonces)]).2 :=
    Run.of_play (by decide +kernel)
  obtain ⟨-, nonceAttr, hnonce, hlogin⟩ :=
    login_works hstep rfl (by decide) (Or.inl rfl) rfl rfl (by decide +kernel)
  obtain rfl : ⟨Attribute.nonce, strBytes (generateNonce (sampleEnv 0))⟩ = nonceAttr :=
    Option.some.inj hnonce
  exact hlogin _ _ _ (sampleEnv 599) sampleClient _ "alice" "secret" hrun (.refl _)
    (by decide +kernel) (by decide) (by decide +kernel) (by decide +kernel) rfl rfl rfl
    (by decide +kernel)

end Miuturn
