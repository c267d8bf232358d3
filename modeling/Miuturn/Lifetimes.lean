import Miuturn.Expiry

set_option autoImplicit false

/-! # The lifetime in an answer

Allocate and Refresh answer with the lifetime the client asked for. The table does something else
with it: on creation it is cut to the configured maximum, and a Refresh counts it from the creation
of the allocation. So the LIFETIME of the answer is what the allocation has left exactly for an
Allocate within the maximum, for a Refresh that deletes, and for a Refresh in the instant of the
creation.

`LivesFor` is stated by `is_expired` at all later clock readings, not by the stored fields. -/

open RustStd

namespace Miuturn

variable {D : Digests} {env : Env} {server : TurnServer} {msg : Message} {client : SocketAddr}
  {u : String} {o : Outcome} {b : Bytes} {L : UInt32}

/-- From `now` on the allocation lives for the duration `d`, and no longer. -/
def Allocation.LivesFor (a : Allocation) (now d : ℕ) : Prop :=
  ∀ later, now ≤ later → (a.isExpired later = false ↔ later ≤ now + d)

theorem Allocation.livesFor_iff {a : Allocation} {now d : ℕ} :
    a.LivesFor now d ↔ a.createdAt + a.lifetime = now + d := by
  simp only [LivesFor, isExpired_eq_false]
  constructor
  · intro h
    have hlast := (h (now + d) (Nat.le_add_right _ _)).2 le_rfl
    have hafter := (not_congr (h (now + d + 1) (by omega))).2 (by omega)
    omega
  · intro h later _
    rw [h]

/-- What is under a relayed address lives for `L` seconds from `now`; nothing is there if `L` is
    zero because the allocation was deleted. -/
def AllocationTable.LivesForSecs (t : AllocationTable) (relayed : SocketAddr) (now : ℕ)
    (L : UInt32) : Prop :=
  match t.allocations.lookup relayed with
  | some a => a.LivesFor now (fromSecs L.toNat)
  | none => L = 0

theorem livesForSecs_of_some {t : AllocationTable} {relayed : SocketAddr} {now : ℕ}
    {a : Allocation} (h : t.allocations.lookup relayed = some a) :
    t.LivesForSecs relayed now L ↔ a.createdAt + a.lifetime = now + fromSecs L.toNat := by
  rw [AllocationTable.LivesForSecs, h]
  exact a.livesFor_iff

theorem fromSecs_inj {m n : ℕ} : fromSecs m = fromSecs n ↔ m = n :=
  Nat.mul_left_inj (by decide)

/-! ## What the answers say -/

/-- Signing adds at the end, so what was found is found. -/
theorem getAttribute_signResponse {response : Message} {attrType : UInt16} {attr : Attribute}
    (h : response.getAttribute attrType = some attr) :
    (signResponse D env server u response).getAttribute attrType = some attr := by
  unfold signResponse
  split
  · exact h
  · split
    · unfold addResponseMessageIntegrity Message.getAttribute
      rw [List.find?_append, show List.find? _ response.attributes = some attr from h]
      rfl
    · exact h

/-- A success answer to a request that authenticates comes from its body. -/
theorem requestBody_of_success (hmethod : msg.header.method ∈ authenticatedMethods)
    (h : processMessage D env server msg client = .ok o) (hresponse : o.response = some b)
    (hclass : answerClass b = some .success) :
    ∃ u, verifyTurnAuth D env server msg client = .ok (.ok u) ∧
      requestBody D env server msg client u = .ok o := by
  cases hturn : server.turnEnabled with
  | false =>
      rw [processMessage_turnDisabled hmethod hturn] at h
      obtain rfl := Except.ok.inj h
      exact absurd hresponse (by simp [Outcome.unchanged])
  | true =>
      rw [processMessage_authenticated hmethod hturn] at h
      rcases withAuth_cases h with hbody | ⟨answer, hv, rfl⟩
      · exact hbody
      · obtain rfl := Option.some.inj hresponse
        rcases verifyTurnAuth_eq_error hv with rfl | ⟨reason, rfl⟩
        · exact absurd (hclass.symm.trans (answerClass_errorResponse msg .forbidden none server))
            (by decide)
        · exact absurd (hclass.symm.trans (answerClass_unauthorized env server msg reason))
            (by decide)

/-- The allocation that a success answer is about: the one whose relayed address an Allocate
    answers with, or the one that the client had when it sent the Refresh. -/
inductive IsAbout (server : TurnServer) (msg : Message) (client : SocketAddr) (answer : Message)
    (relayed : SocketAddr) : Prop where
  | allocate (hmethod : msg.header.method = .allocate)
      (hanswer : answer.getAttribute Attribute.xorRelayedAddress
        = some ⟨Attribute.xorRelayedAddress,
            encodeXorAddress relayed magicCookie msg.header.transactionId⟩)
  | refresh (hmethod : msg.header.method = .refresh)
      (hclient : server.allocationTable.findAllocationByClient client = some relayed)

/-- When the answer of a request that asked for `L` seconds is right. -/
def LifetimeGranted (env : Env) (server : TurnServer) (msg : Message) (relayed : SocketAddr)
    (L : UInt32) : Prop :=
  (msg.header.method = .allocate →
    ∀ max, server.allocationTable.maxAllocationDurationSecs = some max → L ≤ max) ∧
  (msg.header.method = .refresh →
    L = 0 ∨ ∃ a, server.allocationTable.allocations.lookup relayed = some a ∧
      a.createdAt = env.now)

/-! ## Allocate -/

/-- A request within the maximum is granted in full, and only such a request. -/
theorem grantedSecs_eq_iff {t : AllocationTable} :
    (t.grantedSecs (some L)).toNat = L.toNat ↔
      ∀ max, t.maxAllocationDurationSecs = some max → L ≤ max := by
  unfold AllocationTable.grantedSecs
  cases t.maxAllocationDurationSecs with
  | none => simp
  | some max =>
      simp only [Option.getD_some, Option.some.injEq, forall_eq', UInt32.le_iff_toNat_le]
      split
      · omega
      · omega

/-- A successful Allocate answers with the address and the lifetime asked for, and enters an
    allocation under that address. -/
theorem allocateFor_success
    (hresponse : (allocateFor D env server msg client u L).response = some b)
    (hclass : answerClass b = some .success) :
    ∃ (answer : Message) (port : UInt16) (pa : PortAllocator) (i : ℕ), b = answer.encode ∧
      let table := (removeExisting server client).1.allocationTable
      answer.getAttribute Attribute.lifetime = some ⟨Attribute.lifetime, putU32 L⟩ ∧
      answer.getAttribute Attribute.xorRelayedAddress = some ⟨Attribute.xorRelayedAddress,
        encodeXorAddress (.v4 table.externalAddr port) magicCookie msg.header.transactionId⟩ ∧
      PortAllocator.Takes table.portAllocator pa i ∧
      port.toNat = table.portAllocator.minPort.toNat + i ∧
      (allocateFor D env server msg client u L).server
        = (removeExisting server client).1.withTable
            (table.enter env client (some L) pa port) := by
  unfold allocateFor allocateOutcome at hresponse ⊢
  rcases createAllocation_cases (removeExisting server client).1.allocationTable env client
    (some L) with ⟨pa, e, heq, -⟩ | ⟨pa, port, i, heq, htake, hport⟩
  · simp only [heq] at hresponse
    obtain rfl := Option.some.inj hresponse
    exact absurd (hclass.symm.trans (answerClass_errorResponse _ _ _ _)) (by decide)
  · simp only [heq] at hresponse ⊢
    obtain rfl := Option.some.inj hresponse
    exact ⟨_, port, pa, i, rfl, getAttribute_signResponse rfl, getAttribute_signResponse rfl, htake,
      hport, rfl⟩

theorem allocate_lifetime_iff (hmethod : msg.header.method = .allocate)
    (hresponse : (allocateFor D env server msg client u L).response = some b)
    (hclass : answerClass b = some .success) :
    ∃ (answer : Message) (relayed : SocketAddr), b = answer.encode ∧
      IsAbout server msg client answer relayed ∧
      answer.getAttribute Attribute.lifetime = some ⟨Attribute.lifetime, putU32 L⟩ ∧
      ((allocateFor D env server msg client u L).server.allocationTable.LivesForSecs relayed env.now
        L ↔ LifetimeGranted env server msg relayed L) := by
  obtain ⟨answer, port, pa, i, hb, hlifetime, hrelayed, -, -, hserver⟩ :=
    allocateFor_success hresponse hclass
  refine ⟨answer, _, hb, .allocate hmethod hrelayed, hlifetime, ?_⟩
  have hlookup : (allocateFor D env server msg client u L).server.allocationTable.allocations.lookup
      (.v4 (removeExisting server client).1.allocationTable.externalAddr port)
      = some ((removeExisting server client).1.allocationTable.newAllocation env client (some L)
          port) := by
    rw [hserver]
    exact AList.lookup_insert _
  have hmax : (removeExisting server client).1.allocationTable.maxAllocationDurationSecs
      = server.allocationTable.maxAllocationDurationSecs :=
    congrArg Prod.snd (removeExisting_limits server client)
  have hgranted : LifetimeGranted env server msg
      (.v4 (removeExisting server client).1.allocationTable.externalAddr port) L ↔
      ∀ max, server.allocationTable.maxAllocationDurationSecs = some max → L ≤ max :=
    ⟨fun h => h.1 hmethod, fun h => ⟨fun _ => h, fun hm => absurd (hmethod.symm.trans hm)
      (by decide)⟩⟩
  rw [livesForSecs_of_some hlookup, hgranted, ← hmax, ← grantedSecs_eq_iff]
  simp only [AllocationTable.newAllocation, Allocation.withRelay]
  rw [Nat.add_left_cancel_iff, fromSecs_inj]

/-! ## Refresh -/

theorem lookup_without (server : TurnServer) (addr : SocketAddr) :
    (server.without addr).allocationTable.allocations.lookup addr = none := by
  rw [Option.eq_none_iff_forall_ne_some]
  intro a ha
  exact (lookup_removeAllocation.1 ha).1 rfl

theorem refresh_lifetime_iff (hmethod : msg.header.method = .refresh)
    (hresponse : (refreshFor D env server msg client u L).response = some b)
    (hclass : answerClass b = some .success) :
    ∃ (answer : Message) (relayed : SocketAddr), b = answer.encode ∧
      IsAbout server msg client answer relayed ∧
      answer.getAttribute Attribute.lifetime = some ⟨Attribute.lifetime, putU32 L⟩ ∧
      ((refreshFor D env server msg client u L).server.allocationTable.LivesForSecs relayed env.now
        L ↔ LifetimeGranted env server msg relayed L) := by
  have hmismatch := answerClass_errorResponse msg .allocationMismatch none server
  have hgranted : ∀ relayed, LifetimeGranted env server msg relayed L ↔
      L = 0 ∨ ∃ a, server.allocationTable.allocations.lookup relayed = some a ∧
        a.createdAt = env.now := fun relayed =>
    ⟨fun h => h.2 hmethod, fun h => ⟨fun hm => absurd (hmethod.symm.trans hm) (by decide),
      fun _ => h⟩⟩
  unfold refreshFor at hresponse ⊢
  cases hfind : server.allocationTable.findAllocationByClient client with
  | none =>
      rw [hfind] at hresponse
      obtain rfl := Option.some.inj hresponse
      exact absurd (hclass.symm.trans hmismatch) (by decide)
  | some relayed =>
      rw [hfind] at hresponse
      dsimp only at hresponse ⊢
      by_cases hzero : L = 0
      · rw [if_pos hzero] at hresponse ⊢
        obtain rfl := Option.some.inj hresponse
        refine ⟨_, relayed, rfl, .refresh hmethod hfind, getAttribute_signResponse rfl, ?_⟩
        have hgone := lookup_without server relayed
        rw [hgranted, AllocationTable.LivesForSecs]
        simp only [TurnServer.without] at hgone
        rw [hgone]
        exact ⟨Or.inl, fun _ => hzero⟩
      · rw [if_neg hzero] at hresponse ⊢
        cases htable : server.allocationTable.refreshAllocation relayed L with
        | error err =>
            rw [htable] at hresponse
            obtain rfl := Option.some.inj hresponse
            exact absurd (hclass.symm.trans hmismatch) (by decide)
        | ok table =>
            rw [htable] at hresponse
            obtain rfl := Option.some.inj hresponse
            refine ⟨_, relayed, rfl, .refresh hmethod hfind, getAttribute_signResponse rfl, ?_⟩
            obtain ⟨a, ha, hlookup⟩ := lookup_refreshed htable
            rw [hgranted, livesForSecs_of_some hlookup, ha]
            -- both sides say that the allocation was created now
            simp only [Option.some.injEq, exists_eq_left', hzero, false_or]
            exact Nat.add_right_cancel_iff

/-- The LIFETIME of the answer to an Allocate or Refresh is the one of the request, 600 without. It
    is what the allocation has left exactly if an Allocate asked for no more than the maximum, and a
    Refresh deletes the allocation or comes in the instant of its creation. -/
theorem advertised_lifetime_iff
    (hmethod : msg.header.method = .allocate ∨ msg.header.method = .refresh)
    (h : processMessage D env server msg client = .ok o) (hresponse : o.response = some b)
    (hclass : answerClass b = some .success) :
    ∃ (answer : Message) (relayed : SocketAddr) (L : UInt32), b = answer.encode ∧
      IsAbout server msg client answer relayed ∧ getLifetime msg = .ok L ∧
      answer.getAttribute Attribute.lifetime = some ⟨Attribute.lifetime, putU32 L⟩ ∧
      (o.server.allocationTable.LivesForSecs relayed env.now L ↔
        LifetimeGranted env server msg relayed L) := by
  rcases hmethod with hm | hm
  · obtain ⟨u, -, hbody⟩ := requestBody_of_success (by rw [hm]; decide) h hresponse hclass
    rw [requestBody_allocate hm] at hbody
    obtain ⟨L, hlifetime, hbody⟩ := Rust.bind_eq_ok.1 hbody
    obtain rfl := Except.ok.inj hbody
    obtain ⟨answer, relayed, hencode, habout, hanswer⟩ := allocate_lifetime_iff hm hresponse hclass
    exact ⟨answer, relayed, L, hencode, habout, hlifetime, hanswer⟩
  · obtain ⟨u, -, hbody⟩ := requestBody_of_success (by rw [hm]; decide) h hresponse hclass
    rw [requestBody_refresh hm] at hbody
    obtain ⟨L, hlifetime, hbody⟩ := Rust.bind_eq_ok.1 hbody
    obtain rfl := Except.ok.inj hbody
    obtain ⟨answer, relayed, hencode, habout, hanswer⟩ := refresh_lifetime_iff hm hresponse hclass
    exact ⟨answer, relayed, L, hencode, habout, hlifetime, hanswer⟩

/-- The server with the maximum of 300 seconds, asked for 200. -/
theorem advertised_lifetime_iff_within_maximum :
    ∃ (o : Outcome) (answer : Message) (relayed : SocketAddr),
      processMessage sampleDigests (sampleEnv 1) cappedServer
        (sampleRequest .allocate [⟨Attribute.lifetime, putU32 200⟩]) sampleClient = .ok o ∧
      o.response = some answer.encode ∧
      answer.getAttribute Attribute.lifetime = some ⟨Attribute.lifetime, putU32 200⟩ ∧
      o.server.allocationTable.LivesForSecs relayed (fromSecs 1) 200 := by
  have h : processMessage sampleDigests (sampleEnv 1) cappedServer
      (sampleRequest .allocate [⟨Attribute.lifetime, putU32 200⟩]) sampleClient
      = .ok (allocateFor sampleDigests (sampleEnv 1) cappedServer
          (sampleRequest .allocate [⟨Attribute.lifetime, putU32 200⟩]) sampleClient "" 200) := rfl
  obtain ⟨b, hb, hclass⟩ : ∃ b, (allocateFor sampleDigests (sampleEnv 1) cappedServer
      (sampleRequest .allocate [⟨Attribute.lifetime, putU32 200⟩]) sampleClient "" 200).response
        = some b ∧ answerClass b = some .success := ⟨_, rfl, by decide +kernel⟩
  obtain ⟨answer, relayed, L, hanswer, -, hL, hlifetime, hiff⟩ :=
    advertised_lifetime_iff (Or.inl rfl) h hb hclass
  have hasked : getLifetime (sampleRequest .allocate [⟨Attribute.lifetime, putU32 200⟩])
      = .ok 200 := rfl
  obtain rfl := Except.ok.inj (hasked.symm.trans hL)
  refine ⟨_, answer, relayed, h, hb.trans (congrArg some hanswer), hlifetime, hiff.2 ?_⟩
  refine ⟨fun _ max hmax => ?_, fun hrefresh => absurd hrefresh (by decide)⟩
  obtain rfl : 300 = max := Option.some.inj hmax
  decide

/-- The LIFETIME that an answer of the server carries, as its client reads it. -/
def answeredLifetime (answer : Bytes) : Option UInt32 :=
  match Message.parse answer with
  | .ok (some m) => (getLifetime m).toOption
  | _ => none

/-- On the server with the maximum of 300 seconds an Allocate is answered with 600 seconds and the
    allocation has expired after 301. Without a maximum a Refresh at second 500 of an allocation
    made at second 0 is answered with 600 seconds, and the allocation has expired at second 601. -/
theorem advertised_lifetime_too_long :
    let capped := play sampleDigests ⟨cappedServer, 0⟩
      [(sampleEnv 0, .message (sampleRequest .allocate []) sampleClient)]
    let refreshed := play sampleDigests ⟨sampleServer true none, 0⟩
      [(sampleEnv 0, .message (sampleRequest .allocate []) sampleClient),
       (sampleEnv 500, sampleRefresh)]
    capped.1.map (fun e => e.response.bind answeredLifetime) = [some 600] ∧
      (capped.2.server.allocationTable.getAllocationByClient sampleClient).map
        (fun a => a.isExpired (fromSecs 301)) = some true ∧
      refreshed.1.map (fun e => e.response.bind answeredLifetime) = [some 600, some 600] ∧
      (refreshed.2.server.allocationTable.getAllocationByClient sampleClient).map
        (fun a => a.isExpired (fromSecs 601)) = some true := by
  decide +kernel

end Miuturn
