import Miuturn.Frames
import Miuturn.Relay
import Miuturn.Stream

set_option autoImplicit false

/-! # Channel bindings

`ChannelTable::bind` refuses a number that is bound to another peer of the allocation, and nothing
else: it takes a second number for a peer that has one, and numbers that no ChannelData frame can
carry. `handle_channel_bind` in turn binds `0.0.0.0:0` where the address of the peer does not
decode. The first half of this file is about the table alone, over all sequences of its operations;
the second about the bindings that requests make, over all runs of the server. -/

open RustStd

namespace Miuturn

/-! ## One channel for each peer -/

/-- The operations of the channel table, with the clock readings they take. -/
inductive ChannelOp where
  | bind (now : ℕ) (channelId : UInt16) (peerAddr relayedAddr : SocketAddr)
  | unbind (relayedAddr : SocketAddr) (channelId : UInt16)
  | removeForRelayed (relayedAddr : SocketAddr)
  | cleanupExpired (now : ℕ)

namespace ChannelTable

/-- The table after an operation; a `bind` that fails leaves it as it is. -/
def apply (ct : ChannelTable) : ChannelOp → ChannelTable
  | .bind now channelId peerAddr relayedAddr =>
    match ct.bind now channelId peerAddr relayedAddr with
    | .ok ct' => ct'
    | .error _ => ct
  | .unbind relayedAddr channelId => (ct.unbind relayedAddr channelId).1
  | .removeForRelayed relayedAddr => ct.removeForRelayed relayedAddr
  | .cleanupExpired now => ct.cleanupExpired now

/-- The table after a sequence of operations, from an empty one. -/
def after (ops : List ChannelOp) : ChannelTable := ops.foldl apply new

/-- The number `n` of the relayed address `r` leads to the peer `p`. -/
def LeadsTo (ct : ChannelTable) (r : SocketAddr) (n : UInt16) (p : SocketAddr) : Prop :=
  ∃ b, ct.getByChannel r n = some b ∧ b.peerAddr = p

/-- No peer has two channels of one relayed address. -/
def OnePerPeer (ct : ChannelTable) : Prop :=
  ∀ r p n n', ct.LeadsTo r n p → ct.LeadsTo r n' p → n = n'

/-- A `bind` that would give a peer a second channel: the number is free, and another one leads to
    the peer already. -/
def Doubles (ct : ChannelTable) (n : UInt16) (p r : SocketAddr) : Prop :=
  ct.getByChannel r n = none ∧ ∃ n', ct.LeadsTo r n' p

variable {ct ct' : ChannelTable} {r p : SocketAddr} {n : UInt16}

/-- A table with no other bindings. -/
theorem OnePerPeer.mono (h : ct.OnePerPeer)
    (hsub : ∀ r n p, ct'.LeadsTo r n p → ct.LeadsTo r n p) : ct'.OnePerPeer :=
  fun r p n n' hn hn' => h r p n n' (hsub r n p hn) (hsub r n' p hn')

theorem leadsTo_of_lookup {r : SocketAddr} {n : UInt16} {p : SocketAddr}
    (hsub : ∀ b, ct'.channels.lookup (r, n) = some b → ct.channels.lookup (r, n) = some b)
    (h : ct'.LeadsTo r n p) : ct.LeadsTo r n p := by
  obtain ⟨b, hb, hp⟩ := h
  exact ⟨b, hsub b hb, hp⟩

/-- What leads where after a successful `bind`. -/
theorem leadsTo_bind {now : ℕ} (h : ct.bind now n p r = .ok ct') {r' : SocketAddr} {n' : UInt16}
    {p' : SocketAddr} : ct'.LeadsTo r' n' p' ↔
      ct.LeadsTo r' n' p' ∨ (r' = r ∧ n' = n ∧ p' = p) := by
  obtain ⟨hoff, hon⟩ := bind_eq_ok h
  by_cases hkey : (r', n') = (r, n)
  · obtain ⟨rfl, rfl⟩ := Prod.mk.inj hkey
    rcases hon with ⟨b, hb, rfl, hnew⟩ | ⟨hnone, hnew⟩
    · simp [LeadsTo, getByChannel, hb, hnew, eq_comm]
    · simp [LeadsTo, getByChannel, hnone, hnew, eq_comm]
  · have hne : ¬ (r' = r ∧ n' = n ∧ p' = p) := fun hr => hkey (by rw [hr.1, hr.2.1])
    simp only [LeadsTo, getByChannel, hoff _ hkey, hne, or_false]

/-- Only a `bind` that doubles breaks the property. -/
theorem OnePerPeer.apply (h : ct.OnePerPeer) (op : ChannelOp)
    (hop : ∀ now n p r, op = .bind now n p r → ¬ ct.Doubles n p r) : (ct.apply op).OnePerPeer := by
  cases op with
  | bind now n p r =>
      rw [ChannelTable.apply]
      split
      · next ct' hbind =>
          -- the other number of the peer, if there is one, leads to it already
          have hfree : ∀ n', ct.LeadsTo r n' p → n' = n := by
            intro n' hn'
            by_contra hne
            refine hop now n p r rfl ⟨?_, n', hn'⟩
            rcases (bind_eq_ok hbind).2 with ⟨b, hb, hp, -⟩ | ⟨hnone, -⟩
            · exact absurd (h r p n' n hn' ⟨b, hb, hp⟩) hne
            · exact hnone
          intro r₁ p₁ n₁ n₂ h₁ h₂
          rw [leadsTo_bind hbind] at h₁ h₂
          rcases h₁ with h₁ | ⟨rfl, rfl, rfl⟩
          · rcases h₂ with h₂ | ⟨rfl, rfl, rfl⟩
            · exact h r₁ p₁ n₁ n₂ h₁ h₂
            · exact hfree n₁ h₁
          · rcases h₂ with h₂ | ⟨-, rfl, -⟩
            · exact (hfree n₂ h₂).symm
            · rfl
      · exact h
  | unbind relayedAddr channelId =>
      exact h.mono (fun r n p => leadsTo_of_lookup (fun b hb =>
        (HashMap.lookup_erase_eq_some.1 hb).2))
  | removeForRelayed relayedAddr =>
      exact h.mono (fun r n p => leadsTo_of_lookup (fun b hb => (lookup_removeForRelayed.1 hb).1))
  | cleanupExpired now =>
      exact h.mono (fun r n p => leadsTo_of_lookup (fun b hb => lookup_cleanupExpired hb))

theorem not_leadsTo_new : ¬ new.LeadsTo r n p := by
  rintro ⟨b, hb, -⟩
  exact absurd hb (by simp [getByChannel, new])

/-- Without a `bind` that doubles, no peer ever has two channels. -/
theorem onePerPeer_after (ops : List ChannelOp)
    (h : ∀ pre now n p r, pre ++ [.bind now n p r] <+: ops → ¬ (after pre).Doubles n p r) :
    (after ops).OnePerPeer := by
  induction ops using List.reverseRecOn with
  | nil => exact fun r p n n' hn => absurd hn not_leadsTo_new
  | append_singleton ops op ih =>
      have hbefore := ih (fun pre now n p r hpre =>
        h pre now n p r (hpre.trans (List.prefix_append ops [op])))
      rw [after, List.foldl_append]
      refine hbefore.apply op ?_
      rintro now n p r rfl
      exact h ops now n p r (List.prefix_refl _)

/-! ### The lookup by peer -/

theorem mem_entries_iff {r : SocketAddr} {n : UInt16} {p : SocketAddr} :
    (∃ e ∈ ct.channels.entries, e.1 = (r, n) ∧ e.2.peerAddr = p) ↔ ct.LeadsTo r n p := by
  constructor
  · rintro ⟨⟨key, b⟩, hmem, rfl, rfl⟩
    exact ⟨b, HashMap.lookup_eq_some.2 hmem, rfl⟩
  · rintro ⟨b, hb, rfl⟩
    exact ⟨⟨(r, n), b⟩, HashMap.lookup_eq_some.1 hb, rfl, rfl⟩

/-- What the lookup finds leads to the peer. -/
theorem leadsTo_of_getByPeerForRelayed (h : ct.getByPeerForRelayed r p = some n) :
    ct.LeadsTo r n p := by
  obtain ⟨e, he, rfl⟩ := Option.map_eq_some_iff.1 h
  have hp : e.1.1 = r ∧ e.2.peerAddr = p := by simpa using List.find?_some he
  refine mem_entries_iff.1 ⟨e, List.mem_of_find?_eq_some he, ?_, hp.2⟩
  rw [← hp.1]

/-- With one channel for each peer, the lookup is the same for every iteration order. -/
theorem OnePerPeer.getByPeerForRelayed_same (h : ct.OnePerPeer)
    {m : HashMap (SocketAddr × UInt16) ChannelBinding} (hsame : HashMap.Same ct.channels m)
    (r p : SocketAddr) :
    (⟨m⟩ : ChannelTable).getByPeerForRelayed r p = ct.getByPeerForRelayed r p := by
  unfold getByPeerForRelayed
  rw [find?_perm hsame]
  rintro ⟨⟨r₁, n₁⟩, b₁⟩ h₁ ⟨⟨r₂, n₂⟩, b₂⟩ h₂ hp₁ hp₂
  obtain ⟨rfl, rfl⟩ := of_decide_eq_true hp₁
  obtain ⟨hr₂, hb₂⟩ := of_decide_eq_true hp₂
  dsimp only at hr₂ hb₂ ⊢
  obtain rfl := hr₂
  rw [← HashMap.lookup_eq_some] at h₁ h₂
  obtain rfl := h _ _ n₁ n₂ ⟨b₁, h₁, rfl⟩ ⟨b₂, h₂, hb₂⟩
  obtain rfl := Option.some.inj (h₁.symm.trans h₂)
  rfl

/-- With one channel for each peer, the lookup finds the number that leads to the peer. -/
theorem OnePerPeer.getByPeerForRelayed_eq (h : ct.OnePerPeer) (hn : ct.LeadsTo r n p) :
    ct.getByPeerForRelayed r p = some n := by
  obtain ⟨e, hmem, hkey, hp⟩ := mem_entries_iff.2 hn
  cases hfound : ct.getByPeerForRelayed r p with
  | none =>
      have hnone := List.find?_eq_none.1 (Option.map_eq_none_iff.1 hfound) e hmem
      rw [hkey, hp] at hnone
      exact absurd (decide_eq_true ⟨rfl, rfl⟩) hnone
  | some n' => rw [h r p n' n (leadsTo_of_getByPeerForRelayed hfound) hn]

/-- Where the packets of a peer go is settled: the peer has at most one channel, the lookup does not
    depend on the iteration order, and the task of the allocation delivers the peer's packets on the
    channel that leads to the peer, if there is one. -/
structure Unambiguous (ct : ChannelTable) : Prop where
  onePerPeer : ct.OnePerPeer
  order : ∀ m, HashMap.Same ct.channels m → ∀ r p,
    (⟨m⟩ : ChannelTable).getByPeerForRelayed r p = ct.getByPeerForRelayed r p
  delivered : ∀ (task : RelayTask) systemTime peerAddr payload n,
    ct.LeadsTo task.relayedAddr n (task.effectivePeer peerAddr) →
      task.packetFor systemTime ct peerAddr payload
        = ⟨task.clientAddr, channelDataPacket n payload⟩

theorem OnePerPeer.unambiguous (h : ct.OnePerPeer) : ct.Unambiguous where
  onePerPeer := h
  order := fun _ hsame r p => h.getByPeerForRelayed_same hsame r p
  delivered := by
    intro task systemTime peerAddr payload n hn
    rw [RelayTask.packetFor, h.getByPeerForRelayed_eq hn]

end ChannelTable

/-- Along every sequence of operations on a channel table: each peer has at most one channel of an
    allocation, and so its packets go out on that one, exactly if no `bind` of the sequence asks for
    a free number when another number of the same relayed address already leads to the peer. -/
theorem one_channel_per_peer_iff (ops : List ChannelOp) :
    (∀ pre, pre <+: ops → (ChannelTable.after pre).Unambiguous) ↔
      ∀ pre now n p r, pre ++ [.bind now n p r] <+: ops →
        ¬ (ChannelTable.after pre).Doubles n p r := by
  constructor
  · intro h pre now n p r hpre hdoubles
    obtain ⟨hfree, n', b', hb', hp'⟩ := hdoubles
    have hbind : (ChannelTable.after pre).bind now n p r
        = .ok ⟨(ChannelTable.after pre).channels.insert (r, n) ⟨n, p, r, now, fromSecs 600⟩⟩ := by
      simp only [ChannelTable.bind]
      rw [show (ChannelTable.after pre).channels.lookup (r, n) = none from hfree]
    have hafter : ChannelTable.after (pre ++ [.bind now n p r])
        = ⟨(ChannelTable.after pre).channels.insert (r, n) ⟨n, p, r, now, fromSecs 600⟩⟩ := by
      rw [ChannelTable.after, List.foldl_append]
      show ChannelTable.apply (ChannelTable.after pre) (.bind now n p r) = _
      rw [ChannelTable.apply, hbind]
    have hone := (h _ hpre).onePerPeer
    rw [hafter] at hone
    obtain rfl := hone r p n n' ((ChannelTable.leadsTo_bind hbind).2 (Or.inr ⟨rfl, rfl, rfl⟩))
      ((ChannelTable.leadsTo_bind hbind).2 (Or.inl ⟨b', hb', hp'⟩))
    exact absurd (hfree.symm.trans hb') (by simp)
  · intro h pre hpre
    refine (ChannelTable.onePerPeer_after pre ?_).unambiguous
    exact fun pre' now n p r hpre' => h pre' now n p r (hpre'.trans hpre)

/-- The relayed address and the peer of the runs below. -/
def sampleRelayed : SocketAddr := .v4 ⟨203, 0, 113, 1⟩ 5000

/-- One peer on two channels: the packets of the peer go out on the one or the other, by the order
    in which the table is iterated. -/
theorem two_channels_for_one_peer :
    let ct := ChannelTable.after [.bind 0 0x4000 samplePeer sampleRelayed,
      .bind 1 0x4001 samplePeer sampleRelayed]
    ct.LeadsTo sampleRelayed 0x4000 samplePeer ∧ ct.LeadsTo sampleRelayed 0x4001 samplePeer ∧
      ∃ m m', HashMap.Same ct.channels m ∧ HashMap.Same ct.channels m' ∧
        (⟨m⟩ : ChannelTable).getByPeerForRelayed sampleRelayed samplePeer = some 0x4000 ∧
        (⟨m'⟩ : ChannelTable).getByPeerForRelayed sampleRelayed samplePeer = some 0x4001 := by
  refine ⟨⟨_, rfl, rfl⟩, ⟨_, rfl, rfl⟩,
    (ChannelTable.after [.bind 1 0x4001 samplePeer sampleRelayed,
      .bind 0 0x4000 samplePeer sampleRelayed]).channels, _, List.Perm.swap _ _ _, .refl _, ?_, ?_⟩
  · rfl
  · rfl

/-! ## Bindings and the requests that make them -/

/-- A ChannelBind for number `n` and peer `p`, both readable. -/
structure Message.AsksFor (m : Message) (n : UInt16) (p : SocketAddr) : Prop where
  method : m.header.method = .channelBind
  number : ∃ attr, m.getAttribute Attribute.channelNumber = some attr ∧
    channelNumberOf attr.value = some n
  peer : ∃ attr, m.getAttribute Attribute.peerAddress = some attr ∧
    decodeXorAddress attr.value magicCookie m.header.transactionId = .ok (some p)

/-- The ChannelBinds that make a binding ChannelData can use. -/
def Message.AsksForUsable (m : Message) : Prop := ∃ n p, m.AsksFor n p ∧ isChannelNumber n = true

/-- The ChannelBinds that the server takes, and what it binds for them: the client is let in and has
    an allocation, both attributes are there, and the number is free or leads to the peer. An
    address that does not decode counts as `0.0.0.0:0`. -/
structure TakesBind (D : Digests) (env : Env) (server : TurnServer) (msg : Message)
    (client r : SocketAddr) (n : UInt16) (p : SocketAddr) : Prop where
  turn : server.turnEnabled = true
  method : msg.header.method = .channelBind
  admitted : Admitted D env server msg client
  allocation : server.allocationTable.findAllocationByClient client = some r
  number : ∃ attr, msg.getAttribute Attribute.channelNumber = some attr ∧
    channelNumberOf attr.value = some n
  peer : ∃ attr, msg.getAttribute Attribute.peerAddress = some attr ∧ channelPeerOf attr.value = p
  free : ∀ b, server.channelTable.getByChannel r n = some b → b.peerAddr = p

variable {D : Digests} {env : Env} {server : TurnServer} {msg m : Message} {client c : SocketAddr}
  {r p : SocketAddr} {n : UInt16} {o : Outcome} {e : Transition} {w₀ w w' : World}
  {history : List Transition}

theorem bind_ok_of_free {ct : ChannelTable} (now : ℕ)
    (hfree : ∀ b, ct.getByChannel r n = some b → b.peerAddr = p) :
    ∃ ct', ct.bind now n p r = .ok ct' := by
  unfold ChannelTable.bind
  dsimp only
  split
  · next b hb =>
      rw [if_pos (hfree b hb)]
      exact ⟨_, rfl⟩
  · exact ⟨_, rfl⟩

/-- A ChannelBind that the server takes is answered with Success. -/
theorem TakesBind.processMessage (h : TakesBind D env server msg client r n p) :
    ∃ channels u, server.channelTable.bind env.now n p r = .ok channels ∧
      Miuturn.processMessage D env server msg client = .ok
        ⟨{ server with channelTable := channels }, some (plainSuccess D env server msg u), none,
          0⟩ := by
  obtain ⟨u, hu⟩ := admitted_iff.1 h.admitted
  obtain ⟨channels, hbind⟩ := bind_ok_of_free env.now h.free
  obtain ⟨channelAttr, hchannel, hnumber⟩ := h.number
  obtain ⟨peerAttr, hpeer, rfl⟩ := h.peer
  obtain ⟨entry, hentry, rfl⟩ := Option.map_eq_some_iff.1 h.allocation
  refine ⟨channels, u, hbind, ?_⟩
  rw [processMessage_authenticated (by rw [h.method]; decide) h.turn, withAuth_ok hu,
    requestBody_channelBind h.method, bindFor, hentry, hpeer, hchannel]
  dsimp only
  rw [hnumber]
  dsimp only
  rw [hbind]

/-- A ChannelBind is refused, and changes at most the nonces and those only if it is not let in; or
    the server takes it. -/
theorem Effect.channelBind_cases (he : Effect D env server msg client o)
    (hmethod : msg.header.method = .channelBind) (hturn : server.turnEnabled = true) :
    ((∀ b, o.response = some b → answerClass b ≠ some .success) ∧
      o.server = { server with nonceMap := o.server.nonceMap } ∧
      (Admitted D env server msg client → o.server = server)) ∨
    ∃ r n p, TakesBind D env server msg client r n p := by
  cases he with
  | inert hclass =>
      refine Or.inl ⟨fun b hb hsuccess => ?_, rfl, fun _ => rfl⟩
      have := hclass b hb (by rw [hmethod]; decide)
      exact absurd (hsuccess.symm.trans this) (by decide)
  | challenge reason hfail =>
      refine Or.inl ⟨fun b hb hsuccess => ?_, rfl, fun hadmitted => ?_⟩
      · obtain rfl := Option.some.inj hb
        have := answerClass_unauthorized env server msg reason
        exact absurd (hsuccess.symm.trans this) (by decide)
      · obtain ⟨u, hu⟩ := admitted_iff.1 hadmitted
        exact absurd (Except.ok.inj (hfail.symm.trans hu)) (by simp)
  | allocateFailed hm _ _ _ => exact absurd (hmethod.symm.trans hm) (by decide)
  | allocated hm _ _ _ _ => exact absurd (hmethod.symm.trans hm) (by decide)
  | deleted hm _ _ _ => exact absurd (hmethod.symm.trans hm) (by decide)
  | refreshed hm _ _ _ _ _ => exact absurd (hmethod.symm.trans hm) (by decide)
  | permitted hm _ _ _ => exact absurd (hmethod.symm.trans hm) (by decide)
  | @bound u entry peerAttr channelAttr n channels b _ hauth hentry hpeer hchannel hnumber hbind
      _ =>
      refine Or.inr ⟨entry.2.relayedAddr, n, channelPeerOf peerAttr.value, hturn, hmethod,
        admitted_iff.2 ⟨u, hauth⟩, findAllocationByClient_of_entry hentry,
        ⟨channelAttr, hchannel, hnumber⟩, ⟨peerAttr, hpeer, rfl⟩, fun b' hb' => ?_⟩
      rcases (bind_eq_ok hbind).2 with ⟨b₁, hb₁, hp, -⟩ | ⟨hnone, -⟩
      · obtain rfl := Option.some.inj (hb'.symm.trans hb₁)
        exact hp
      · exact absurd (hb'.symm.trans hnone) (by simp)
  | relayed peer data hm => exact absurd (hmethod.symm.trans hm) (by decide)

theorem Step.channelBind_cases (hstep : Step D w e w') (hevent : e.event = .message m c)
    (hmethod : m.header.method = .channelBind) :
    ((∀ b, e.response = some b → answerClass b ≠ some .success) ∧
      e.after = { e.before with nonceMap := e.after.nonceMap } ∧
      (Admitted D e.env e.before m c → e.after = e.before)) ∨
    ∃ r n p, TakesBind D e.env e.before m c r n p := by
  cases hturn : e.before.turnEnabled with
  | true => exact (hstep.effect hevent).channelBind_cases hmethod hturn
  | false =>
      obtain ⟨hafter, hresponse⟩ := hstep.turnDisabled hevent (by rw [hmethod]; decide) hturn
      refine Or.inl ⟨fun b hb => ?_, by rw [hafter], fun _ => hafter⟩
      exact absurd (hresponse.symm.trans hb) (by simp)

theorem Step.takesBind (hstep : Step D w e w') (hevent : e.event = .message m c)
    (h : TakesBind D e.env e.before m c r n p) :
    e.Granted .channelBind c m ∧
      ∃ channels, e.before.channelTable.bind e.env.now n p r = .ok channels ∧
        e.after = { e.before with channelTable := channels } := by
  obtain ⟨channels, u, hbind, heq⟩ := h.processMessage
  obtain ⟨hafter, hresponse, -, -⟩ := Outcome.mk.inj (hstep.outcome_of_ok hevent heq)
  exact ⟨⟨hevent, h.method, _, hresponse.symm, answerClass_plainSuccess⟩, channels, hbind,
    hafter.symm⟩

/-- The step made the binding of `n` to `p`. -/
def Makes (D : Digests) (e : Transition) (r : SocketAddr) (n : UInt16) (p : SocketAddr) : Prop :=
  ∃ m c, e.event = .message m c ∧ TakesBind D e.env e.before m c r n p ∧
    e.before.channelTable.getByChannel r n = none

/-- A binding after a step was there before it, or the step made it. -/
theorem Step.leadsTo (hstep : Step D w e w') (hc : e.before.Consistent)
    (h : e.after.channelTable.LeadsTo r n p) :
    e.before.channelTable.LeadsTo r n p ∨ Makes D e r n p := by
  obtain ⟨b, hb, rfl⟩ := h
  -- the binding belongs to an allocation
  have hafter : e.after.Consistent := by
    rw [hstep.after_eq]
    exact react_consistent D e.env e.event hc
  obtain ⟨a, ha⟩ := HashMap.exists_lookup (hafter.bindings r n b hb).2.2
  cases hstep.origin hc ha with
  | created _ _ _ hnone => exact absurd ((hnone n).symm.trans hb) (by simp)
  | kept _ hcontinues _ =>
      rcases hcontinues.bindings n b hb with ⟨b', hb', hpeer⟩ | hbinds
      · exact Or.inl ⟨b', hb', hpeer⟩
      · right
        obtain ⟨m, attr, ⟨hevent, hmethod, answer, hanswer, hsuccess⟩, -, -, hnone, -⟩ := hbinds
        rcases hstep.channelBind_cases hevent hmethod with ⟨hrefused, -⟩ | ⟨r', n', p', htakes⟩
        · exact absurd hsuccess (hrefused answer hanswer)
        · -- the one binding that is new is the one the request asked for
          obtain ⟨-, channels, hbind, hset⟩ := hstep.takesBind hevent htakes
          have hleads : channels.LeadsTo r n b.peerAddr := by
            rw [hset] at hb
            exact ⟨b, hb, rfl⟩
          rcases (ChannelTable.leadsTo_bind hbind).1 hleads with ⟨b', hb', -⟩ | ⟨rfl, rfl, hp⟩
          · exact absurd (hb'.symm.trans hnone) (by simp)
          · rw [← hp] at htakes
            exact ⟨m, _, hevent, htakes, hnone⟩

/-- The binding of `n` to `p` was made by a step of the history and has been there since. -/
def MadeIn (D : Digests) (history : List Transition) (r : SocketAddr) (n : UInt16)
    (p : SocketAddr) : Prop :=
  ∃ pre e post, history = pre ++ e :: post ∧ Makes D e r n p ∧
    ∀ e' ∈ e :: post, e'.after.channelTable.LeadsTo r n p

/-- In every state reached, every binding was made by a ChannelBind that the server took. -/
theorem Run.madeIn (hrun : Run D w₀ history w) (hstart : Started w₀.server)
    (h : w.server.channelTable.LeadsTo r n p) : MadeIn D history r n p := by
  refine Trace.Run.since (P := fun w => w.server.channelTable.LeadsTo r n p) hrun ?_ ?_ h
  · rintro ⟨b, hb, -⟩
    rw [ChannelTable.getByChannel, hstart.fresh.channels] at hb
    exact absurd hb (by simp)
  · intro history w e w' hprev hstep h
    rw [hstep.next] at h
    have hc := Run.consistent_before hprev hstart.fresh.consistent hstep
    refine ⟨h, ?_⟩
    rcases hstep.leadsTo hc h with ⟨b, hb, hp⟩ | hmakes
    · exact Or.inl ⟨b, (hstep.rehashed.getByChannel r n).symm.trans hb, hp⟩
    · exact Or.inr hmakes

/-- The step is a granted ChannelBind for `n` and `p`, by the client with the relayed address `r`,
    and the number was free. -/
def Requested (e : Transition) (r : SocketAddr) (n : UInt16) (p : SocketAddr) : Prop :=
  ∃ m c, e.Granted .channelBind c m ∧ m.AsksFor n p ∧
    e.before.allocationTable.findAllocationByClient c = some r ∧
    e.before.channelTable.getByChannel r n = none

/-- Bindings can be used and were asked for, along a history: after each step every binding has a
    number of ChannelData and was created by a ChannelBind whose address decodes to its peer; and a
    ChannelBind without a usable number and address is not answered with Success and changes
    nothing, but for the nonce of the answer to one that is not let in. -/
structure BindingsUsable (D : Digests) (history : List Transition) : Prop where
  bindings : ∀ pre e post, history = pre ++ e :: post → ∀ r n b,
    e.after.channelTable.getByChannel r n = some b → isChannelNumber n = true ∧
      ∃ pre' e' post', pre ++ [e] = pre' ++ e' :: post' ∧ Requested e' r n b.peerAddr ∧
        ∀ e'' ∈ e' :: post', e''.after.channelTable.LeadsTo r n b.peerAddr
  refused : ∀ e ∈ history, ∀ m c, e.event = .message m c → m.header.method = .channelBind →
    ¬ m.AsksForUsable →
      (∀ b, e.response = some b → answerClass b ≠ some .success) ∧
      e.after = { e.before with nonceMap := e.after.nonceMap } ∧
      (Admitted D e.env e.before m c → e.after = e.before)

/-- A taken ChannelBind that asks for something usable asks for what it gets. -/
theorem TakesBind.asksFor (h : TakesBind D env server msg client r n p)
    (husable : msg.AsksForUsable) : msg.AsksFor n p ∧ isChannelNumber n = true := by
  obtain ⟨n', p', ⟨hmethod, ⟨attr, hattr, hn'⟩, ⟨attr', hattr', hp'⟩⟩, hchannel⟩ := husable
  obtain ⟨channelAttr, hchannelAttr, hn⟩ := h.number
  obtain ⟨peerAttr, hpeerAttr, hp⟩ := h.peer
  obtain rfl := Option.some.inj (hattr.symm.trans hchannelAttr)
  obtain rfl := Option.some.inj (hattr'.symm.trans hpeerAttr)
  obtain rfl := Option.some.inj (hn'.symm.trans hn)
  have hdecodes : xorAddressOf magicCookie attr'.value = some p' := by
    rw [decodeXorAddress_eq] at hp'
    exact Except.ok.inj hp'
  obtain rfl : p' = p := by
    rw [← hp, channelPeerOf, hdecodes]
    rfl
  exact ⟨⟨hmethod, ⟨attr, hattr, hn⟩, ⟨attr', hattr', hp'⟩⟩, hchannel⟩

/-- Along every run of a started server, bindings can be used and were asked for exactly if every
    ChannelBind of the run that the server takes has a number of ChannelData and an address that
    decodes. -/
theorem bindings_usable_iff (hstart : Started w₀.server) (hrun : Run D w₀ history w) :
    BindingsUsable D history ↔
      ∀ e ∈ history, ∀ m c r n p, e.event = .message m c →
        TakesBind D e.env e.before m c r n p → m.AsksForUsable := by
  have hsteps : ∀ e ∈ history, ∃ w₁ w₂, Step D w₁ e w₂ := by
    intro e he
    obtain ⟨-, w₁, w₂, -, -, hstep⟩ := hrun.of_mem he
    exact ⟨w₁, w₂, hstep⟩
  constructor
  · intro h e he m c r n p hevent htakes
    by_contra hunusable
    obtain ⟨w₁, w₂, hstep⟩ := hsteps e he
    obtain ⟨⟨-, -, b, hb, hsuccess⟩, -⟩ := hstep.takesBind hevent htakes
    exact (h.refused e he m c hevent htakes.method hunusable).1 b hb hsuccess
  · intro h
    refine ⟨?_, ?_⟩
    · intro pre e post hsplit r n b hb
      obtain ⟨w₁, w₂, hpre, hstep, -⟩ := hrun.at hsplit
      have hleads : w₂.server.channelTable.LeadsTo r n b.peerAddr := by
        rw [hstep.next]
        exact ⟨b, hb, rfl⟩
      obtain ⟨pre', e', post', hsplit', ⟨m, c, hevent, htakes, hnone⟩, hsince⟩ :=
        Run.madeIn (hpre.snoc hstep) hstart hleads
      have hmem : e' ∈ history := by
        rw [hsplit, List.append_cons, hsplit']
        simp
      obtain ⟨w₃, w₄, hstep'⟩ := hsteps e' hmem
      obtain ⟨hasks, hchannel⟩ := htakes.asksFor (h e' hmem m c _ _ _ hevent htakes)
      exact ⟨hchannel, pre', e', post', hsplit',
        ⟨m, c, (hstep'.takesBind hevent htakes).1, hasks, htakes.allocation, hnone⟩, hsince⟩
    · intro e he m c hevent hmethod hunusable
      obtain ⟨w₁, w₂, hstep⟩ := hsteps e he
      rcases hstep.channelBind_cases hevent hmethod with hrefused | ⟨r, n, p, htakes⟩
      · exact hrefused
      · exact absurd (h e he m c r n p hevent htakes) hunusable

/-- The binding of the client that permitted the peer and bound channel 0x4000 to it. -/
theorem bindings_usable_iff_permitted :
    ∃ pre e post, (play sampleDigests ⟨sampleServer true none, 0⟩ permittedPeer).1
        = pre ++ e :: post ∧ Requested e sampleRelayed 0x4000 samplePeer := by
  have husable := (bindings_usable_iff (sampleServer_started true none) permittedWorld_run).2 (by
    intro e he m c r n p hevent htakes
    have hmethod := htakes.method
    simp only [permittedPeer, play, List.mem_cons, List.not_mem_nil, or_false] at he
    rcases he with rfl | rfl | rfl
    · obtain ⟨rfl, -⟩ := Event.message.inj hevent
      exact absurd hmethod (by decide)
    · obtain ⟨rfl, -⟩ := Event.message.inj hevent
      exact absurd hmethod (by decide)
    · obtain ⟨rfl, -⟩ := Event.message.inj hevent
      exact ⟨0x4000, samplePeer, ⟨rfl, ⟨_, rfl, rfl⟩, ⟨_, rfl, rfl⟩⟩, rfl⟩)
  obtain ⟨-, pre, e, post, hsplit, hrequested, -⟩ := husable.bindings
    ((play sampleDigests ⟨sampleServer true none, 0⟩ permittedPeer).1.take 2) _ [] rfl
    sampleRelayed 0x4000 ⟨0x4000, samplePeer, sampleRelayed, fromSecs 3, fromSecs 600⟩
    (by decide +kernel)
  exact ⟨pre, e, post, hsplit, hrequested⟩

/-- A ChannelBind for number 1, which no ChannelData frame can carry, and with an address of an
    unknown family is answered with Success; the number then leads to `0.0.0.0:0`. -/
theorem unusable_binding_made :
    let result := play sampleDigests ⟨sampleServer true none, 0⟩
      [(sampleEnv 1, .message (sampleRequest .allocate []) sampleClient),
       (sampleEnv 2, .message (sampleRequest .channelBind [⟨Attribute.channelNumber, [0, 1, 0, 0]⟩,
          ⟨Attribute.peerAddress, [0, 9, 0, 0, 0, 0, 0, 0]⟩]) sampleClient)]
    result.1.map (fun e => e.response.bind answerClass) = [some .success, some .success] ∧
      (result.2.server.channelTable.getByChannel sampleRelayed 1).map ChannelBinding.peerAddr
        = some unspecifiedAddr ∧
      isChannelNumber 1 = false ∧
      decodeXorAddress [0, 9, 0, 0, 0, 0, 0, 0] magicCookie sampleTransaction = .ok none :=
  ⟨by decide +kernel, by decide +kernel, rfl, rfl⟩

end Miuturn
