import Miuturn.Channels
import Miuturn.Quota

set_option autoImplicit false

/-! # Bindings of an allocation that is gone

`handle_channel_bind` finds the relayed address of its client first and binds later. In between the
allocation may be removed and its port be given to somebody else. `remove_allocation` clears the
bindings of the address, but a binding made after that stays, and the next allocation with the
address starts with it. This is the only way things go wrong: the bindings of an allocation are its
owner's exactly if no ChannelBind enters a binding for an address that has changed hands, or for a
free one that is then given out with the binding. -/

open RustStd

namespace Miuturn

namespace Interleaving

variable {ι : Type}

/-- The step enters a new binding of `n` to `p` for client `c`. -/
def Move.Creates (e : Move ι) (c r : SocketAddr) (n : UInt16) (p : SocketAddr) : Prop :=
  e.Binds c r n p ∧ e.before.server.channelTable.getByChannel r n = none

/-- After the step the number `n` of `r` leads to `p`. -/
abbrev Move.Leads (e : Move ι) (r : SocketAddr) (n : UInt16) (p : SocketAddr) : Prop :=
  e.after.server.channelTable.LeadsTo r n p

variable {e : Move ι} {history pre post : List (Move ι)} {st st' st₀ : State ι}
  {c c' r p : SocketAddr} {n : UInt16}

/-! ## What a step does to bindings and owners -/

/-- A step has at most one ChannelBind. -/
theorem Move.Binds.unique {p' : SocketAddr} {n' : UInt16} {r' : SocketAddr} (h : e.Binds c r n p)
    (h' : e.Binds c' r' n' p') : c = c' := by
  obtain ⟨i, env, hevent, hpc⟩ := h
  obtain ⟨i', env', hevent', hpc'⟩ := h'
  obtain ⟨rfl, -⟩ := Event.access.inj (hevent.symm.trans hevent')
  exact (Pc.channelBind.inj (hpc.symm.trans hpc')).1

/-- A binding after a step was there before it, or the step entered it. -/
theorem Effect.leadsTo (he : Effect e) (h : e.Leads r n p) :
    e.before.server.channelTable.LeadsTo r n p ∨ ∃ c, e.Creates c r n p := by
  cases he with
  | quiet _ _ hchannels =>
      rw [Move.Leads, hchannels] at h
      exact Or.inl h
  | removed hremoves =>
      obtain ⟨b, hb, hp⟩ := h
      exact Or.inl ⟨b, hremoves.channels r n b hb, hp⟩
  | inserted _ henters =>
      rw [Move.Leads, henters.channels] at h
      exact Or.inl h
  | bound hbinds _ hbind =>
      rcases (ChannelTable.leadsTo_bind hbind).1 h with hold | ⟨rfl, rfl, rfl⟩
      · exact Or.inl hold
      · rcases (bind_eq_ok hbind).2 with ⟨b, hb, hp, -⟩ | ⟨hnone, -⟩
        · exact Or.inl ⟨b, hb, hp⟩
        · exact Or.inr ⟨_, hbinds, hnone⟩

/-- An address that keeps a binding keeps its owner. -/
theorem Effect.owner_of_leadsTo (he : Effect e) (h : owner e.before.server r = some c)
    (hleads : e.Leads r n p) : owner e.after.server r = some c := by
  cases he with
  | quiet howner _ _ => exact (howner r).trans h
  | removed hremoves =>
      unfold owner at h ⊢
      rcases hremoves.owner r with hsame | ⟨-, hclear⟩
      · rw [hsame]
        exact h
      · obtain ⟨b, hb, -⟩ := hleads
        exact absurd ((hclear n).symm.trans hb) (by simp)
  | inserted hinserts henters =>
      rw [henters.owner, if_neg]
      · exact h
      · rintro rfl
        exact absurd (henters.free.symm.trans h) (by simp)
  | bound _ htable _ =>
      rw [owner, htable]
      exact h

variable [DecidableEq ι]

theorem Step.leadsTo_before (hstep : Step st e st') :
    e.before.server.channelTable.LeadsTo r n p ↔ st.server.channelTable.LeadsTo r n p := by
  unfold ChannelTable.LeadsTo
  rw [hstep.rehashed.getByChannel]

/-- A new binding is there, and the owners are what they were. -/
theorem Step.creates (hstep : Step st e st') (h : e.Creates c r n p) :
    e.Leads r n p ∧ ∀ k, owner e.after.server k = owner e.before.server k := by
  obtain ⟨event, before, after⟩ := e
  obtain ⟨⟨i, env, rfl, hpc⟩, hfree⟩ := h
  obtain rfl : after = perform before (.access i env) := hstep.outcome
  dsimp only at hpc hfree
  obtain ⟨channels, hbind⟩ := bind_ok_of_free (p := p) env.now
    (fun b hb => absurd (hfree.symm.trans hb) (by simp))
  have hafter : (perform before (.access i env)).server
      = { before.server with channelTable := channels } := by
    rw [perform, hpc, advance, hbind]
  rw [Move.Leads]
  dsimp only
  rw [hafter]
  exact ⟨(ChannelTable.leadsTo_bind hbind).2 (Or.inr ⟨rfl, rfl, rfl⟩), fun _ => rfl⟩

/-! ## Along runs -/

/-- A binding was entered by some step and has been there since. -/
theorem Run.created (hrun : Run st₀ history st) (hinit : Initial st₀)
    (h : st.server.channelTable.LeadsTo r n p) :
    ∃ pre e post, history = pre ++ e :: post ∧ (∃ c, e.Creates c r n p) ∧
      ∀ e' ∈ e :: post, e'.Leads r n p := by
  refine Trace.Run.since (P := fun st => st.server.channelTable.LeadsTo r n p) hrun ?_ ?_ h
  · rintro ⟨b, hb, -⟩
    rw [ChannelTable.getByChannel, hinit.started.fresh.channels] at hb
    exact absurd hb (by simp)
  · intro history st e st' hprev hstep h
    rw [hstep.next] at h
    rw [← hstep.leadsTo_before]
    exact ⟨h, (hstep.spec (Run.inv hprev hinit)).2.leadsTo h⟩

/-- An allocation was inserted by some step and has been its client's since. -/
theorem Run.inserted (hrun : Run st₀ history st) (hinit : Initial st₀)
    (h : owner st.server r = some c) :
    ∃ pre e post, history = pre ++ e :: post ∧ e.Inserts c r ∧
      ∀ e' ∈ e :: post, owner e'.after.server r = some c := by
  refine Trace.Run.since (P := fun st => owner st.server r = some c) hrun ?_ ?_ h
  · intro hc
    rw [owner, hinit.started.fresh.allocations] at hc
    exact absurd hc (by simp)
  · intro history st e st' hprev hstep h
    rw [hstep.next] at h
    rw [← hstep.owner_before]
    exact ⟨h, (hstep.spec (Run.inv hprev hinit)).2.owner_cases h⟩

/-- While an address keeps a binding it keeps its owner. -/
theorem Run.owner_of_leads (hrun : Run st history st') (hinv : Inv st)
    (hleads : ∀ e ∈ history, e.Leads r n p) (h : owner st.server r = some c) :
    owner st'.server r = some c := by
  refine And.right (Trace.Run.invariant_while
    (P := fun st' => Inv st' ∧ owner st'.server r = some c) hrun hleads ⟨hinv, h⟩ ?_)
  rintro history st₁ e st₂ - hleads ⟨hinv₁, howner⟩ hstep
  obtain ⟨hinv₂, heffect⟩ := hstep.spec hinv₁
  refine ⟨hinv₂, ?_⟩
  rw [← hstep.owner_before] at howner
  rw [hstep.next]
  exact heffect.owner_of_leadsTo howner hleads

/-! ## The bindings of a new allocation -/

/-- New allocations start without bindings: there is none for the address when an allocation is
    inserted, and while the allocation is there every binding of the address is one that its owner
    entered after the insertion. -/
structure FreshBindings (history : List (Move ι)) : Prop where
  inserted : ∀ e ∈ history, ∀ c r, e.Inserts c r →
    ∀ n, e.before.server.channelTable.getByChannel r n = none
  later : ∀ pre e₀ mid e rest c r, history = pre ++ e₀ :: (mid ++ e :: rest) → e₀.Inserts c r →
    (∀ e' ∈ mid ++ [e], owner e'.after.server r = some c) → ∀ n p, e.Leads r n p →
      ∃ mid₁ e₁ mid₂, mid ++ [e] = mid₁ ++ e₁ :: mid₂ ∧ e₁.Creates c r n p ∧
        ∀ e' ∈ e₁ :: mid₂, e'.Leads r n p

/-- A ChannelBind that enters a binding does so for the address of its client; or for a free one,
    and then the binding is gone again before the address is given out. -/
def NoStaleBind (history : List (Move ι)) : Prop :=
  ∀ pre e post c r n p, history = pre ++ e :: post → e.Creates c r n p →
    owner e.before.server r = some c ∨
    (owner e.before.server r = none ∧ ∀ mid e' rest c', post = mid ++ e' :: rest →
      e'.Inserts c' r → ∃ e'' ∈ mid, e''.after.server.channelTable.getByChannel r n = none)

/-- Without stale bindings, an allocation is inserted for an address without bindings. -/
theorem NoStaleBind.inserted (h : NoStaleBind history) (hrun : Run st₀ history st)
    (hinit : Initial st₀) (he : e ∈ history) (hinserts : e.Inserts c r) (n : UInt16) :
    e.before.server.channelTable.getByChannel r n = none := by
  obtain ⟨pre, post, hsplit⟩ := List.append_of_mem he
  obtain ⟨st₁, st₂, hpre, hstep, -⟩ := hrun.at hsplit
  cases hb : e.before.server.channelTable.getByChannel r n with
  | none => rfl
  | some b =>
      exfalso
      have hleads : st₁.server.channelTable.LeadsTo r n b.peerAddr :=
        hstep.leadsTo_before.1 ⟨b, hb, rfl⟩
      obtain ⟨pre', e', post', rfl, ⟨c', hcreates⟩, hsince⟩ := Run.created hpre hinit hleads
      have hsplit' : history = pre' ++ e' :: (post' ++ e :: post) := by
        rw [hsplit, List.append_assoc, List.cons_append]
      rcases h _ _ _ _ _ _ _ hsplit' hcreates with howner | ⟨-, hgone⟩
      · -- the address was the client's; with the binding it would still be
        obtain ⟨st₃, st₄, hpre', hstep', hrest⟩ := hpre.at rfl
        have hinv := Run.inv hpre' hinit
        have howner₄ : owner st₄.server r = some c' := by
          rw [hstep'.next, (hstep'.creates hcreates).2]
          exact howner
        have howner₁ := Run.owner_of_leads hrest (hstep'.spec hinv).1
          (fun e'' he'' => hsince e'' (List.mem_cons_of_mem _ he'')) howner₄
        rw [← hstep.owner_before, (hstep.enters (Run.inv hpre hinit) hinserts).free] at howner₁
        exact absurd howner₁ (by simp)
      · obtain ⟨e'', he'', hnone⟩ := hgone post' e post c rfl hinserts
        obtain ⟨b', hb', -⟩ := hsince e'' (List.mem_cons_of_mem _ he'')
        exact absurd (hnone.symm.trans hb') (by simp)

/-- Without stale bindings, the bindings of an allocation are its owner's. -/
theorem NoStaleBind.later (h : NoStaleBind history) (hrun : Run st₀ history st)
    (hinit : Initial st₀) {mid rest : List (Move ι)} {e₀ : Move ι}
    (hsplit : history = pre ++ e₀ :: (mid ++ e :: rest)) (hinserts : e₀.Inserts c r)
    (howned : ∀ e' ∈ mid ++ [e], owner e'.after.server r = some c) (hleads : e.Leads r n p) :
    ∃ mid₁ e₁ mid₂, mid ++ [e] = mid₁ ++ e₁ :: mid₂ ∧ e₁.Creates c r n p ∧
      ∀ e' ∈ e₁ :: mid₂, e'.Leads r n p := by
  have hsplit' : history = (pre ++ e₀ :: mid) ++ e :: rest := by
    rw [hsplit, List.append_assoc, List.cons_append]
  obtain ⟨st₁, st₂, hpre, hstep, -⟩ := hrun.at hsplit'
  have hlast : st₂.server.channelTable.LeadsTo r n p := by
    rw [hstep.next]
    exact hleads
  obtain ⟨pre', e₁, post', heq, ⟨c₁, hcreates⟩, hsince⟩ :=
    Run.created (hpre.snoc hstep) hinit hlast
  rw [List.append_assoc, List.cons_append] at heq
  obtain ⟨st₃, st₄, hpre₀, hstep₀, -⟩ := hrun.at hsplit
  have henters := hstep₀.enters (Run.inv hpre₀ hinit) hinserts
  rcases Trace.mem_or_later heq with hmem | ⟨mid₁, rfl, hmid⟩
  · -- the binding would have been there at the insertion
    obtain ⟨b, hb, -⟩ := hsince e₀ hmem
    rw [henters.channels, h.inserted hrun hinit (by rw [hsplit]; simp) hinserts n] at hb
    exact absurd hb (by simp)
  · refine ⟨mid₁, e₁, post', hmid, ?_, hsince⟩
    -- the address was the owner's when the binding was entered
    have hsplit₁ : history = (pre ++ e₀ :: mid₁) ++ e₁ :: (post' ++ rest) := by
      rw [hsplit, List.append_assoc, List.cons_append, List.append_cons mid e rest, hmid,
        List.append_assoc, List.cons_append]
    obtain ⟨st₅, st₆, hpre₁, hstep₁, -⟩ := hrun.at hsplit₁
    have howner : owner e₁.before.server r = some c := by
      rw [hstep₁.owner_before]
      refine Trace.Run.ends_with (P := fun st => owner st.server r = some c) hpre₁ ?_
      intro e' he' s₁ s₂ hstep'
      rw [hstep'.next]
      rcases List.mem_cons.1 he' with rfl | he'
      · rw [henters.owner, if_pos rfl]
      · refine howned e' ?_
        rw [hmid]
        exact List.mem_append_left _ he'
    rcases h _ _ _ _ _ _ _ hsplit₁ hcreates with howner' | ⟨hnone, -⟩
    · obtain rfl := Option.some.inj (howner.symm.trans howner')
      exact hcreates
    · exact absurd (hnone.symm.trans howner) (by simp)

/-- The binding that a stale ChannelBind enters for somebody else's address is not the owner's. -/
theorem FreshBindings.creates_owner (h : FreshBindings history) (hrun : Run st₀ history st)
    (hinit : Initial st₀) (hsplit : history = pre ++ e :: post) (hcreates : e.Creates c r n p)
    (howner : owner e.before.server r = some c') : c' = c := by
  obtain ⟨st₁, st₂, hpre, hstep, -⟩ := hrun.at hsplit
  obtain ⟨hleads, hsame⟩ := hstep.creates hcreates
  rw [hstep.owner_before] at howner
  obtain ⟨pre₀, e₀, mid, rfl, hinserts, howned⟩ := Run.inserted hpre hinit howner
  have hsplit' : history = pre₀ ++ e₀ :: (mid ++ e :: post) := by
    rw [hsplit, List.append_assoc, List.cons_append]
  have howned' : ∀ e' ∈ mid ++ [e], owner e'.after.server r = some c' := by
    intro e' he'
    rcases List.mem_append.1 he' with he' | he'
    · exact howned e' (List.mem_cons_of_mem _ he')
    · rw [List.mem_singleton.1 he', hsame, hstep.owner_before]
      exact howner
  obtain ⟨mid₁, e₁, mid₂, hmid, hcreates₁, hsince⟩ :=
    h.later _ _ _ _ _ _ _ hsplit' hinserts howned' n p hleads
  rcases Trace.mem_or_later hmid.symm with hlast | ⟨mid₃, rfl, rfl⟩
  · -- the last step is the one that entered the binding
    obtain rfl := List.mem_singleton.1 hlast
    exact hcreates₁.1.unique hcreates.1
  · -- otherwise the binding was there before the last step
    have hbefore : st₁.server.channelTable.LeadsTo r n p := by
      rw [← List.cons_append, ← List.append_assoc] at hpre
      refine Trace.Run.ends_with (P := fun st => st.server.channelTable.LeadsTo r n p) hpre ?_
      intro e' he' s₁ s₂ hstep'
      rw [hstep'.next]
      refine hsince e' ?_
      rw [← List.cons_append]
      exact List.mem_append_left _ he'
    obtain ⟨b, hb, -⟩ := hstep.leadsTo_before.2 hbefore
    exact absurd (hcreates.2.symm.trans hb) (by simp)

/-- A binding that was entered for a free address is gone when the address is given out. -/
theorem FreshBindings.gone (h : FreshBindings history) (hrun : Run st₀ history st)
    {mid rest : List (Move ι)} {e' : Move ι} (hsplit : history = pre ++ e :: (mid ++ e' :: rest))
    (hcreates : e.Creates c r n p) (hinserts : e'.Inserts c' r) :
    ∃ e'' ∈ mid, e''.after.server.channelTable.getByChannel r n = none := by
  have hsplit' : history = (pre ++ e :: mid) ++ e' :: rest := by
    rw [hsplit, List.append_assoc, List.cons_append]
  obtain ⟨st₁, st₂, hpre, hstep, -⟩ := hrun.at hsplit'
  have hnone := h.inserted e' (by rw [hsplit']; simp) c' r hinserts n
  rw [hstep.rehashed.getByChannel] at hnone
  by_contra hgone
  -- the binding would have been there from the step that entered it on
  refine Trace.Run.ends_with (P := fun st => st.server.channelTable.getByChannel r n ≠ none) hpre
    ?_ hnone
  intro e'' he'' s₁ s₂ hstep'
  rw [hstep'.next]
  rcases List.mem_cons.1 he'' with rfl | he''
  · obtain ⟨⟨b, hb, -⟩, -⟩ := hstep'.creates hcreates
    rw [hb]
    exact Option.some_ne_none b
  · exact fun hnone' => hgone ⟨e'', he'', hnone'⟩

/-- However ChannelBinds, removals and Allocates are interleaved, new allocations start without
    bindings, and later have only those of their owner, exactly if no ChannelBind is stale: when it
    enters a binding, the address is still its client's, or is free and is not given out before the
    binding is gone. -/
theorem fresh_bindings_iff (hinit : Initial st₀) (hrun : Run st₀ history st) :
    FreshBindings history ↔ NoStaleBind history := by
  constructor
  · intro h pre e post c r n p hsplit hcreates
    cases howner : owner e.before.server r with
    | some c' => exact Or.inl (congrArg some (h.creates_owner hrun hinit hsplit hcreates howner))
    | none =>
        refine Or.inr ⟨rfl, fun mid e' rest c' hpost hinserts => ?_⟩
        rw [hpost] at hsplit
        exact h.gone hrun hsplit hcreates hinserts
  · intro h
    exact ⟨fun e he c r hinserts => h.inserted hrun hinit he hinserts,
      fun pre e₀ mid e rest c r hsplit hinserts howned n p hleads =>
        h.later hrun hinit hsplit hinserts howned hleads⟩

/-- The sample server with two tasks. -/
def sampleState : State Bool := ⟨sampleServer true none, fun _ => .idle⟩

theorem sampleState_initial : Initial sampleState :=
  ⟨sampleServer_started true none, fun _ => rfl⟩

/-- The client allocates and binds a channel, one after the other. -/
def soloBind : List (Event Bool) :=
  soloAllocate false sampleClient ++ [.request false sampleClient (.channelBind 0x4000 samplePeer),
    .access false (sampleEnv 2), .access false (sampleEnv 2)]

theorem fresh_bindings_iff_solo : FreshBindings (play sampleState soloBind).1 := by
  refine (fresh_bindings_iff sampleState_initial Run.of_play).2 ?_
  rintro pre e post c r n p hsplit ⟨⟨i, env, hevent, hpc⟩, -⟩
  have he : e ∈ (play sampleState soloBind).1 := by
    rw [hsplit]
    simp
  simp only [soloBind, soloAllocate, List.replicate, List.cons_append, List.nil_append, play,
    List.mem_cons, List.not_mem_nil, or_false] at he
  rcases he with rfl | rfl | rfl | rfl | rfl | rfl | rfl | rfl | rfl
  · cases hevent
  · obtain ⟨rfl, -⟩ := Event.access.inj hevent
    exact Pc.noConfusion hpc
  · obtain ⟨rfl, -⟩ := Event.access.inj hevent
    exact Pc.noConfusion hpc
  · obtain ⟨rfl, -⟩ := Event.access.inj hevent
    exact Pc.noConfusion hpc
  · obtain ⟨rfl, -⟩ := Event.access.inj hevent
    exact Pc.noConfusion hpc
  · obtain ⟨rfl, -⟩ := Event.access.inj hevent
    exact Pc.noConfusion hpc
  · cases hevent
  · obtain ⟨rfl, -⟩ := Event.access.inj hevent
    exact Pc.noConfusion hpc
  · -- the binding is entered while the address is the client's
    obtain ⟨rfl, -⟩ := Event.access.inj hevent
    left
    obtain ⟨rfl, rfl, -, -⟩ := Pc.channelBind.inj hpc
    decide +kernel

/-- A client has found its address for a ChannelBind when it deletes its allocation over another
    listener, and another client is about to get the port. -/
def staleBind : List (Event Bool) :=
  soloAllocate false sampleClient ++ [.request false sampleClient (.channelBind 0x4000 samplePeer),
    .access false (sampleEnv 2), .request true sampleClient (.refresh 0),
    .access true (sampleEnv 3), .access true (sampleEnv 3),
    .request true otherClient (.allocate 600), .access true (sampleEnv 4),
    .access true (sampleEnv 4), .access true (sampleEnv 4), .access true (sampleEnv 4)]

/-- If the binding is entered first, the other client's allocation is inserted with it; if the
    allocation is inserted first, it gets a binding that its owner did not ask for. -/
theorem stale_binding_inherited :
    (∃ history e st, Run sampleState (history ++ [e]) st ∧ e.Inserts otherClient sampleRelayed ∧
      e.before.server.channelTable.LeadsTo sampleRelayed 0x4000 samplePeer) ∧
    ∃ history e st, Run sampleState (history ++ [e]) st ∧
      owner e.before.server sampleRelayed = some otherClient ∧
      e.Creates sampleClient sampleRelayed 0x4000 samplePeer := by
  constructor
  · refine ⟨_, .of (play sampleState (staleBind ++ [.access false (sampleEnv 5)])).2
      (.access true (sampleEnv 5)), _, Run.of_play.snoc ⟨.refl _, rfl, rfl, rfl⟩, ?_, ?_⟩
    · exact ⟨true, sampleEnv 5, 600, 5000, rfl, by decide +kernel, by decide +kernel⟩
    · exact ⟨⟨0x4000, samplePeer, sampleRelayed, fromSecs 5, fromSecs 600⟩, by decide +kernel, rfl⟩
  · refine ⟨_, .of (play sampleState (staleBind ++ [.access true (sampleEnv 5)])).2
      (.access false (sampleEnv 5)), _, Run.of_play.snoc ⟨.refl _, rfl, rfl, rfl⟩, ?_, ?_, ?_⟩
    · decide +kernel
    · exact ⟨false, sampleEnv 5, rfl, by decide +kernel⟩
    · decide +kernel

end Interleaving

end Miuturn
