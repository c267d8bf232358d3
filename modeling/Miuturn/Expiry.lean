import Miuturn.Frames
import Miuturn.Origin

set_option autoImplicit false

/-! # When a refreshed allocation expires

An allocation expires `lifetime` after it was created. A Refresh stores a new lifetime and leaves
the time of creation, so the time it adds is short by the age of the allocation: a Refresh gives the
lifetime it answers with exactly for an allocation of age zero.

The lifetime it stores is the one the client asked for. The configured maximum is only applied when
an allocation is created, so it holds exactly as far as no Refresh asks for more. -/

open RustStd

namespace Miuturn

variable {D : Digests} {e : Transition} {m : Message} {c : SocketAddr} {L : UInt32}

/-! ## Creation times and lifetimes along runs -/

/-- No allocation is younger than the clock. -/
theorem Run.createdAt_le {w₀ w : World} {history : List Transition} (hrun : Run D w₀ history w)
    (hstart : Started w₀.server) {k : SocketAddr} {a : Allocation}
    (ha : w.server.allocationTable.allocations.lookup k = some a) : a.createdAt ≤ w.clock := by
  refine hrun.forall_allocation (P := fun w a => a.createdAt ≤ w.clock) (C := fun _ => True) hstart
    (fun _ _ => trivial) ?_ ha
  intro history w e w' _ hstep hbefore _ ih k a ha
  have hclock := hstep.clock
  rw [hstep.next]
  cases hstep.origin hbefore ha with
  | kept ha' hcontinues _ =>
      rw [← hcontinues.createdAt]
      exact (ih k _ ha').trans hclock
  | created _ hcreatedAt _ _ => exact hcreatedAt.le

/-- Nothing in the history refreshes, replaces or removes the allocation of `c` at `k`. -/
def Undisturbed (history : List Transition) (c k : SocketAddr) : Prop :=
  ∀ e ∈ history, (∀ m, e.event = .message m c →
      m.header.method ≠ .refresh ∧ m.header.method ≠ .allocate) ∧
    ∃ a, e.after.allocationTable.allocations.lookup k = some a ∧ a.clientAddr = c

/-- An undisturbed allocation keeps its time of creation and its lifetime. -/
theorem Run.timer_kept {w w' : World} {history : List Transition} (hrun : Run D w history w')
    (hc : w.server.Consistent) {k : SocketAddr} {a : Allocation}
    (ha : w.server.allocationTable.allocations.lookup k = some a) (hclient : a.clientAddr = c)
    (hquiet : Undisturbed history c k) :
    ∃ a', w'.server.allocationTable.allocations.lookup k = some a' ∧ a'.clientAddr = c ∧
      a'.createdAt = a.createdAt ∧ a'.lifetime = a.lifetime := by
  refine Trace.Run.invariant_while (P := fun w' =>
    ∃ a', w'.server.allocationTable.allocations.lookup k = some a' ∧ a'.clientAddr = c ∧
      a'.createdAt = a.createdAt ∧ a'.lifetime = a.lifetime) hrun hquiet
    ⟨a, ha, hclient, rfl, rfl⟩ ?_
  rintro history w₁ e w₂ hprev ⟨hother, a₂, ha₂, hc₂⟩ ⟨a₁, ha₁, hc₁, hcreated₁, hlifetime₁⟩ hstep
  rw [hstep.next]
  refine ⟨a₂, ha₂, hc₂, ?_⟩
  cases hstep.origin (Run.consistent_before hprev hc hstep) ha₂ with
  | kept ha' hcontinues _ =>
      rw [hstep.rehashed.lookup_allocations, ha₁] at ha'
      obtain rfl := Option.some.inj ha'
      refine ⟨hcontinues.createdAt ▸ hcreated₁, ?_⟩
      rcases hcontinues.lifetime with hsame | ⟨m, hevent, hrefresh⟩
      · rw [← hsame, hlifetime₁]
      · rw [hc₂] at hevent
        exact absurd hrefresh (hother m hevent).1
  | created hgranted _ _ _ =>
      obtain ⟨hevent, hallocate, -⟩ := hgranted
      rw [hc₂] at hevent
      exact absurd hallocate (hother _ hevent).2

/-! ## Refresh -/

/-- A granted Refresh with a lifetime stores the lifetime, and nothing else, in the allocation of
    its client. -/
theorem Step.refreshed {w w' : World} (hstep : Step D w e w') (hc : e.before.Consistent)
    (hgranted : e.Granted .refresh c m) (hlifetime : getLifetime m = .ok L) (hpos : L ≠ 0) :
    ∃ k a, e.before.allocationTable.entryOfClient c = some ⟨k, a⟩ ∧
      e.after.allocationTable.allocations.lookup k
        = some { a with lifetime := fromSecs L.toNat } := by
  obtain ⟨hevent, hmethod, b, hresponse, hclass⟩ := hgranted
  have heffect := hstep.effect hevent
  generalize e.after = after, e.response = response, e.sent = sent, e.removed = removed
    at heffect hresponse ⊢
  cases heffect with
  | inert herror =>
      have := herror b hresponse (by rw [hmethod]; decide)
      exact absurd (hclass.symm.trans this) (by decide)
  | challenge reason _ =>
      obtain rfl := Option.some.inj hresponse
      have := answerClass_unauthorized e.env e.before m reason
      exact absurd (hclass.symm.trans this) (by decide)
  | allocateFailed hm _ _ _ => exact absurd (hmethod.symm.trans hm) (by decide)
  | allocated hm _ _ _ _ => exact absurd (hmethod.symm.trans hm) (by decide)
  | deleted _ _ _ hzero => exact absurd (Except.ok.inj (hlifetime.symm.trans hzero)) hpos
  | refreshed _ _ hentry _ htable hl =>
      obtain rfl := Except.ok.inj (hlifetime.symm.trans hl)
      obtain ⟨hlookup, -⟩ := entryOfClient_eq_some hentry
      refine ⟨_, _, hentry, ?_⟩
      rw [(hc.key _ _ hlookup).1] at htable
      obtain ⟨a, ha, hrefreshed⟩ := lookup_refreshed htable
      obtain rfl := Option.some.inj (hlookup.symm.trans ha)
      exact hrefreshed
  | permitted hm _ _ _ => exact absurd (hmethod.symm.trans hm) (by decide)
  | bound hm _ _ _ _ _ _ _ => exact absurd (hmethod.symm.trans hm) (by decide)
  | relayed peer data hm => exact absurd (hmethod.symm.trans hm) (by decide)

theorem isExpired_eq_false {a : Allocation} {now : ℕ} :
    a.isExpired now = false ↔ now ≤ a.createdAt + a.lifetime := by
  unfold Allocation.isExpired
  rw [decide_eq_false_iff_not]
  omega

/-- A granted Refresh with lifetime `L` at time `t` keeps the allocation of its client alive until
    `t` plus `L` (not expired, and not removed by a cleanup, at any time up to then while nothing
    else happens to the allocation) exactly if the allocation was created at `t`. -/
theorem refresh_extends_iff {w₀ w w' : World} {history : List Transition}
    (hstart : Started w₀.server) (hrun : Run D w₀ history w) (hstep : Step D w e w')
    (hgranted : e.Granted .refresh c m) (hlifetime : getLifetime m = .ok L) (hpos : L ≠ 0) :
    ∃ k a, e.before.allocationTable.entryOfClient c = some ⟨k, a⟩ ∧
      ((∀ (later : List Transition) (w'' : World) (t' : ℕ), Run D w' later w'' →
          Undisturbed later c k → w''.clock ≤ t' → t' ≤ e.env.now + fromSecs L.toNat →
          ∃ a', w''.server.allocationTable.allocations.lookup k = some a' ∧
            a'.isExpired t' = false ∧
            (w''.server.allocationTable.cleanupExpired w''.server.channelTable
              t').1.1.allocations.lookup k = some a') ↔
        a.createdAt = e.env.now) := by
  have hconsistent := hstep.after_consistent (hrun.consistent hstart.fresh.consistent)
  obtain ⟨k, a, hentry, hafter⟩ := hstep.refreshed hconsistent.1 hgranted hlifetime hpos
  obtain ⟨hlookup, hclient⟩ := entryOfClient_eq_some hentry
  have hafter' : w'.server.allocationTable.allocations.lookup k
      = some { a with lifetime := fromSecs L.toNat } := by
    rw [hstep.next]
    exact hafter
  refine ⟨k, a, hentry, ?_, ?_⟩
  · -- at the very end of the lifetime, with nothing in between
    intro hlives
    have hold : a.createdAt ≤ w.clock := by
      refine hrun.createdAt_le hstart (k := k) ?_
      rw [← hstep.rehashed.lookup_allocations]
      exact hlookup
    obtain ⟨a', ha', hexpired, -⟩ := hlives [] w' (e.env.now + fromSecs L.toNat) .nil
      (fun e' he' => absurd he' (by simp)) (by rw [hstep.next]; exact Nat.le_add_right _ _) le_rfl
    obtain rfl := Option.some.inj (hafter'.symm.trans ha')
    have hle := isExpired_eq_false.1 hexpired
    have hclock := hstep.clock
    dsimp only at hle
    omega
  · intro hcreated later w'' t' hlater hquiet _ ht'
    obtain ⟨a', ha', -, hcreated', hlifetime'⟩ :=
      hlater.timer_kept hconsistent.2 hafter' hclient hquiet
    have hexpired : a'.isExpired t' = false := by
      rw [isExpired_eq_false, hcreated', hlifetime']
      dsimp only
      omega
    exact ⟨a', ha', hexpired, lookup_cleanupExpired_allocations.2 ⟨ha', hexpired⟩⟩

/-- The Refresh of the sample client, with LIFETIME 600. -/
def sampleRefresh : Event :=
  .message (sampleRequest .refresh [⟨Attribute.lifetime, putU32 600⟩]) sampleClient

/-- The client allocates at second 5. -/
def allocatedWorld : World :=
  (play sampleDigests ⟨sampleServer true none, 0⟩
    [(sampleEnv 5, .message (sampleRequest .allocate []) sampleClient)]).2

/-- A Refresh in the same instant. -/
def refreshAtOnce : Transition :=
  .of sampleDigests (sampleEnv 5) allocatedWorld.server sampleRefresh

theorem refresh_extends_iff_at_once :
    ∃ k a', refreshAtOnce.after.allocationTable.allocations.lookup k = some a' ∧
      a'.isExpired (fromSecs 605) = false := by
  have hrun : Run sampleDigests ⟨sampleServer true none, 0⟩ _ allocatedWorld :=
    Run.of_play (by decide)
  have hstep : Step sampleDigests allocatedWorld refreshAtOnce ⟨refreshAtOnce.after, fromSecs 5⟩ :=
    Step.of_clock (by decide +kernel) _
  obtain ⟨k, a, hentry, hiff⟩ := refresh_extends_iff (L := 600) (sampleServer_started true none)
    hrun hstep ⟨rfl, rfl, _, rfl, by decide +kernel⟩ rfl (by decide)
  have hcreated : (refreshAtOnce.before.allocationTable.entryOfClient sampleClient).map
      (fun e => e.2.createdAt) = some refreshAtOnce.env.now := by decide +kernel
  rw [hentry] at hcreated
  obtain ⟨a', ha', hexpired, -⟩ := hiff.2 (Option.some.inj hcreated) [] _ (fromSecs 605) .nil
    (fun e he => absurd he (by simp)) (by decide) (by decide)
  exact ⟨k, a', ha', hexpired⟩

/-- A client allocates at second 0, is granted a Refresh for 600 seconds at second 500, and loses
    the allocation to the cleanup at second 700. -/
theorem refreshed_allocation_expires :
    let result := play sampleDigests ⟨sampleServer true none, 0⟩
      [(sampleEnv 0, .message (sampleRequest .allocate []) sampleClient),
       (sampleEnv 500, sampleRefresh), (sampleEnv 700, .cleanupAllocations)]
    result.1.map (fun e => e.response.bind answerClass) = [some .success, some .success, none] ∧
      result.1.map (fun e => HashMap.len e.after.allocationTable.allocations) = [1, 1, 0] := by
  decide +kernel

/-! ## The configured maximum -/

theorem Effect.limits {env : Env} {server : TurnServer} {msg : Message} {client : SocketAddr}
    {o : Outcome} (he : Effect D env server msg client o) :
    o.server.allocationTable.limits = server.allocationTable.limits := by
  cases he with
  | inert _ => rfl
  | challenge reason _ => rfl
  | allocateFailed _ _ _ _ => exact removeExisting_limits server client
  | allocated _ _ _ _ _ => exact removeExisting_limits server client
  | deleted _ _ _ _ => exact removeAllocation_limits _ _ _
  | refreshed _ _ _ _ htable _ =>
      rw [refreshAllocation_eq_ok htable]
      rfl
  | permitted _ _ hentry _ =>
      simp only [AllocationTable.addPermissions, hentry]
      rfl
  | bound _ _ _ _ _ _ _ _ => rfl
  | relayed peer data _ =>
      rcases sendToPeer_cases server.allocationTable env.sendOk client peer data with
        heq | ⟨e, relay, -, -, heq⟩
      · rw [heq]
      · rw [heq]
        rfl

theorem Step.limits {w w' : World} (hstep : Step D w e w') :
    e.before.allocationTable.limits = w.server.allocationTable.limits ∧
      w'.server.allocationTable.limits = w.server.allocationTable.limits := by
  have hbefore : e.before.allocationTable.limits = w.server.allocationTable.limits := by
    obtain ⟨allocations, channels, -, -, heq⟩ := hstep.rehashed
    rw [heq]
    rfl
  refine ⟨hbefore, ?_⟩
  rw [hstep.next, ← hbefore, hstep.after_eq]
  cases e.event with
  | message msg client => exact (react_message D e.env e.before msg client).limits
  | channelData data client =>
      obtain ⟨sent, heq, -⟩ := react_channelData D e.env e.before data client
      rw [heq]
  | cleanupAllocations =>
      exact cleanupExpired_induct
        (P := fun t _ => t.limits = e.before.allocationTable.limits)
        (fun t ct addr h => (removeAllocation_limits t ct addr).trans h) rfl
  | cleanupChannels => rfl
  | cleanupNonces => rfl
  | changeAuth change => rfl

theorem Run.limits {w₀ w : World} {history : List Transition} (hrun : Run D w₀ history w) :
    w.server.allocationTable.limits = w₀.server.allocationTable.limits :=
  Trace.Run.invariant
    (P := fun _ w => w.server.allocationTable.limits = w₀.server.allocationTable.limits) hrun rfl
    (fun _ _ _ _ _ ih hstep => hstep.limits.2.trans ih)

/-- The Refreshes that the server takes: TURN is on, the client is let in and has an allocation, and
    the lifetime can be read. -/
structure TakesRefresh (D : Digests) (env : Env) (server : TurnServer) (msg : Message)
    (client : SocketAddr) (L : UInt32) : Prop where
  turn : server.turnEnabled = true
  method : msg.header.method = .refresh
  admitted : Admitted D env server msg client
  allocation : server.allocationTable.findAllocationByClient client ≠ none
  lifetime : getLifetime msg = .ok L

/-- A Refresh that the server takes gives the allocation the lifetime it asks for. -/
theorem Step.takesRefresh {w w' : World} (hstep : Step D w e w') (hc : e.before.Consistent)
    (hevent : e.event = .message m c) (h : TakesRefresh D e.env e.before m c L) (hpos : L ≠ 0) :
    ∃ k a, e.after.allocationTable.allocations.lookup k = some a ∧
      a.lifetime = fromSecs L.toNat := by
  obtain ⟨u, hu⟩ := admitted_iff.1 h.admitted
  obtain ⟨r, hr⟩ := Option.ne_none_iff_exists'.1 h.allocation
  obtain ⟨entry, hentry, rfl⟩ := Option.map_eq_some_iff.1 hr
  obtain ⟨hlookup, -⟩ := entryOfClient_eq_some hentry
  rw [(hc.key _ _ hlookup).1] at hr
  refine ⟨entry.1, { entry.2 with lifetime := fromSecs L.toNat }, ?_, rfl⟩
  rw [hstep.after_eq, hevent, react, perform,
    processMessage_authenticated (by rw [h.method]; decide) h.turn, withAuth_ok hu,
    requestBody_refresh h.method, h.lifetime, Rust.ok_bind, refreshFor, hr]
  dsimp only
  rw [if_neg hpos, AllocationTable.refreshAllocation, hlookup]
  dsimp only
  rw [HashMap.lookup_modify, if_pos rfl, hlookup]
  rfl

/-- Only a Refresh that the server takes gives an allocation another lifetime. -/
theorem Step.lifetime_cases {w w' : World} (hstep : Step D w e w') (hc : e.before.Consistent)
    {k : SocketAddr} {a : Allocation}
    (ha : e.after.allocationTable.allocations.lookup k = some a) :
    (∃ a', e.before.allocationTable.allocations.lookup k = some a' ∧ a.lifetime = a'.lifetime) ∨
    (∃ m L, e.event = .message m a.clientAddr ∧
      TakesRefresh D e.env e.before m a.clientAddr L ∧ a.lifetime = fromSecs L.toNat) ∨
    MadeBy e a := by
  rcases hstep.carries hc ha with ⟨a', ha', hcarries⟩ | hmade
  · rcases hcarries.lifetime with hsame | ⟨m, L, u, hevent, hmethod, hauth, hL, hlifetime⟩
    · exact Or.inl ⟨a', ha', hsame⟩
    · cases hturn : e.before.turnEnabled with
      | false =>
          rw [(hstep.turnDisabled hevent (by rw [hmethod]; decide) hturn).1] at ha
          exact Or.inl ⟨a, ha, rfl⟩
      | true =>
          refine Or.inr (Or.inl ⟨m, L, hevent, ⟨hturn, hmethod, admitted_iff.2 ⟨u, hauth⟩,
            fun hnone => ?_, hL⟩, hlifetime⟩)
          exact entryOfClient_eq_none (Option.map_eq_none_iff.1 hnone) ha' hcarries.client.symm
  · exact Or.inr (Or.inr hmade)

/-- While no Refresh that the server takes asks for more than the maximum, no allocation has
    more. -/
theorem Run.lifetime_le {w₀ w : World} {history : List Transition} {M : UInt32}
    (hrun : Run D w₀ history w) (hstart : Started w₀.server)
    (hcap : w₀.server.allocationTable.maxAllocationDurationSecs = some M)
    (h : ∀ e ∈ history, ∀ m c L, e.event = .message m c → TakesRefresh D e.env e.before m c L →
      L.toNat ≤ M.toNat) {k : SocketAddr} {a : Allocation}
    (ha : w.server.allocationTable.allocations.lookup k = some a) :
    a.lifetime ≤ fromSecs M.toNat := by
  refine hrun.forall_allocation (P := fun _ a => a.lifetime ≤ fromSecs M.toNat) hstart h ?_ ha
  intro history w e w' hprev hstep hc hasked ih k a ha
  rcases hstep.lifetime_cases hc ha with
    ⟨a', ha', hsame⟩ | ⟨m, L, hevent, htakes, hlifetime⟩ | hmade
  · rw [hsame]
    exact ih k a' ha'
  · rw [hlifetime]
    exact Nat.mul_le_mul_right _ (hasked m _ L hevent htakes)
  · refine hmade.lifetime M ?_
    exact (congrArg Prod.snd (hstep.limits.1.trans hprev.limits)).trans hcap

/-- Along every run of a server with a maximum duration `M`, no allocation has a lifetime of more
    than `M` seconds exactly if no Refresh that the server takes asks for more. -/
theorem duration_cap_iff {w₀ w : World} {history : List Transition} {M : UInt32}
    (hstart : Started w₀.server) (hrun : Run D w₀ history w)
    (hcap : w₀.server.allocationTable.maxAllocationDurationSecs = some M) :
    (∀ e ∈ history, ∀ k a, e.after.allocationTable.allocations.lookup k = some a →
        a.lifetime ≤ fromSecs M.toNat) ↔
      ∀ e ∈ history, ∀ m c L, e.event = .message m c → TakesRefresh D e.env e.before m c L →
        L.toNat ≤ M.toNat := by
  constructor
  · intro h e he m c L hevent htakes
    obtain ⟨pre, w₁, w₂, -, hpre, hstep⟩ := hrun.of_mem he
    have hc := Run.consistent_before hpre hstart.fresh.consistent hstep
    by_cases hpos : L = 0
    · rw [hpos]
      exact Nat.zero_le _
    · obtain ⟨k, a, ha, hlifetime⟩ := hstep.takesRefresh hc hevent htakes hpos
      have hle := h e he k a ha
      rw [hlifetime] at hle
      exact Nat.le_of_mul_le_mul_right hle (by decide)
  · intro h e he k a ha
    obtain ⟨pre, w₁, w₂, hmem, hpre, hstep⟩ := hrun.of_mem he
    refine Run.lifetime_le (hpre.snoc hstep) hstart hcap (fun e' he' => h e' (hmem e' he'))
      (k := k) ?_
    rw [hstep.next]
    exact ha

/-- The sample server with a maximum duration of 300 seconds. -/
def cappedServer : TurnServer :=
  { sampleServer true none with
      allocationTable := { (sampleServer true none).allocationTable with
        maxAllocationDurationSecs := some 300 } }

theorem cappedServer_started : Started cappedServer :=
  ⟨⟨203, 0, 113, 1⟩, ⟨10, 0, 0, 1⟩, "miuturn", 5000, 5003, none, some 300, "password", true,
    "miuturn", cappedServer, none, true, true, rfl, rfl⟩

/-- An Allocate that asks for 600 seconds gets at most 300. -/
theorem duration_cap_iff_allocate :
    ∃ e ∈ (play sampleDigests ⟨cappedServer, 0⟩
        [(sampleEnv 1, .message (sampleRequest .allocate []) sampleClient)]).1,
      ∃ a, e.after.allocationTable.getAllocationByClient sampleClient = some a ∧
        a.lifetime ≤ fromSecs 300 := by
  have hrun : Run sampleDigests ⟨cappedServer, 0⟩ (play sampleDigests ⟨cappedServer, 0⟩
      [(sampleEnv 1, .message (sampleRequest .allocate []) sampleClient)]).1 _ :=
    Run.of_play (by decide)
  have hcap := (duration_cap_iff cappedServer_started hrun rfl).2 (by
    intro e he m c L hevent htakes
    obtain rfl := List.mem_singleton.1 he
    obtain ⟨rfl, -⟩ := Event.message.inj hevent
    exact absurd htakes.method (by decide))
  have he := List.mem_singleton_self (Transition.of sampleDigests (sampleEnv 1) cappedServer
    (.message (sampleRequest .allocate []) sampleClient))
  exact ⟨_, he, _, rfl, hcap _ he (.v4 ⟨203, 0, 113, 1⟩ 5000) _ rfl⟩

/-- A Refresh that asks for 600 seconds gets 600, twice the maximum. -/
theorem refresh_exceeds_cap :
    let result := play sampleDigests ⟨cappedServer, 0⟩
      [(sampleEnv 1, .message (sampleRequest .allocate []) sampleClient),
       (sampleEnv 2, sampleRefresh)]
    result.1.map (fun e => e.response.bind answerClass) = [some .success, some .success] ∧
      result.1.map (fun e => (e.after.allocationTable.getAllocationByClient sampleClient).map
        Allocation.lifetime) = [some (fromSecs 300), some (fromSecs 600)] := by
  decide +kernel

end Miuturn
