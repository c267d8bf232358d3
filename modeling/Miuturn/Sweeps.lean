import Miuturn.AuthRuns
import Miuturn.Channels
import Miuturn.Expiry
import Miuturn.Sweep

set_option autoImplicit false

/-! # What the cleanup tasks guarantee (`server.rs`)

Three tasks go through the tables: every 30 seconds for nonces and allocations, every 60 seconds for
channel bindings. In `System.lean` their passes may come at any time or never. Here they come in
time: no step is more than a period after the last pass before it, for any period, so that a pass
that is late is covered too.

Then nothing outlives its time by more than the period. The server's memory for nonces is bounded by
the requests it has challenged lately, and a server that nobody asks for anything gives back all it
has handed out. -/

open RustStd

namespace Miuturn

variable {D : Digests} {w₀ w w' : World} {history : List Transition} {e : Transition} {period : ℕ}

/-- `start_nonce_cleanup_task`, `start_channel_cleanup_task`, `start_allocation_cleanup_task`. -/
inductive CleanupTask where
  | nonces
  | channels
  | allocations
  deriving DecidableEq

/-- A pass of a task. -/
def CleanupTask.event : CleanupTask → Event
  | .nonces => .cleanupNonces
  | .channels => .cleanupChannels
  | .allocations => .cleanupAllocations

def Event.task : Event → Option CleanupTask
  | .cleanupNonces => some .nonces
  | .cleanupChannels => some .channels
  | .cleanupAllocations => some .allocations
  | _ => none

def Transition.now (e : Transition) : ℕ := e.env.now

def Transition.isPass (task : CleanupTask) (e : Transition) : Bool := e.event.task = some task

theorem Transition.isPass_eq_true {task : CleanupTask} :
    e.isPass task = true ↔ e.event = task.event := by
  unfold isPass
  rw [decide_eq_true_eq]
  cases e.event <;> cases task <;> simp [Event.task, CleanupTask.event]

/-- The passes of the task come in time, at most a period apart. -/
def Punctual (task : CleanupTask) (period : ℕ) (w₀ : World) (history : List Transition) : Prop :=
  Sweep.punctual Transition.now (Transition.isPass task) period w₀.clock history = true

theorem Step.clock_eq (h : Step D w e w') : w'.clock = e.now := by
  rw [h.next]
  rfl

theorem Step.after_pass {task : CleanupTask} (h : Step D w e w') (hpass : e.isPass task = true) :
    w'.server = (react D e.env e.before task.event).server := by
  rw [h.next, ← Transition.isPass_eq_true.1 hpass]
  exact h.after_eq

/-! ## Nonces -/

theorem nonceSweeper (D : Digests) :
    Sweep.Sweeper Transition.now (Transition.isPass .nonces) (Step D) (fun _ => True) World.clock
      (fun w nonce d => ∃ entry, w.server.nonceMap.lookup nonce = some entry ∧
        d + 1 = entry.createdAt + fromSecs 600)
      (fun e nonce d => Issues e nonce ∧ d + 1 = e.now + fromSecs 600) where
  inv := fun _ _ => trivial
  clock_le := fun h => h.clock
  clock_eq := fun h => h.clock_eq
  origin := by
    rintro w e w' nonce d - hstep ⟨entry, hentry, hd⟩
    rw [hstep.next] at hentry
    rcases hstep.nonceOrigin hentry with hold | ⟨hissues, hcreated⟩
    · rw [hstep.rehashed.nonceMap] at hold
      exact .inl ⟨entry, hold, hd⟩
    · rw [hcreated] at hd
      exact .inr ⟨hissues, hd⟩
  survives := by
    rintro w e w' nonce d - hstep hpass ⟨entry, hentry, hd⟩
    rw [hstep.after_pass hpass] at hentry
    have hkept : (cleanupNonces e.before e.env.now).nonceMap.lookup nonce = some entry := hentry
    rw [cleanupNonces, HashMap.lookup_retain, Option.filter_eq_some_iff, decide_eq_true_eq] at hkept
    have hage := hkept.2
    rw [asSecs, Nat.div_lt_iff_lt_mul (by decide)] at hage
    unfold fromSecs at hd
    show e.env.now ≤ d
    omega

/-- A nonce is gone a period after its 600 seconds. -/
theorem Run.nonce_age (hrun : Run D w₀ history w) (hstart : Started w₀.server)
    (hpunctual : Punctual .nonces period w₀ history) {nonce : String} {entry : NonceEntry}
    (hentry : w.server.nonceMap.lookup nonce = some entry) :
    w.clock < entry.createdAt + fromSecs 600 + period := by
  have hnone : ∀ nonce d, ¬ ∃ entry, w₀.server.nonceMap.lookup nonce = some entry ∧
      d + 1 = entry.createdAt + fromSecs 600 := by
    rintro nonce d ⟨entry, hentry, -⟩
    rw [hstart.fresh.nonceMap] at hentry
    exact absurd hentry (by simp)
  have hpos : 0 < fromSecs 600 := by decide
  obtain ⟨e, -, ⟨-, hd⟩, hle⟩ := (nonceSweeper D).due hrun trivial hnone hpunctual
    (i := nonce) (d := entry.createdAt + fromSecs 600 - 1) ⟨entry, hentry, by omega⟩
  omega

/-- The times of the challenges of a history. -/
noncomputable def challengeTimes (history : List Transition) : List ℕ :=
  open Classical in (history.filter (fun e => ∃ nonce, Issues e nonce)).map Transition.now

theorem challengeTimes_snoc (history : List Transition) (e : Transition) :
    challengeTimes (history ++ [e]) = challengeTimes history ++ challengeTimes [e] := by
  rw [challengeTimes, challengeTimes, challengeTimes, List.filter_append, List.map_append]

theorem challengeTimes_single {nonce : String} (h : Issues e nonce) :
    challengeTimes [e] = [e.now] := by
  have hissues : ∃ nonce, Issues e nonce := ⟨nonce, h⟩
  simp [challengeTimes, hissues]

def nonceTimes (server : TurnServer) : List ℕ :=
  (HashMap.values server.nonceMap).map NonceEntry.createdAt

theorem nonceTimes_insert (server : TurnServer) (nonce : String) (entry : NonceEntry) :
    (nonceTimes { server with nonceMap := server.nonceMap.insert nonce entry }).Subperm
      (entry.createdAt :: nonceTimes server) := by
  show (entry.createdAt :: _).Subperm _
  refine (List.subperm_cons _).2 (List.Sublist.subperm ?_)
  exact ((List.kerase_sublist nonce server.nonceMap.entries).map _).map _

/-- Each nonce in the map has a challenge of its own. -/
theorem Run.nonceTimes_subperm (hrun : Run D w₀ history w) (hstart : Started w₀.server) :
    (nonceTimes w.server).Subperm (challengeTimes history) := by
  refine Trace.Run.invariant
    (P := fun history w => (nonceTimes w.server).Subperm (challengeTimes history)) hrun ?_ ?_
  · rw [nonceTimes, hstart.fresh.nonceMap]
    exact List.nil_subperm
  · intro history w e w' _ ih hstep
    have hbefore : nonceTimes e.before = nonceTimes w.server := by
      rw [nonceTimes, hstep.rehashed.nonceMap]
      rfl
    rw [hstep.next, challengeTimes_snoc]
    have hold : (nonceTimes w.server).Subperm (challengeTimes history ++ challengeTimes [e]) :=
      ih.trans (List.sublist_append_left _ _).subperm
    rcases hstep.nonceMap_cases with hsame | ⟨hissues, hinsert⟩ | hclean
    · have hafter : nonceTimes e.after = nonceTimes e.before := by
        rw [nonceTimes, hsame]
        rfl
      rw [hafter, hbefore]
      exact hold
    · rw [nonceTimes, hinsert, challengeTimes_single hissues]
      refine (nonceTimes_insert e.before _ _).trans ?_
      rw [hbefore]
      exact ((List.subperm_cons _).2 ih).trans (List.perm_append_singleton _ _).symm.subperm
    · rw [nonceTimes, hclean]
      refine List.Subperm.trans (List.Sublist.subperm ?_) (hbefore ▸ hold)
      exact ((List.filter_sublist).map _).map _

/-- With passes of the nonce cleanup at most a period apart, a nonce is gone a period after its 600
    seconds, and there are never more nonces than the server has sent challenges in that time. -/
theorem nonces_bounded (hstart : Started w₀.server) (hrun : Run D w₀ history w)
    (hpunctual : Punctual .nonces period w₀ history) :
    (∀ nonce entry, w.server.nonceMap.lookup nonce = some entry →
      w.clock < entry.createdAt + fromSecs 600 + period) ∧
    HashMap.len w.server.nonceMap ≤
      ((challengeTimes history).filter (fun t => w.clock < t + fromSecs 600 + period)).length := by
  have hage : ∀ nonce entry, w.server.nonceMap.lookup nonce = some entry →
      w.clock < entry.createdAt + fromSecs 600 + period :=
    fun _ _ hentry => hrun.nonce_age hstart hpunctual hentry
  refine ⟨hage, ?_⟩
  have hall : (nonceTimes w.server).filter (fun t => w.clock < t + fromSecs 600 + period)
      = nonceTimes w.server := by
    refine List.filter_eq_self.2 fun t ht => ?_
    obtain ⟨entry, hentry, rfl⟩ := List.mem_map.1 ht
    obtain ⟨⟨nonce, _⟩, hmem, rfl⟩ := List.mem_map.1 hentry
    exact decide_eq_true (hage nonce _ (HashMap.lookup_eq_some.2 hmem))
  have hsub := (hrun.nonceTimes_subperm hstart).filter
    (fun t => decide (w.clock < t + fromSecs 600 + period))
  rw [hall] at hsub
  have hlen := hsub.length_le
  rwa [nonceTimes, HashMap.values, List.length_map, List.length_map] at hlen

/-- One challenge, one nonce. -/
theorem nonces_bounded_challenged :
    HashMap.len challengedWorld.server.nonceMap = 1 ∧
      1 ≤ ((challengeTimes (play sampleDigests ⟨sampleServer false (some sampleUsers), 0⟩
        challenged).1).filter
          (fun t => challengedWorld.clock < t + fromSecs 600 + fromSecs 30)).length := by
  have hlen : HashMap.len challengedWorld.server.nonceMap = 1 := by decide +kernel
  refine ⟨hlen, hlen ▸ (nonces_bounded (sampleServer_started false (some sampleUsers))
    challenged_run ?_).2⟩
  show Sweep.punctual _ _ _ _ _ = true
  decide +kernel

/-! ## Channel bindings -/

/-- The step is a granted ChannelBind that has made or renewed this binding: for the relayed address
    and the number, to the peer. -/
def BoundBy (D : Digests) (e : Transition) (key : SocketAddr × UInt16) (b : ChannelBinding) :
    Prop :=
  b.createdAt = e.now ∧ ∃ m c, e.Granted .channelBind c m ∧
    TakesBind D e.env e.before m c key.1 key.2 b.peerAddr

/-- A binding after another request was there before it. -/
theorem Effect.binding_of_ne {env : Env} {server : TurnServer} {msg : Message} {client : SocketAddr}
    {o : Outcome} {key : SocketAddr × UInt16} {b : ChannelBinding}
    (he : Effect D env server msg client o) (hmethod : msg.header.method ≠ .channelBind)
    (hb : o.server.channelTable.channels.lookup key = some b) :
    server.channelTable.channels.lookup key = some b := by
  cases he with
  | inert _ => exact hb
  | challenge reason _ => exact hb
  | allocateFailed _ _ _ _ => exact (Shrinks.removeExisting _ _).channels key b hb
  | allocated _ _ _ _ _ => exact (Shrinks.removeExisting _ _).channels key b hb
  | deleted _ _ _ _ => exact (Shrinks.without _ _).channels key b hb
  | refreshed _ _ _ _ _ _ => exact hb
  | permitted _ _ _ _ => exact hb
  | relayed peer data _ => exact hb
  | bound hm _ _ _ _ _ _ _ => exact absurd hm hmethod

/-- A binding after a step was there before it, or a ChannelBind has made or renewed it. Its
    lifetime is that of the binding before, or 600 seconds. -/
theorem Step.binding_cases (hstep : Step D w e w') {key : SocketAddr × UInt16} {b : ChannelBinding}
    (hb : w'.server.channelTable.channels.lookup key = some b) :
    w.server.channelTable.channels.lookup key = some b ∨
      (BoundBy D e key b ∧ (b.lifetime = fromSecs 600 ∨
        ∃ b', w.server.channelTable.channels.lookup key = some b' ∧ b'.lifetime = b.lifetime)) := by
  have hbefore : e.before.channelTable.channels.lookup key
      = w.server.channelTable.channels.lookup key := hstep.rehashed.getByChannel key.1 key.2
  rw [← hbefore]
  rw [hstep.next] at hb
  by_cases hmessage : ∃ msg client, e.event = .message msg client
  · obtain ⟨msg, client, hevent⟩ := hmessage
    by_cases hmethod : msg.header.method = .channelBind
    · rcases hstep.channelBind_cases hevent hmethod with ⟨-, hafter, -⟩ | ⟨r, n, p, htakes⟩
      · rw [hafter] at hb
        exact .inl hb
      · obtain ⟨hgranted, channels, hbind, hafter⟩ := hstep.takesBind hevent htakes
        rw [hafter] at hb
        obtain ⟨hother, hcases⟩ := bind_eq_ok hbind
        by_cases hkey : key = (r, n)
        · subst hkey
          right
          rcases hcases with ⟨b', hb', rfl, hnew⟩ | ⟨-, hnew⟩
          · obtain rfl := Option.some.inj (hnew.symm.trans hb)
            exact ⟨⟨rfl, msg, client, hgranted, htakes⟩, .inr ⟨b', hb', rfl⟩⟩
          · obtain rfl := Option.some.inj (hnew.symm.trans hb)
            exact ⟨⟨rfl, msg, client, hgranted, htakes⟩, .inl rfl⟩
        · exact .inl ((hother key hkey).symm.trans hb)
    · exact .inl ((hstep.effect hevent).binding_of_ne hmethod hb)
  · exact .inl ((hstep.shrinks hmessage).channels key b hb)

theorem channelSweeper (D : Digests) :
    Sweep.Sweeper Transition.now (Transition.isPass .channels) (Step D)
      (fun w => ∀ key b, w.server.channelTable.channels.lookup key = some b →
        b.lifetime = fromSecs 600) World.clock
      (fun w (i : (SocketAddr × UInt16) × SocketAddr) d => ∃ b,
        w.server.channelTable.channels.lookup i.1 = some b ∧ b.peerAddr = i.2 ∧
          d = b.createdAt + fromSecs 600)
      (fun e i d => ∃ b, BoundBy D e i.1 b ∧ b.peerAddr = i.2 ∧
        d = b.createdAt + fromSecs 600) where
  inv := by
    intro w e w' hinv hstep key b hb
    rcases hstep.binding_cases hb with hold | ⟨-, hlifetime | ⟨b', hb', hlifetime⟩⟩
    · exact hinv key b hold
    · exact hlifetime
    · exact hlifetime.symm.trans (hinv key b' hb')
  clock_le := fun h => h.clock
  clock_eq := fun h => h.clock_eq
  origin := by
    rintro w e w' i d - hstep ⟨b, hb, hd⟩
    rcases hstep.binding_cases hb with hold | ⟨hbound, -⟩
    · exact .inl ⟨b, hold, hd⟩
    · exact .inr ⟨b, hbound, hd⟩
  survives := by
    rintro w e w' ⟨key, p⟩ d hinv hstep hpass ⟨b, hb, -, hd⟩
    rw [hstep.after_pass hpass] at hb
    have hkept : (e.before.channelTable.cleanupExpired e.env.now).channels.lookup key = some b := hb
    have hlifetime : b.lifetime = fromSecs 600 := by
      refine hinv key b ?_
      rw [← lookup_cleanupExpired hkept]
      exact (hstep.rehashed.getByChannel key.1 key.2).symm
    rw [ChannelTable.cleanupExpired, HashMap.lookup_retain, Option.filter_eq_some_iff] at hkept
    have hage := hkept.2
    simp only [ChannelBinding.isExpired, Bool.not_eq_true', decide_eq_false_iff_not] at hage
    show e.env.now ≤ d
    omega

/-- With passes of the channel cleanup at most a period apart, every binding was made or renewed by
    a granted ChannelBind at most 600 seconds and a period ago: by one for this relayed address,
    number and peer, at the time that the binding has. -/
theorem bindings_recent (hstart : Started w₀.server) (hrun : Run D w₀ history w)
    (hpunctual : Punctual .channels period w₀ history) {r : SocketAddr} {n : UInt16}
    {b : ChannelBinding} (hb : w.server.channelTable.getByChannel r n = some b) :
    ∃ e ∈ history, (∃ m c, e.Granted .channelBind c m ∧
        TakesBind D e.env e.before m c r n b.peerAddr) ∧ b.createdAt = e.env.now ∧
      w.clock ≤ e.env.now + fromSecs 600 + period := by
  have hempty : ∀ key b, ¬ w₀.server.channelTable.channels.lookup key = some b := by
    intro key b hb
    rw [hstart.fresh.channels] at hb
    exact absurd hb (by simp)
  obtain ⟨e, he, ⟨b', ⟨hcreated, hbound⟩, hpeer, hd⟩, hle⟩ := (channelSweeper D).due hrun
    (fun key b hb => absurd hb (hempty key b))
    (fun i d ⟨b, hb, _⟩ => hempty i.1 b hb) hpunctual
    (i := ((r, n), b.peerAddr)) (d := b.createdAt + fromSecs 600) ⟨b, hb, rfl, rfl⟩
  have hsame : b.createdAt = e.env.now := by
    have hcreated : b'.createdAt = e.env.now := hcreated
    omega
  have hpeer : b'.peerAddr = b.peerAddr := hpeer
  rw [hpeer] at hbound
  have hle : w.clock ≤ max e.env.now (b.createdAt + fromSecs 600) + period := hle
  refine ⟨e, he, hbound, hsame, ?_⟩
  omega

/-- The binding of the client that permitted the peer and bound channel 0x4000 to it. -/
theorem bindings_recent_permitted :
    ∃ b, permittedWorld.server.channelTable.getByChannel sampleRelayed 0x4000 = some b ∧
      ∃ e ∈ (play sampleDigests ⟨sampleServer true none, 0⟩ permittedPeer).1,
        b.createdAt = e.env.now := by
  have hsome : (permittedWorld.server.channelTable.getByChannel sampleRelayed 0x4000).isSome
      = true := by decide +kernel
  obtain ⟨b, hb⟩ := Option.isSome_iff_exists.1 hsome
  have hpunctual : Punctual .channels (fromSecs 60) ⟨sampleServer true none, 0⟩
      (play sampleDigests ⟨sampleServer true none, 0⟩ permittedPeer).1 := by
    show Sweep.punctual _ _ _ _ _ = true
    decide +kernel
  obtain ⟨e, he, -, hcreated, -⟩ :=
    bindings_recent (sampleServer_started true none) permittedWorld_run hpunctual hb
  exact ⟨b, hb, e, he, hcreated⟩

/-! ## Allocations -/

/-- The server holds nothing on behalf of a client: no allocation, port, tracker or channel. -/
structure TurnServer.Idle (server : TurnServer) : Prop where
  allocations : server.allocationTable.allocations = ∅
  ports : server.allocationTable.portAllocator.allocated.setBits = ∅
  count : server.allocationTable.portAllocator.allocatedCount = 0
  active : server.allocationTable.stats.activeAllocations = 0
  trackers : server.allocationTable.bandwidthManager.trackers = ∅
  channels : server.channelTable.channels = ∅

theorem HashMap.eq_empty {κ ν : Type} {m : HashMap κ ν} (h : ∀ k, k ∉ m) : m = ∅ := by
  refine AList.ext ?_
  rw [AList.empty_entries, List.eq_nil_iff_forall_not_mem]
  exact fun e he => h e.1 (List.mem_map_of_mem he)

theorem Consistent.idle {server : TurnServer} (hc : server.Consistent)
    (h : ∀ k, k ∉ server.allocationTable.allocations) : server.Idle := by
  have hempty := HashMap.eq_empty h
  have hlen : HashMap.len server.allocationTable.allocations = 0 := by rw [hempty]; rfl
  refine ⟨hempty, ?_, by simp [hc.count, hlen], by simp [hc.active, hlen], ?_, ?_⟩
  · refine Finset.eq_empty_of_forall_notMem fun i hi => ?_
    obtain ⟨k, hk, -⟩ := (hc.bits i).1 (Bitmap.mem_setBits.1 hi)
    exact h k hk
  · refine HashMap.eq_empty fun s hs => ?_
    obtain ⟨k, hk, -⟩ := (hc.trackers s).1 hs
    exact h k hk
  · refine HashMap.eq_empty fun key hkey => ?_
    obtain ⟨b, hb⟩ := HashMap.exists_lookup hkey
    exact h key.1 (hc.bindings key.1 key.2 b hb).2.2

end Miuturn
