import Miuturn.InterleavingSteps

set_option autoImplicit false

/-! # The quota and the allocations of a client

`handle_allocate` looks for an older allocation of the client and removes it; `create_allocation`
compares the counter of active allocations with the quota, and inserts the new allocation in a later
access. What the search and the check have found holds at the insertion unless another task has
inserted its allocation in between (`Overtaken`). So tasks that are not overtaken keep to the quota
and to one allocation for each client. -/

open RustStd

namespace Miuturn

namespace Interleaving

variable {ι : Type} [DecidableEq ι] {e : Move ι} {history : List (Move ι)} {st st' st₀ : State ι}
  {c k : SocketAddr}

/-- No more allocations than a limit, and one for each client. -/
structure Safe (limit : Option ℕ) (server : TurnServer) : Prop where
  quota : ∀ max, limit = some max → size server ≤ max
  unique : ∀ k k' c, owner server k = some c → owner server k' = some c → k = k'

/-- There is room for an allocation of client `c`, and the client has none. -/
structure Room (limit : Option ℕ) (server : TurnServer) (c : SocketAddr) : Prop where
  quota : ∀ max, limit = some max → size server < max
  unique : ∀ k, owner server k ≠ some c

variable {limit : Option ℕ}

omit [DecidableEq ι] in
/-- Only an insertion can go wrong. -/
theorem Effect.safe (he : Effect e) (h : Safe limit e.before.server)
    (hroom : ∀ c k, e.Inserts c k → Room limit e.before.server c) : Safe limit e.after.server := by
  refine ⟨fun max hmax => ?_, fun k k' c hk hk' => ?_⟩
  · have hle := h.quota max hmax
    rcases he.size_cases with hsize | ⟨c, k, hinserts, hsize⟩
    · omega
    · have hlt := (hroom c k hinserts).quota max hmax
      omega
  · rcases he.owner_cases hk with hold | hinserts
    · rcases he.owner_cases hk' with hold' | hinserts'
      · exact h.unique k k' c hold hold'
      · exact absurd hold ((hroom c k' hinserts').unique k)
    · rcases he.owner_cases hk' with hold' | hinserts'
      · exact absurd hold' ((hroom c k hinserts).unique k')
      · exact hinserts.unique hinserts'

/-! ## The counter and the keys -/

/-- The limit stays as configured, the counter of active allocations counts the entries, and every
    entry is stored under its relayed address. -/
structure Tidy (limit : Option ℕ) (t : AllocationTable) : Prop where
  limit : t.maxConcurrentAllocations = limit
  active : t.stats.activeAllocations = HashMap.len t.allocations
  key : ∀ k a, t.allocations.lookup k = some a → a.relayedAddr = k

variable {t : AllocationTable} {env : Env} {i : ι}

theorem Tidy.removeAllocation (h : Tidy limit t) (ct : ChannelTable) (addr : SocketAddr) :
    Tidy limit (t.removeAllocation ct addr).1.1 := by
  have hkey : ∀ k a, (t.removeAllocation ct addr).1.1.allocations.lookup k = some a →
      a.relayedAddr = k := fun k a ha => h.key k a (lookup_removeAllocation.1 ha).2
  cases haddr : t.allocations.lookup addr with
  | none =>
      rw [removeAllocation_of_none haddr]
      exact h
  | some a =>
      rw [removeAllocation_of_some haddr] at hkey ⊢
      refine ⟨h.limit, ?_, hkey⟩
      have hlen := HashMap.len_erase_of_mem (HashMap.mem_of_lookup haddr)
      have hactive := h.active
      show t.stats.activeAllocations - (1 : ℕ) = (HashMap.len (t.allocations.erase addr) : ℤ)
      omega

theorem Tidy.insertAllocation (h : Tidy limit t) {port : UInt16}
    (hfree : .v4 t.externalAddr port ∉ t.allocations) (env : Env) (client : SocketAddr)
    (lifetime : UInt32) : Tidy limit (insertAllocation t env client lifetime port) := by
  refine ⟨h.limit, ?_, fun k a ha => ?_⟩
  · have hlen := HashMap.len_insert_of_notMem (v := t.newAllocation env client (some lifetime) port)
      hfree
    have hactive := h.active
    show t.stats.activeAllocations + 1
      = (HashMap.len (t.allocations.insert (.v4 t.externalAddr port) _) : ℤ)
    rw [hlen]
    omega
  · rw [lookup_insertAllocation] at ha
    split at ha
    · next hk =>
        obtain rfl := Option.some.inj ha
        exact hk.symm
    · exact h.key k a ha

theorem Tidy.refreshAllocation (h : Tidy limit t) {relayed : SocketAddr} {lifetime : UInt32}
    {t' : AllocationTable} (ht : t.refreshAllocation relayed lifetime = .ok t') :
    Tidy limit t' := by
  rw [refreshAllocation_eq_ok ht]
  refine ⟨h.limit, ?_, fun k a ha => ?_⟩
  · show t.stats.activeAllocations = (HashMap.len (t.allocations.modify relayed _) : ℤ)
    rw [HashMap.len_modify]
    exact h.active
  · dsimp only at ha
    rw [HashMap.lookup_modify] at ha
    split at ha
    · next hk =>
        obtain ⟨a', ha', rfl⟩ := Option.map_eq_some_iff.1 ha
        rw [hk]
        exact h.key relayed a' ha'
    · exact h.key k a ha

omit [DecidableEq ι] in
theorem Tidy.access (h : Tidy limit st.server.allocationTable) (hinv : Inv st) (i : ι) (env : Env) :
    Tidy limit (advance env st.server (st.pc i)).1.allocationTable := by
  cases hpc : st.pc i with
  | idle => exact h
  | allocateFind client lifetime =>
      rw [advance]
      split <;> exact h
  | allocateRemove client lifetime oldRelayed => exact h.removeAllocation _ oldRelayed
  | checkQuota client lifetime =>
      rw [advance]
      split <;> exact h
  | takePort client lifetime attempts =>
      rw [advance]
      split
      · exact h
      · split <;> exact ⟨h.limit, h.active, h.key⟩
  | bindSocket client lifetime attempts port =>
      rw [advance]
      split
      · exact h
      · exact ⟨h.limit, h.active, h.key⟩
  | insert client lifetime port =>
      exact h.insertAllocation (hinv.held i port (by rw [hpc]; rfl)).2 env client lifetime
  | refreshFind client lifetime =>
      rw [advance]
      split
      · split <;> exact h
      · exact h
  | refreshRemove relayed => exact h.removeAllocation _ relayed
  | refreshStore relayed lifetime =>
      rw [advance]
      split
      · next htable => exact h.refreshAllocation htable
      · exact h
  | channelFind client channelNum peerAddr =>
      rw [advance]
      split <;> exact h
  | channelBind client relayed channelNum peerAddr =>
      rw [advance]
      split <;> exact h

theorem Step.tidy (hstep : Step st e st') (hinv : Inv st)
    (h : Tidy limit st.server.allocationTable) :
    Tidy limit e.before.server.allocationTable ∧ Tidy limit st'.server.allocationTable := by
  have hbefore : Tidy limit e.before.server.allocationTable := by
    obtain ⟨allocations, channels, hsame, -, heq⟩ := hstep.rehashed
    rw [heq]
    refine ⟨h.limit, ?_, fun k a ha => h.key k a ((hsame.lookup_eq k).trans ha)⟩
    show st.server.allocationTable.stats.activeAllocations = (HashMap.len allocations : ℤ)
    rw [← hsame.len_eq]
    exact h.active
  refine ⟨hbefore, ?_⟩
  rw [hstep.next, hstep.outcome]
  cases e.event with
  | request i client req =>
      rw [perform]
      split <;> exact hbefore
  | access i env => exact hbefore.access (hstep.inv_before hinv) i env
  | cleanupAllocations now =>
      exact cleanupExpired_induct (P := fun t _ => Tidy limit t)
        (fun t ct addr ht => ht.removeAllocation ct addr) hbefore
  | cleanupChannels now => exact hbefore

/-! ## What a task has found -/

/-- A task that has looked for an allocation of client `c` and goes on to insert one. -/
def Searched (c : SocketAddr) : Pc → Prop
  | .allocateRemove client _ _ => client = c
  | .checkQuota client _ => client = c
  | .takePort client _ _ => client = c
  | .bindSocket client _ _ _ => client = c
  | .insert client _ _ => client = c
  | _ => False

/-- A task that has found the quota not reached and goes on to insert an allocation. -/
def Checked : Pc → Prop
  | .takePort _ _ _ => True
  | .bindSocket _ _ _ _ => True
  | .insert _ _ _ => True
  | _ => False

/-- The allocation that a task is about to remove. -/
def toRemove : Pc → Option SocketAddr
  | .allocateRemove _ _ oldRelayed => some oldRelayed
  | _ => none

/-- Task `i` inserts an allocation of client `c`. -/
def Move.InsertsBy (e : Move ι) (i : ι) (c : SocketAddr) : Prop :=
  ∃ env lifetime port, e.event = .access i env ∧ e.before.pc i = .insert c lifetime port

/-- In its present request task `i` was overtaken: while it stood at an access of `Inside`, another
    task inserted an allocation of a client of `clients`. -/
def Overtaken (history : List (Move ι)) (i : ι) (Inside : Pc → Prop)
    (clients : SocketAddr → Prop) : Prop :=
  Trace.Since (fun e => (∃ j c, j ≠ i ∧ e.InsertsBy j c ∧ clients c) ∧ Inside (e.before.pc i))
    (fun e => e.before.pc i = .idle) history

/-- How a task that inserts an allocation of client `c` comes to it: if there is a quota, no other
    task has inserted an allocation since the check; and none has inserted one of the same client
    since the search. -/
structure NotOvertaken (limit : Option ℕ) (history : List (Move ι)) (i : ι) (c : SocketAddr) :
    Prop where
  check : limit ≠ none → ¬ Overtaken history i Checked (fun _ => True)
  search : ¬ Overtaken history i (Searched c) (· = c)

/-- What a task has found still holds, or the task was overtaken. -/
structure Holds (limit : Option ℕ) (history : List (Move ι)) (server : TurnServer) (i : ι)
    (pc : Pc) : Prop where
  check : Checked pc → Overtaken history i Checked (fun _ => True) ∨
    ∀ max, limit = some max → size server < max
  search : ∀ c, Searched c pc → Overtaken history i (Searched c) (· = c) ∨
    ∀ k, owner server k = some c → toRemove pc = some k

omit [DecidableEq ι] in
theorem Overtaken.snoc {Inside : Pc → Prop} {clients : SocketAddr → Prop}
    (h : Overtaken history i Inside clients) (hbusy : e.before.pc i ≠ .idle) :
    Overtaken (history ++ [e]) i Inside clients :=
  Trace.since_snoc.2 (Or.inr ⟨h, hbusy⟩)

omit [DecidableEq ι] in
/-- A task that another overtakes. -/
theorem Move.Inserts.overtaken {Inside : Pc → Prop} {clients : SocketAddr → Prop}
    (h : e.Inserts c k) (hother : ∀ env, e.event ≠ .access i env) (hc : clients c)
    (hinside : Inside (e.before.pc i)) : Overtaken (history ++ [e]) i Inside clients := by
  obtain ⟨j, env, lifetime, port, hevent, hpc, -⟩ := h
  refine Trace.since_snoc.2 (Or.inl ⟨⟨j, c, ?_, ⟨env, lifetime, port, hevent, hpc⟩, hc⟩, hinside⟩)
  rintro rfl
  exact hother env hevent

theorem Checked.busy {pc : Pc} (h : Checked pc) : pc ≠ .idle := by
  rintro rfl
  exact h

theorem Searched.busy {pc : Pc} (h : Searched c pc) : pc ≠ .idle := by
  rintro rfl
  exact h

omit [DecidableEq ι] in
/-- While others act, a task is overtaken or what it has found stays. -/
theorem Holds.of_other (he : Effect e)
    (h : Holds limit history e.before.server i (e.before.pc i))
    (hother : ∀ env, e.event ≠ .access i env) :
    Holds limit (history ++ [e]) e.after.server i (e.before.pc i) := by
  refine ⟨fun hchecked => ?_, fun c hsearched => ?_⟩
  · rcases h.check hchecked with hover | hroom
    · exact Or.inl (hover.snoc hchecked.busy)
    · rcases he.size_cases with hsize | ⟨c, k, hinserts, -⟩
      · exact Or.inr fun max hmax => hsize.trans_lt (hroom max hmax)
      · exact Or.inl (hinserts.overtaken hother trivial hchecked)
  · rcases h.search c hsearched with hover | hnone
    · exact Or.inl (hover.snoc hsearched.busy)
    · by_cases hinserts : ∃ k, e.Inserts c k
      · obtain ⟨k, hinserts⟩ := hinserts
        exact Or.inl (hinserts.overtaken hother rfl hsearched)
      · refine Or.inr fun k hk => ?_
        rcases he.owner_cases hk with hold | hnew
        · exact hnone k hold
        · exact absurd ⟨k, hnew⟩ hinserts

theorem Checked.exists_searched {pc : Pc} (h : Checked pc) : ∃ c, Searched c pc := by
  cases pc with
  | takePort client _ _ => exact ⟨client, rfl⟩
  | bindSocket client _ _ _ => exact ⟨client, rfl⟩
  | insert client _ _ => exact ⟨client, rfl⟩
  | _ => exact absurd h id

/-- The accesses after which an Allocate of client `c` has searched and goes on. -/
inductive Onward (server : TurnServer) (c : SocketAddr) : Pc → TurnServer → Pc → Prop where
  | search {lifetime : UInt32} {pc' : Pc}
      (hfind : toRemove pc' = server.allocationTable.findAllocationByClient c)
      (hcheck : ¬ Checked pc') : Onward server c (.allocateFind c lifetime) server pc'
  | remove {lifetime : UInt32} {oldRelayed : SocketAddr} :
      Onward server c (.allocateRemove c lifetime oldRelayed) (server.without oldRelayed)
        (.checkQuota c lifetime)
  | check {lifetime : UInt32} (hquota : server.allocationTable.quotaReached = false) :
      Onward server c (.checkQuota c lifetime) server (.takePort c lifetime 0)
  /-- Taking and binding a port changes neither the owners nor their number. -/
  | port {pc pc' : Pc} {server' : TurnServer} (hchecked : Checked pc) (hsearched : Searched c pc)
      (hclient : owner server' = owner server) (hsize : size server' = size server) :
      Onward server c pc server' pc'

theorem onward_of_searched {server : TurnServer} {pc : Pc}
    (h : Searched c (advance env server pc).2) :
    Onward server c pc (advance env server pc).1 (advance env server pc).2 := by
  cases pc with
  | allocateFind client lifetime =>
      rw [advance] at h ⊢
      cases hfind : server.allocationTable.findAllocationByClient client with
      | none =>
          rw [hfind] at h
          obtain rfl : client = c := h
          exact .search hfind.symm id
      | some oldRelayed =>
          rw [hfind] at h
          obtain rfl : client = c := h
          exact .search hfind.symm id
  | allocateRemove client lifetime oldRelayed =>
      obtain rfl : client = c := h
      exact .remove
  | checkQuota client lifetime =>
      rw [advance] at h ⊢
      cases hquota : server.allocationTable.quotaReached with
      | true =>
          rw [hquota] at h
          exact absurd h id
      | false =>
          rw [hquota] at h
          obtain rfl : client = c := h
          exact .check hquota
  | takePort client lifetime attempts =>
      rw [advance] at h ⊢
      split at h
      · exact absurd h id
      · next hmore =>
          rw [if_neg hmore]
          split at h
          · exact absurd h id
          · exact .port trivial h rfl rfl
  | bindSocket client lifetime attempts port =>
      rw [advance] at h ⊢
      split at h
      · exact .port trivial h rfl rfl
      · exact .port trivial h rfl rfl
  | idle => exact absurd h id
  | insert client lifetime port => exact absurd h id
  | refreshFind client lifetime =>
      rw [advance] at h
      split at h
      · split at h <;> exact absurd h id
      · exact absurd h id
  | refreshRemove relayed => exact absurd h id
  | refreshStore relayed lifetime =>
      rw [advance] at h
      split at h <;> exact absurd h id
  | channelFind client channelNum peerAddr =>
      rw [advance] at h
      split at h <;> exact absurd h id
  | channelBind client relayed channelNum peerAddr =>
      rw [advance] at h
      split at h <;> exact absurd h id

/-- The search finds the client's only allocation. -/
theorem Safe.find {server : TurnServer} (hsafe : Safe limit server)
    (htidy : Tidy limit server.allocationTable) (hk : owner server k = some c) :
    server.allocationTable.findAllocationByClient c = some k := by
  obtain ⟨a, ha, hc⟩ := Option.map_eq_some_iff.1 hk
  cases hentry : server.allocationTable.entryOfClient c with
  | none => exact absurd hc (entryOfClient_eq_none hentry ha)
  | some entry =>
      obtain ⟨hlookup, hclient⟩ := entryOfClient_eq_some hentry
      have howner : owner server entry.1 = some c := by rw [owner, hlookup, ← hclient]; rfl
      rw [findAllocationByClient_of_entry hentry, htidy.key _ _ hlookup,
        hsafe.unique _ _ _ howner hk]

theorem Tidy.size_lt {server : TurnServer} (h : Tidy limit server.allocationTable)
    (hquota : server.allocationTable.quotaReached = false) {max : ℕ} (hmax : limit = some max) :
    size server < max := by
  have hactive := h.active
  unfold AllocationTable.quotaReached at hquota
  rw [h.limit, hmax] at hquota
  have hlt := of_decide_eq_false hquota
  rw [size]
  omega

/-- The quota was found not reached by this access, or before it and nothing was inserted. -/
theorem Onward.check_or {server server' : TurnServer} {pc pc' : Pc}
    (h : Onward server c pc server' pc') (htidy : Tidy limit server.allocationTable)
    (hchecked : Checked pc') :
    (Checked pc ∧ size server' = size server) ∨ ∀ max, limit = some max → size server' < max := by
  cases h with
  | search _ hcheck => exact absurd hchecked hcheck
  | remove => exact absurd hchecked id
  | check hquota => exact Or.inr fun max hmax => htidy.size_lt hquota hmax
  | port hbefore _ _ hsize => exact Or.inl ⟨hbefore, hsize⟩

/-- The client's allocations were searched for by this access, or before it; then those that are
    left were there and were not to be removed. -/
theorem Onward.search_or {server server' : TurnServer} {pc pc' : Pc}
    (h : Onward server c pc server' pc') (hsafe : Safe limit server)
    (htidy : Tidy limit server.allocationTable) :
    (Searched c pc ∧
      ∀ k, owner server' k = some c → owner server k = some c ∧ toRemove pc ≠ some k) ∨
    ∀ k, owner server' k = some c → toRemove pc' = some k := by
  cases h with
  | search hfind _ => exact Or.inr fun k hk => hfind.trans (hsafe.find htidy hk)
  | @remove lifetime oldRelayed =>
      refine Or.inl ⟨rfl, fun k hk => ?_⟩
      obtain ⟨a, ha, hc⟩ := Option.map_eq_some_iff.1 hk
      obtain ⟨hne, ha⟩ := lookup_removeAllocation.1 ha
      refine ⟨?_, fun hremoved => hne (Option.some.inj hremoved).symm⟩
      rw [owner, ha, ← hc]
      rfl
  | check _ => exact Or.inl ⟨rfl, fun k hk => ⟨hk, by simp [toRemove]⟩⟩
  | port hbefore hsearched hclient _ =>
      have hnone : toRemove pc = none := by
        cases pc with
        | allocateRemove _ _ _ => exact absurd hbefore id
        | _ => rfl
      refine Or.inl ⟨hsearched, fun k hk => ⟨?_, ?_⟩⟩
      · rw [← hclient]
        exact hk
      · simp [hnone]

omit [DecidableEq ι] in
/-- What a task finds by its own accesses, in a safe state, it has found. -/
theorem Holds.of_own (hsafe : Safe limit e.before.server)
    (htidy : Tidy limit e.before.server.allocationTable)
    (h : Holds limit history e.before.server i (e.before.pc i)) (env : Env) :
    Holds limit (history ++ [e]) (advance env e.before.server (e.before.pc i)).1 i
      (advance env e.before.server (e.before.pc i)).2 := by
  refine ⟨fun hchecked => ?_, fun c hsearched => ?_⟩
  · obtain ⟨c, hsearched⟩ := hchecked.exists_searched
    rcases (onward_of_searched hsearched).check_or htidy hchecked with ⟨hbefore, hsize⟩ | hroom
    · rw [hsize]
      exact (h.check hbefore).imp_left fun hover => hover.snoc hbefore.busy
    · exact Or.inr hroom
  · rcases (onward_of_searched hsearched).search_or hsafe htidy with ⟨hbefore, hleft⟩ | hfound
    · refine (h.search c hbefore).imp (fun hover => hover.snoc hbefore.busy) fun hfound k hk => ?_
      exact absurd (hfound k (hleft k hk).1) (hleft k hk).2
    · exact Or.inr hfound

/-! ## Runs -/

/-- A task that has not moved by its own access stands where it stood, or at the start of a
    request. -/
theorem perform_pc (st : State ι) {event : Event ι} (hother : ∀ env, event ≠ .access i env) :
    (perform st event).pc i = st.pc i ∨
      ∃ client req, (perform st event).pc i = Request.start client req := by
  cases event with
  | request j client req =>
      rw [perform]
      split
      · by_cases hj : i = j
        · subst hj
          exact Or.inr ⟨client, req, Function.update_self _ _ _⟩
        · exact Or.inl (Function.update_of_ne hj _ _)
      · exact Or.inl rfl
  | access j env =>
      refine Or.inl (Function.update_of_ne ?_ _ _)
      rintro rfl
      exact hother env rfl
  | cleanupAllocations now => exact Or.inl rfl
  | cleanupChannels now => exact Or.inl rfl

omit [DecidableEq ι] in
theorem Holds.start (history : List (Move ι)) (server : TurnServer) (client : SocketAddr)
    (req : Request) : Holds limit history server i (req.start client) := by
  cases req with
  | allocate lifetime => exact ⟨False.elim, fun _ h => False.elim h⟩
  | refresh lifetime => exact ⟨False.elim, fun _ h => False.elim h⟩
  | channelBind channelNum peerAddr => exact ⟨False.elim, fun _ h => False.elim h⟩

/-- What holds after a part of a run in which no task that inserted was overtaken. -/
structure Kept (limit : Option ℕ) (history : List (Move ι)) (st : State ι) : Prop where
  safe : Safe limit st.server
  tidy : Tidy limit st.server.allocationTable
  holds : ∀ i, Holds limit history st.server i (st.pc i)

/-- The order of the hash maps does not matter. -/
theorem Step.kept_before (hstep : Step st e st') (hinv : Inv st) (h : Kept limit history st) :
    Kept limit history e.before := by
  refine ⟨⟨fun max hmax => ?_, fun k k' c hk hk' => ?_⟩, (hstep.tidy hinv h.tidy).1, fun i => ?_⟩
  · rw [hstep.size_before]
    exact h.safe.quota max hmax
  · rw [hstep.owner_before] at hk hk'
    exact h.safe.unique k k' c hk hk'
  · rw [hstep.pc]
    refine ⟨fun hchecked => ?_, fun c hsearched => ?_⟩
    · rw [hstep.size_before]
      exact (h.holds i).check hchecked
    · simp only [hstep.owner_before]
      exact (h.holds i).search c hsearched

omit [DecidableEq ι] in
/-- A task that was not overtaken has room for what it inserts. -/
theorem Kept.room (h : Kept limit history st) {lifetime : UInt32} {port : UInt16}
    (hpc : st.pc i = .insert c lifetime port) (hfree : NotOvertaken limit history i c) :
    Room limit st.server c := by
  have hfound := h.holds i
  rw [hpc] at hfound
  refine ⟨fun max hmax => ?_, fun k hk => ?_⟩
  · exact (hfound.check trivial).resolve_left (hfree.check (by rw [hmax]; simp)) max hmax
  · exact absurd ((hfound.search c rfl).resolve_left hfree.search k hk) (by simp [toRemove])

theorem Step.kept (hstep : Step st e st') (hinv : Inv st) (h : Kept limit history st)
    (hfree : ∀ i c, e.InsertsBy i c → NotOvertaken limit history i c) :
    Kept limit (history ++ [e]) st' := by
  have heffect := (hstep.spec hinv).2
  have hbefore := hstep.kept_before hinv h
  have hroom : ∀ c k, e.Inserts c k → Room limit e.before.server c := by
    rintro c k ⟨i, env, lifetime, port, hevent, hpc, -⟩
    exact hbefore.room hpc (hfree i c ⟨env, lifetime, port, hevent, hpc⟩)
  have hafter := heffect.safe hbefore.safe hroom
  have htidy := (hstep.tidy hinv h.tidy).2
  have hout := hstep.outcome
  rw [hstep.next] at htidy ⊢
  refine ⟨hafter, htidy, fun i => ?_⟩
  by_cases hown : ∃ env, e.event = .access i env
  · obtain ⟨env, hevent⟩ := hown
    have hmoved := (hbefore.holds i).of_own hbefore.safe hbefore.tidy env
    rw [hout, hevent, perform]
    dsimp only
    rw [Function.update_self]
    exact hmoved
  · have hother : ∀ env, e.event ≠ .access i env := fun env hevent => hown ⟨env, hevent⟩
    rcases perform_pc e.before hother with hpc | ⟨client, req, hpc⟩
    · rw [← hout] at hpc
      rw [hpc]
      exact (hbefore.holds i).of_other heffect hother
    · rw [← hout] at hpc
      rw [hpc]
      exact .start _ _ _ _

omit [DecidableEq ι] in
theorem Initial.kept (h : Initial st₀) :
    Kept st₀.server.allocationTable.maxConcurrentAllocations [] st₀ := by
  have hfresh := h.started.fresh
  refine ⟨⟨fun max _ => ?_, fun k k' c hk => ?_⟩, ⟨rfl, ?_, fun k a ha => ?_⟩, fun i => ?_⟩
  · rw [size, hfresh.allocations]
    exact Nat.zero_le _
  · rw [owner, hfresh.allocations] at hk
    exact absurd hk (by simp)
  · rw [hfresh.stats, hfresh.allocations]
    rfl
  · rw [hfresh.allocations] at ha
    exact absurd ha (by simp)
  · rw [h.idle i]
    exact ⟨False.elim, fun _ h => False.elim h⟩

/-- No task that inserts in the history was overtaken. -/
def NoneOvertaken (limit : Option ℕ) (history : List (Move ι)) : Prop :=
  ∀ pre e post i c, history = pre ++ e :: post → e.InsertsBy i c → NotOvertaken limit pre i c

omit [DecidableEq ι] in
theorem NoneOvertaken.of_append {later : List (Move ι)}
    (h : NoneOvertaken limit (history ++ later)) : NoneOvertaken limit history := by
  rintro pre e post i c rfl
  exact h pre e (post ++ later) i c (by simp)

theorem Run.kept (hrun : Run st₀ history st) (hinit : Initial st₀)
    (hfree : NoneOvertaken st₀.server.allocationTable.maxConcurrentAllocations history) :
    Kept st₀.server.allocationTable.maxConcurrentAllocations history st := by
  induction hrun with
  | nil => exact hinit.kept
  | @snoc history st st' e hprev hstep ih =>
      exact hstep.kept (Run.inv hprev hinit) (ih hfree.of_append)
        fun i c => hfree history e [] i c rfl

/-- However the accesses of any number of requests are interleaved, there are never more allocations
    than the configured limit and never two of one client, as long as no task that inserts was
    overtaken: between its quota check and its insertion no other task inserts, and between its
    search and its insertion no other task inserts an allocation of the same client. -/
theorem quota_and_uniqueness_of_noneOvertaken (hinit : Initial st₀) (hrun : Run st₀ history st)
    (hfree : NoneOvertaken st₀.server.allocationTable.maxConcurrentAllocations history) :
    ∀ e ∈ history,
      Safe st₀.server.allocationTable.maxConcurrentAllocations e.after.server := by
  intro e he
  obtain ⟨pre, post, rfl⟩ := List.append_of_mem he
  obtain ⟨st₁, st₂, hpre, hstep, -⟩ := hrun.at rfl
  rw [List.append_cons] at hfree
  have hkept := Run.kept (hpre.snoc hstep) hinit hfree.of_append
  rw [← hstep.next]
  exact hkept.safe

/-- The sample server with room for one allocation, and two tasks. -/
def limitedState : State Bool where
  server := { sampleServer true none with
    allocationTable := { (sampleServer true none).allocationTable with
      maxConcurrentAllocations := some 1 } }
  pc := fun _ => .idle

theorem limitedState_initial : Initial limitedState :=
  ⟨⟨⟨203, 0, 113, 1⟩, ⟨10, 0, 0, 1⟩, "miuturn", 5000, 5003, some 1, none, "password", true,
    "miuturn", limitedState.server, none, true, true, rfl, rfl⟩, fun _ => rfl⟩

/-- The accesses of an Allocate that finds nothing to remove, of one task. -/
def soloAllocate (i : Bool) (client : SocketAddr) : List (Event Bool) :=
  .request i client (.allocate 600) :: List.replicate 5 (.access i (sampleEnv 1))

/-- One Allocate at a time: the client gets its allocation, and the quota is kept. -/
theorem quota_and_uniqueness_of_noneOvertaken_solo :
    ∃ e ∈ (play limitedState (soloAllocate false sampleClient)).1,
      owner e.after.server (.v4 ⟨203, 0, 113, 1⟩ 5000) = some sampleClient ∧
        size e.after.server ≤ 1 := by
  have hrun : Run limitedState (play limitedState (soloAllocate false sampleClient)).1
      (play limitedState (soloAllocate false sampleClient)).2 := Run.of_play
  -- the other task makes no access
  have hsolo : ∀ e ∈ (play limitedState (soloAllocate false sampleClient)).1, ∀ env,
      e.event ≠ .access true env := by
    intro e he env
    simp only [soloAllocate, List.replicate, play, List.mem_cons, List.not_mem_nil, or_false] at he
    rcases he with rfl | rfl | rfl | rfl | rfl | rfl
    all_goals simp [Move.of]
  have hnone : ∀ pre e post, (play limitedState (soloAllocate false sampleClient)).1
      = pre ++ e :: post → ∀ i c, e.InsertsBy i c → ∀ Inside clients,
        ¬ Overtaken pre i Inside clients := by
    rintro pre e post heq i c ⟨env, _, _, hevent, -⟩ Inside clients
      ⟨pre', o, post', rfl, ⟨⟨j, c', hj, ⟨env', _, _, hevent', -⟩, -⟩, -⟩, -⟩
    cases i with
    | true => exact hsolo e (by rw [heq]; simp) env hevent
    | false =>
        cases j with
        | true => exact hsolo o (by rw [heq]; simp) env' hevent'
        | false => exact hj rfl
  have hsafe := quota_and_uniqueness_of_noneOvertaken limitedState_initial hrun
    fun pre e post i c heq hinserts =>
      ⟨fun _ => hnone pre e post heq i c hinserts _ _, hnone pre e post heq i c hinserts _ _⟩
  have hlast := List.getLast_mem (l := (play limitedState (soloAllocate false sampleClient)).1)
    (List.cons_ne_nil _ _)
  exact ⟨_, hlast, by decide +kernel, (hsafe _ hlast).quota 1 rfl⟩

/-- Another client. -/
def otherClient : SocketAddr := .v4 ⟨198, 51, 100, 8⟩ 4000

/-- Two Allocates that overlap: each has checked everything before the other inserts. -/
def overlap (c c' : SocketAddr) : List (Event Bool) :=
  [.request false c (.allocate 600), .request true c' (.allocate 600),
   .access false (sampleEnv 1), .access true (sampleEnv 1),
   .access false (sampleEnv 1), .access true (sampleEnv 1),
   .access false (sampleEnv 1), .access true (sampleEnv 1),
   .access false (sampleEnv 1), .access true (sampleEnv 1),
   .access false (sampleEnv 1), .access true (sampleEnv 1)]

/-- Two clients get an allocation each where there is room for one; and one client, over two
    listeners, gets two. -/
theorem overlapping_allocates :
    (∃ history st, Run limitedState history st ∧
      limitedState.server.allocationTable.maxConcurrentAllocations = some 1 ∧
      size st.server = 2) ∧
    ∃ history st, Run ⟨sampleServer true none, fun _ : Bool => .idle⟩ history st ∧
      owner st.server (.v4 ⟨203, 0, 113, 1⟩ 5000) = some sampleClient ∧
      owner st.server (.v4 ⟨203, 0, 113, 1⟩ 5001) = some sampleClient :=
  ⟨⟨_, (play limitedState (overlap sampleClient otherClient)).2, Run.of_play, rfl,
      by decide +kernel⟩,
    ⟨_, (play ⟨sampleServer true none, fun _ : Bool => .idle⟩
      (overlap sampleClient sampleClient)).2, Run.of_play, by decide +kernel, by decide +kernel⟩⟩

end Interleaving

end Miuturn
