import Miuturn.AuthRuns
import Miuturn.Config
import Miuturn.Connections
import Miuturn.Lifetimes

set_option autoImplicit false

/-! # The limits of a user

A user is stored with a whitelist of addresses, a number of allocations and a longest lifetime. The
admin interface shows them and the configuration keeps them, but `handle_allocate` drops the user
it has authenticated: `create_allocation` is given the client and the lifetime asked for, and checks
them against the limits of the server alone.

So what a user's Allocate leaves behind is within the limits exactly if it already was before the
request: the client is on the whitelist, the user has room for one more allocation, not counting the
one that the client loses, and the lifetime that the server itself allows is short enough. -/

open RustStd

namespace Miuturn

/-! ## Limits -/

/-- An allocation of the user with this lifetime, made for `client`, is within the limits of the
    user, who has `count` allocations with it. -/
structure Account.Within (user : Account) (client : SocketAddr) (count lifetime : ℕ) : Prop where
  whitelist : ∀ ranges, user.ipWhitelist = some ranges →
    ∃ range ∈ ranges, AuthManager.ipInRange client.ip.toString range = true
  allocations : count ≤ user.maxAllocations
  duration : ∀ max, user.maxAllocationDurationSecs = some max → lifetime ≤ fromSecs max.toNat

/-- What a server would have to find before it grants the user an allocation of `secs` seconds for
    `client`, besides `others` that the user keeps. -/
structure Account.Admits (user : Account) (client : SocketAddr) (others : ℕ) (secs : UInt32) :
    Prop where
  whitelist : ∀ ranges, user.ipWhitelist = some ranges →
    ∃ range ∈ ranges, AuthManager.ipInRange client.ip.toString range = true
  allocations : others < user.maxAllocations
  duration : ∀ max, user.maxAllocationDurationSecs = some max → secs ≤ max

theorem fromSecs_le {m n : ℕ} : fromSecs m ≤ fromSecs n ↔ m ≤ n :=
  Nat.mul_le_mul_right_iff (by decide)

theorem Account.within_iff {user : Account} {client : SocketAddr} {others : ℕ} {secs : UInt32} :
    user.Within client (others + 1) (fromSecs secs.toNat) ↔ user.Admits client others secs := by
  constructor
  · rintro ⟨hwhitelist, hallocations, hduration⟩
    exact ⟨hwhitelist, hallocations, fun max hmax => fromSecs_le.1 (hduration max hmax)⟩
  · rintro ⟨hwhitelist, hallocations, hduration⟩
    exact ⟨hwhitelist, hallocations, fun max hmax => fromSecs_le.2 (hduration max hmax)⟩

/-! ## Whose allocations -/

/-- The user that the request of a step authenticated as. -/
def Transition.user (D : Digests) (e : Transition) : Option String :=
  match e.event with
  | .message msg client => authenticatedAs (verifyTurnAuth D e.env e.before msg client)
  | _ => none

def ownersAfter (D : Digests) (owners : SocketAddr → Option String) (e : Transition) :
    SocketAddr → Option String :=
  match e.created with
  | some a => Function.update owners a.relayedAddr (e.user D)
  | none => owners

/-- For every relayed address, the user of the request that made the last allocation there. -/
def owners (D : Digests) (history : List Transition) : SocketAddr → Option String :=
  history.foldl (ownersAfter D) (fun _ => none)

/-- The allocations in the table that were made by requests of `u`. -/
def ownedBy (D : Digests) (history : List Transition) (server : TurnServer) (u : String) :
    Finset SocketAddr :=
  server.allocationTable.allocations.keys.toFinset.filter (fun k => owners D history k = some u)

/-- The step is a successful Allocate of a request that authenticated as `u`, and the server's
    `AuthManager` has a user of that name. -/
structure AllocatesAs (D : Digests) (e : Transition) (msg : Message) (client : SocketAddr)
    (u : String) (user : Account) : Prop where
  granted : e.Granted .allocate client msg
  auth : verifyTurnAuth D e.env e.before msg client = .ok (.ok u)
  record : ∃ s : Accounts, e.before.authManager = some s.manager ∧ s.users.lookup u = some user

variable {D : Digests} {w₀ w w' : World} {history : List Transition} {e : Transition}
  {server : TurnServer} {msg : Message} {client k : SocketAddr} {u : String} {user : Account}

theorem mem_ownedBy : k ∈ ownedBy D history server u ↔
    k ∈ server.allocationTable.allocations ∧ owners D history k = some u := by
  rw [ownedBy, Finset.mem_filter, List.mem_toFinset, AList.mem_keys]

theorem owners_snoc (D : Digests) (history : List Transition) (e : Transition) :
    owners D (history ++ [e]) = ownersAfter D (owners D history) e := by
  rw [owners, List.foldl_append]
  rfl

/-! ## What a successful Allocate leaves -/

theorem mem_removeExisting {server : TurnServer} :
    k ∈ (removeExisting server client).1.allocationTable.allocations ↔
      k ∈ server.allocationTable.allocations ∧
        server.allocationTable.findAllocationByClient client ≠ some k := by
  rcases removeExisting_cases server client with ⟨hnone, heq⟩ | ⟨entry, hentry, heq⟩
  · rw [heq, AllocationTable.findAllocationByClient, hnone]
    simp
  · rw [heq, findAllocationByClient_of_entry hentry]
    simp only [TurnServer.without, ← AList.lookup_isSome, Option.isSome_iff_exists,
      lookup_removeAllocation, exists_and_left, ne_eq, Option.some.injEq]
    rw [and_comm, eq_comm]

/-- The step enters an allocation for the client at a new address, in place of the one it had, with
    the lifetime that the server allows. -/
structure Enters (e : Transition) (client : SocketAddr) (L : UInt32) (a : Allocation) : Prop where
  created : e.created = some a
  lifetime : a.lifetime = fromSecs (e.before.allocationTable.grantedSecs (some L)).toNat
  fresh : a.relayedAddr ∉ (removeExisting e.before client).1.allocationTable.allocations
  entered : ∀ k, k ∈ e.after.allocationTable.allocations ↔
    k = a.relayedAddr ∨ k ∈ (removeExisting e.before client).1.allocationTable.allocations

theorem Step.enters (h : Step D w e w') (hc : w.server.Consistent)
    (hgranted : e.Granted .allocate client msg) :
    ∃ a L, getLifetime msg = .ok L ∧ Enters e client L a := by
  obtain ⟨hevent, hmethod, b, hresponse, hclass⟩ := id hgranted
  obtain ⟨hbefore, hafter⟩ := h.after_consistent hc
  rw [h.next] at hafter
  obtain ⟨u, -, hbody⟩ := requestBody_of_success (by rw [hmethod]; decide)
    (h.ok_of_response hevent hresponse) hresponse hclass
  rw [requestBody_allocate hmethod] at hbody
  obtain ⟨L, hL, hbody⟩ := Rust.bind_eq_ok.1 hbody
  have houtcome := Except.ok.inj hbody
  have hanswer : (allocateFor D e.env e.before msg client u L).response = some b := by
    rw [houtcome]
    exact hresponse
  obtain ⟨-, port, pa, i, -, -, -, htake, hport, hserver⟩ := allocateFor_success hanswer hclass
  rw [houtcome] at hserver
  dsimp only at hserver
  have hlimits : (removeExisting e.before client).1.allocationTable.maxAllocationDurationSecs
      = e.before.allocationTable.maxAllocationDurationSecs :=
    congrArg Prod.snd (removeExisting_limits e.before client)
  refine ⟨(removeExisting e.before client).1.allocationTable.newAllocation e.env client (some L)
    port, L, hL, ?_, ?_, (hbefore.removeExisting client).notMem_of_takes htake hport, fun k => ?_⟩
  · have hlookup : e.after.allocationTable.allocations.lookup
        (.v4 (removeExisting e.before client).1.allocationTable.externalAddr port)
        = some ((removeExisting e.before client).1.allocationTable.newAllocation e.env client
          (some L) port) := by
      rw [hserver]
      exact AList.lookup_insert _
    exact created_of_granted hafter hlookup hgranted
  · simp only [AllocationTable.newAllocation, Allocation.withRelay, AllocationTable.grantedSecs,
      hlimits]
  · rw [hserver]
    exact AList.mem_insert _

/-- The user's allocations after the step: the new one, and those that the user had before without
    the one that the client had. -/
theorem Enters.ownedBy_eq {L : UInt32} {a : Allocation} (h : Enters e client L a)
    (huser : e.user D = some u) :
    ownedBy D (history ++ [e]) e.after u = insert a.relayedAddr (ownedBy D history e.before u \
      (e.before.allocationTable.findAllocationByClient client).toFinset) := by
  ext k
  rw [Finset.mem_insert, Finset.mem_sdiff, mem_ownedBy, mem_ownedBy, h.entered, mem_removeExisting,
    Option.mem_toFinset, Option.mem_def, owners_snoc, ownersAfter, h.created]
  dsimp only
  by_cases hk : k = a.relayedAddr
  · rw [hk, Function.update_self, huser]
    simp
  · rw [Function.update_of_ne hk]
    simp only [hk, false_or]
    exact and_right_comm

/-- Whenever an Allocate of a request that authenticated as the user `u` succeeds, after any history
    of a started server, the new allocation is among those made by requests of `u`, and it is within
    the limits of the user exactly if the request was to be admitted: for the whitelist, for the
    other allocations of the user that stay, and for the lifetime that the server allows. -/
theorem user_limits_iff (hstart : Started w₀.server) (hrun : Run D w₀ history w)
    (hstep : Step D w e w') (h : AllocatesAs D e msg client u user) :
    ∃ a L, e.created = some a ∧ getLifetime msg = .ok L ∧
      a.relayedAddr ∈ ownedBy D (history ++ [e]) e.after u ∧
      (user.Within client (ownedBy D (history ++ [e]) e.after u).card a.lifetime ↔
        user.Admits client (ownedBy D history e.before u \
            (e.before.allocationTable.findAllocationByClient client).toFinset).card
          (e.before.allocationTable.grantedSecs (some L))) := by
  obtain ⟨a, L, hL, henters⟩ := hstep.enters (hrun.consistent hstart.fresh.consistent) h.granted
  have huser : e.user D = some u := by
    rw [Transition.user, h.granted.1]
    dsimp only
    rw [h.auth]
    rfl
  have hfresh : a.relayedAddr ∉ ownedBy D history e.before u \
      (e.before.allocationTable.findAllocationByClient client).toFinset := by
    intro hmem
    rw [Finset.mem_sdiff, mem_ownedBy, Option.mem_toFinset] at hmem
    exact henters.fresh (mem_removeExisting.2 ⟨hmem.1.1, hmem.2⟩)
  refine ⟨a, L, henters.created, hL, ?_, ?_⟩
  · rw [henters.ownedBy_eq huser]
    exact Finset.mem_insert_self _ _
  · rw [henters.ownedBy_eq huser, Finset.card_insert_of_notMem hfresh, henters.lifetime]
    exact Account.within_iff

/-- The user `alice` of `sampleUsers`, with limits. -/
def limitedAlice (ranges : List String) (secs : UInt32) : Account where
  username := "alice"
  password := "secret"
  expiresAt := none
  userType := .fixed
  createdAt := 0
  maxAllocations := 1
  bandwidthLimit := none
  ipWhitelist := some ranges
  maxAllocationDurationSecs := some secs

theorem limitedAlice_record (ranges : List String) (secs : UInt32) :
    ∃ s : Accounts, some sampleUsers = some s.manager ∧
      s.users.lookup "alice" = some (limitedAlice ranges secs) :=
  ⟨Accounts.new.addUser (limitedAlice ranges secs), rfl, AList.lookup_insert _⟩

/-- The first allocation of `alice`, from an address on the whitelist. -/
theorem user_limits_iff_first :
    ∃ a, aliceAllocates.created = some a ∧
      (limitedAlice ["198.51.100.0/24"] 600).Within sampleClient (ownedBy sampleDigests
        ((play sampleDigests ⟨sampleServer false (some sampleUsers), 0⟩ challenged).1
          ++ [aliceAllocates]) aliceAllocates.after "alice").card a.lifetime := by
  have hallocates : AllocatesAs sampleDigests aliceAllocates (sampleLogin .allocate "secret" [])
      sampleClient "alice" (limitedAlice ["198.51.100.0/24"] 600) :=
    ⟨⟨rfl, rfl, _, rfl, by decide +kernel⟩, eq_of_authenticatedAs (by decide +kernel),
      limitedAlice_record _ _⟩
  obtain ⟨a, L, hcreated, hL, -, hiff⟩ := user_limits_iff
    (sampleServer_started false (some sampleUsers)) challenged_run aliceAllocates_step
    hallocates
  have hlifetime : (getLifetime (sampleLogin .allocate "secret" [])).toOption = some 600 := by
    decide +kernel
  rw [hL] at hlifetime
  obtain rfl := Option.some.inj hlifetime
  refine ⟨a, hcreated, hiff.2 ⟨?_, by decide +kernel, ?_⟩⟩
  · rintro ranges hranges
    obtain rfl := Option.some.inj hranges
    exact ⟨_, List.mem_singleton_self _, by decide +kernel⟩
  · rintro max hmax
    obtain rfl := Option.some.inj hmax
    decide +kernel

def remoteClient : SocketAddr := .v4 ⟨198, 51, 100, 8⟩ 4000

/-- `alice` allocates from a second address. -/
def aliceAllocatesAgain : Transition :=
  .of sampleDigests (sampleEnv 2) aliceAllocates.after
    (.message (sampleLogin .allocate "secret" []) remoteClient)

/-- A user with one allocation of at most 60 seconds for addresses of 10.0.0.0/8 gets a second one
    of 600 seconds for another address. -/
theorem user_limits_exceeded :
    let history := (play sampleDigests ⟨sampleServer false (some sampleUsers), 0⟩ challenged).1
      ++ [aliceAllocates]
    let user := limitedAlice ["10.0.0.0/8"] 60
    Run sampleDigests ⟨sampleServer false (some sampleUsers), 0⟩ (history ++ [aliceAllocatesAgain])
      ⟨aliceAllocatesAgain.after, aliceAllocatesAgain.env.now⟩ ∧
    AllocatesAs sampleDigests aliceAllocatesAgain (sampleLogin .allocate "secret" []) remoteClient
      "alice" user ∧
    (ownedBy sampleDigests (history ++ [aliceAllocatesAgain]) aliceAllocatesAgain.after
      "alice").card = 2 ∧
    aliceAllocatesAgain.created.map Allocation.lifetime = some (fromSecs 600) ∧
    AuthManager.ipInRange remoteClient.ip.toString "10.0.0.0/8" = false ∧
    ¬ user.Within remoteClient 2 (fromSecs 600) := by
  have hin : AuthManager.ipInRange remoteClient.ip.toString "10.0.0.0/8" = false := by
    decide +kernel
  have hsecond : Step sampleDigests ⟨aliceAllocates.after, aliceAllocates.env.now⟩
      aliceAllocatesAgain ⟨aliceAllocatesAgain.after, aliceAllocatesAgain.env.now⟩ :=
    Step.of_clock (by decide +kernel) _
  have hanswer : ∃ b, aliceAllocatesAgain.response = some b ∧ answerClass b = some .success := by
    rw [← Option.bind_eq_some_iff]
    decide +kernel
  refine ⟨(challenged_run.snoc aliceAllocates_step).snoc hsecond,
    ⟨⟨rfl, rfl, hanswer⟩, eq_of_authenticatedAs (by decide +kernel), limitedAlice_record _ _⟩,
    by decide +kernel, by decide +kernel, hin, ?_⟩
  intro h
  obtain ⟨range, hrange, hmatch⟩ := h.whitelist _ rfl
  rw [List.mem_singleton.1 hrange, hin] at hmatch
  exact absurd hmatch (by decide)

end Miuturn
