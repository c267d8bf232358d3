import Miuturn.Frames
import Miuturn.PortRanges

set_option autoImplicit false

/-! # Frames on any port range, in either build

The table of `Allocation.lean` has a port allocator that carries the proof of its size, and so
leaves out the ranges that only a release build accepts. Here the handlers run once more, in either
build, on a `RawAllocator` beside the server; the ports of the server's own table are not read. Only
Allocate and Refresh use the ports.

On a range with a size this is the model of `Server.lean` (`handleUdpMessageOn_agrees`). On every
range that gets past `new` a frame panics on the messages of `Crashes`, and where the size of the
range wraps around to zero it panics on every Allocate that comes as far as to draw a port
(`Draws`). -/

open RustStd

namespace Miuturn

variable {build : Build} {startPort endPort : UInt16}

/-! ## The ports -/

namespace RawAllocator

open PortAllocator (PortChoice)

/-- The allocators that calls make of a new one. -/
inductive Reachable (build : Build) (startPort endPort : UInt16) : RawAllocator → Prop where
  | new {a : RawAllocator} (hnew : RawAllocator.new build startPort endPort = .ok a) :
      Reachable build startPort endPort a
  | allocate {a a' : RawAllocator} {choice : PortChoice} {port : Option UInt16}
      (ha : Reachable build startPort endPort a)
      (hcall : a.allocate build choice = .ok (a', port)) : Reachable build startPort endPort a'
  | release {a a' : RawAllocator} {port : UInt16} {freed : Bool}
      (ha : Reachable build startPort endPort a)
      (hcall : a.release build port = .ok (a', freed)) : Reachable build startPort endPort a'

variable {a : RawAllocator}

/-- `release` subtracts only where the port is not below the range. -/
theorem release_cases (build : Build) (a : RawAllocator) (port : UInt16) :
    ∃ a' freed, a.release build port = .ok (a', freed) ∧
      a'.allocated.length = a.allocated.length := by
  unfold release
  split
  · exact ⟨_, _, rfl, rfl⟩
  · rw [build.sub16_of_le (by omega), Rust.ok_bind]
    dsimp only
    split
    · exact ⟨_, _, rfl, rfl⟩
    · split
      · exact ⟨_, _, rfl, rfl⟩
      · exact ⟨_, _, rfl, List.length_set⟩

/-- The search of a release build returns, whatever the size. -/
theorem scan_release (a : RawAllocator) (startIdx bitOffset remaining : ℕ) :
    ∀ (bitmapIdx : ℕ) (spurious : List Bool), ∃ a' port,
      a.scan .release startIdx bitOffset remaining bitmapIdx spurious = .ok (a', port) ∧
        a'.allocated.length = a.allocated.length := by
  have hadd : ∀ x y, Build.release.add16 x y = .ok (x + y) := by
    intro x y
    unfold Build.add16
    split <;> rfl
  induction remaining with
  | zero => exact fun _ _ => ⟨a, none, rfl, rfl⟩
  | succ remaining ih =>
      intro bitmapIdx spurious
      rw [scan]
      split
      · rw [hadd, Rust.ok_bind]
        exact ⟨_, _, rfl, List.length_set⟩
      · exact ih _ _

theorem allocate_release_cases (a : RawAllocator) (choice : PortChoice) :
    (a.allocated.length = 0 ∧ a.allocate .release choice = .error .divisionByZero) ∨
      (a.allocated.length ≠ 0 ∧ ∃ a' port, a.allocate .release choice = .ok (a', port) ∧
        a'.allocated.length = a.allocated.length) := by
  unfold allocate
  dsimp only
  split
  · next hzero => exact Or.inl ⟨hzero, rfl⟩
  · next hwords => exact Or.inr ⟨hwords, scan_release a _ _ _ _ _⟩

/-- In a release build the number of words is that of the size as it wraps around. -/
theorem Reachable.words (h : Reachable .release startPort endPort a) :
    a.allocated.length = ((endPort - startPort + 1).toNat + 63) / 64 := by
  induction h with
  | new hnew =>
      rw [new_release] at hnew
      obtain rfl := Except.ok.inj hnew
      exact List.length_replicate
  | @allocate a a' choice port _ hcall ih =>
      rcases a.allocate_release_cases choice with ⟨-, herror⟩ | ⟨-, b, _, hok, hlength⟩
      · exact absurd (herror.symm.trans hcall) (by simp)
      · obtain ⟨rfl, -⟩ := Prod.ext_iff.1 (Except.ok.inj (hok.symm.trans hcall))
        exact hlength.trans ih
  | @release a a' port freed _ hcall ih =>
      obtain ⟨b, _, hok, hlength⟩ := a.release_cases .release port
      obtain ⟨rfl, -⟩ := Prod.ext_iff.1 (Except.ok.inj (hok.symm.trans hcall))
      exact hlength.trans ih

/-- A debug build has a range with a size. -/
theorem Reachable.size (h : Reachable .debug startPort endPort a) :
    startPort.toNat ≤ endPort.toNat ∧ endPort.toNat - startPort.toNat < 65535 := by
  induction h with
  | new hnew =>
      by_contra hsize
      exact absurd ((new_debug_of_not_size hsize).symm.trans hnew) (by simp)
  | allocate _ _ ih => exact ih
  | release _ _ ih => exact ih

/-- On a range with a size the allocators are those of the model. -/
theorem Reachable.exists_raw (h : Reachable build startPort endPort a)
    (hle : startPort.toNat ≤ endPort.toNat) (hsize : endPort.toNat - startPort.toNat < 65535) :
    ∃ pa : PortAllocator, a = pa.raw := by
  induction h with
  | new hnew =>
      obtain ⟨pa, hpa⟩ : ∃ pa, PortAllocator.new startPort endPort = .ok pa :=
        ⟨_, dif_pos ⟨hle, by omega⟩⟩
      exact ⟨pa, Except.ok.inj (hnew.symm.trans (PortAllocator.raw_new build hpa))⟩
  | allocate _ hcall ih =>
      obtain ⟨pa, rfl⟩ := ih
      rw [PortAllocator.raw_allocate] at hcall
      exact ⟨_, (Prod.ext_iff.1 (Except.ok.inj hcall)).1.symm⟩
  | release _ hcall ih =>
      obtain ⟨pa, rfl⟩ := ih
      rw [PortAllocator.raw_release] at hcall
      exact ⟨_, (Prod.ext_iff.1 (Except.ok.inj hcall)).1.symm⟩

/-- `allocate` panics exactly if the size of the range wraps around to zero. -/
theorem Reachable.allocate_fault (h : Reachable build startPort endPort a) (choice : PortChoice) :
    (∃ f, a.allocate build choice = .error f) ↔ endPort + 1 = startPort := by
  cases build with
  | debug =>
      obtain ⟨hle, hsize⟩ := h.size
      obtain ⟨pa, rfl⟩ := h.exists_raw hle hsize
      rw [PortAllocator.raw_allocate]
      refine iff_of_false (by simp) fun hwrap => ?_
      have hsucc := congrArg UInt16.toNat hwrap
      have hone : (1 : UInt16).toNat = 1 := rfl
      rw [UInt16.toNat_add, hone] at hsucc
      have hlt := startPort.toNat_lt
      omega
  | release =>
      have hzero : (endPort - startPort + 1).toNat = 0 ↔ endPort + 1 = startPort := by
        have hlast := endPort.toNat_lt
        have hfirst := startPort.toNat_lt
        have hone : (1 : UInt16).toNat = 1 := rfl
        rw [← UInt16.toNat_inj, UInt16.toNat_add, UInt16.toNat_sub, UInt16.toNat_add, hone]
        omega
      rw [← hzero]
      have hwords := h.words
      rcases a.allocate_release_cases choice with ⟨hnone, herror⟩ | ⟨hsome, _, _, hok, -⟩
      · exact iff_of_true ⟨_, herror⟩ (by omega)
      · exact iff_of_false (by rw [hok]; simp) (by omega)

end RawAllocator

open RawAllocator (Reachable)

section Loop

variable (bindAddr : Ipv4Addr) (env : Env)

theorem exists_acquireLoop (hsize : endPort + 1 ≠ startPort) (remaining : ℕ) :
    ∀ (attempts : ℕ) (ports : RawAllocator) (last : Option (SocketAddr × String)),
      Reachable build startPort endPort ports →
      ∃ acquired, AllocationTable.acquireLoop (RawAllocator.allocate build)
        (RawAllocator.release build) bindAddr env remaining attempts ports last
          = .ok acquired := by
  induction remaining with
  | zero =>
      intro attempts ports last _
      cases last with
      | none => exact ⟨_, rfl⟩
      | some failure => exact ⟨_, rfl⟩
  | succ remaining ih =>
      intro attempts ports last h
      rw [AllocationTable.acquireLoop]
      cases hallocate : ports.allocate build (env.portChoice attempts) with
      | error f => exact absurd ((h.allocate_fault _).1 ⟨f, hallocate⟩) hsize
      | ok taken =>
          obtain ⟨ports', port⟩ := taken
          cases port with
          | none => exact ⟨_, rfl⟩
          | some port =>
              rw [Rust.ok_bind]
              cases hbind : env.bindResult attempts with
              | ok _ => exact ⟨_, rfl⟩
              | error source =>
                  obtain ⟨ports'', freed, hrelease, -⟩ := ports'.release_cases build port
                  obtain ⟨rest, hrest⟩ := ih (attempts + 1) ports''
                    (some (.v4 bindAddr port, source)) ((h.allocate hallocate).release hrelease)
                  dsimp only
                  rw [hrelease, Rust.ok_bind]
                  dsimp only
                  rw [hrest, Rust.ok_bind]
                  exact ⟨_, rfl⟩

/-- The loop of `create_allocation` panics if its first call does. -/
theorem acquireLoop_fault {ports : RawAllocator} (h : Reachable build startPort endPort ports) :
    (∃ f, AllocationTable.acquireLoop (RawAllocator.allocate build) (RawAllocator.release build)
        bindAddr env 100 0 ports none = .error f) ↔ endPort + 1 = startPort := by
  constructor
  · rintro ⟨f, hf⟩
    by_contra hsize
    obtain ⟨acquired, hok⟩ := exists_acquireLoop bindAddr env hsize 100 0 ports none h
    exact absurd (hok.symm.trans hf) (by simp)
  · intro hwrap
    obtain ⟨f, hf⟩ := (h.allocate_fault (env.portChoice 0)).2 hwrap
    rw [AllocationTable.acquireLoop, hf]
    exact ⟨f, rfl⟩

/-- On the ports of the model it is the loop of the model. -/
theorem acquireLoop_raw (build : Build) (remaining : ℕ) :
    ∀ (attempts : ℕ) (pa : PortAllocator) (last : Option (SocketAddr × String)),
      AllocationTable.acquireLoop (RawAllocator.allocate build) (RawAllocator.release build)
          bindAddr env remaining attempts pa.raw last
        = .ok ⟨(AllocationTable.acquire bindAddr env remaining attempts pa last).ports.raw,
          (AllocationTable.acquire bindAddr env remaining attempts pa last).result,
          (AllocationTable.acquire bindAddr env remaining attempts pa last).binds⟩ := by
  induction remaining with
  | zero =>
      intro attempts pa last
      cases last with
      | none => rfl
      | some failure => rfl
  | succ remaining ih =>
      intro attempts pa last
      rw [AllocationTable.acquireLoop, AllocationTable.acquire_succ, PortAllocator.raw_allocate,
        Rust.ok_bind]
      cases hallocate : pa.allocate (env.portChoice attempts) with
      | mk pa' port =>
          cases port with
          | none => rfl
          | some port =>
              cases hbind : env.bindResult attempts with
              | ok _ => rfl
              | error source =>
                  dsimp only
                  rw [PortAllocator.raw_release, Rust.ok_bind]
                  dsimp only
                  rw [ih, Rust.ok_bind]
                  rfl

end Loop

/-! ## The handlers -/

section Handlers

variable (build) (D : Digests) (env : Env) (server : TurnServer) (ports : RawAllocator)
  (msg : Message) (data : Bytes) (clientAddr : SocketAddr)

/-- The ports after `remove_allocation`. -/
def releaseOn (t : AllocationTable) (relayedAddr : SocketAddr) : Rust RawAllocator :=
  match t.allocations.lookup relayedAddr with
  | some _ => do
    let (ports, _) ← ports.release build relayedAddr.port
    pure ports
  | none => pure ports

/-- `AllocationTable::create_allocation`. -/
def createAllocationOn (t : AllocationTable) (requestedLifetime : Option UInt32) :
    Rust ((AllocationTable × Except Error Allocation) × RawAllocator) :=
  if t.quotaReached then pure ((t, .error .allocationQuotaReached), ports)
  else do
    let acquired ← AllocationTable.acquireLoop (RawAllocator.allocate build)
      (RawAllocator.release build) t.bindAddr env 100 0 ports none
    match acquired.result with
    | .error e => pure ((t, .error e), acquired.ports)
    | .ok port =>
      pure ((t.enter env clientAddr requestedLifetime t.portAllocator port,
        .ok (t.newAllocation env clientAddr requestedLifetime port)), acquired.ports)

/-- The ports after `handle_allocate` has removed the client's old allocation. -/
def removeExistingOn : Rust RawAllocator :=
  match server.allocationTable.findAllocationByClient clientAddr with
  | some oldRelayed => releaseOn build ports server.allocationTable oldRelayed
  | none => pure ports

/-- `handle_allocate`, after authentication and with the lifetime read. -/
def allocateOn (username : String) (lifetime : UInt32) : Rust (Outcome × RawAllocator) := do
  let ports ← removeExistingOn build server ports clientAddr
  let (server, removed) := removeExisting server clientAddr
  let (created, ports) ←
    createAllocationOn build env ports clientAddr server.allocationTable (some lifetime)
  pure (allocateOutcome D env server msg clientAddr username lifetime removed created, ports)

/-- `handle_refresh`, after authentication and with the lifetime read. With lifetime 0 it removes
    the client's allocation. -/
def refreshOn (username : String) (lifetime : UInt32) : Rust (Outcome × RawAllocator) := do
  let ports ← if lifetime = 0 then removeExistingOn build server ports clientAddr else pure ports
  pure (refreshFor D env server msg clientAddr username lifetime, ports)

/-- The two handlers from their beginning. -/
def withLifetimeOn (body : String → UInt32 → Rust (Outcome × RawAllocator)) :
    Rust (Outcome × RawAllocator) := do
  match ← verifyTurnAuth D env server msg clientAddr with
  | .ok username =>
    let lifetime ← getLifetime msg
    body username lifetime
  | .error (server, resp) => pure (.unchanged server (some resp), ports)

/-- `process_message`. -/
def processMessageOn : Rust (Outcome × RawAllocator) :=
  match msg.header.method, server.turnEnabled with
  | .allocate, true =>
    withLifetimeOn D env server ports msg clientAddr
      (allocateOn build D env server ports msg clientAddr)
  | .refresh, true =>
    withLifetimeOn D env server ports msg clientAddr
      (refreshOn build D env server ports msg clientAddr)
  | _, _ => do
    let o ← processMessage D env server msg clientAddr
    pure (o, ports)

/-- `handle_udp_message`. -/
def handleUdpMessageOn : Rust (Outcome × RawAllocator) :=
  handleUdpWith build
    (do
      let o ← handleChannelData env server data clientAddr
      pure (o, ports))
    (fun msg => processMessageOn build D env server ports msg clientAddr)
    (.unchanged server none, ports) data

/-- `handle_tcp_message`. -/
def handleTcpMessageOn : Rust (Outcome × RawAllocator) :=
  handleTcpWith
    (do
      let o ← handleChannelData env server data clientAddr
      pure (o, ports))
    (fun msg => processMessageOn build D env server ports msg clientAddr)
    (.unchanged server none, ports) data

end Handlers

/-! ## On a range with a size -/

/-- An outcome apart from the ports of its table. -/
def Outcome.withPorts (o : Outcome) (pa : PortAllocator) : Outcome :=
  ⟨o.server.withTable { o.server.allocationTable with portAllocator := pa }, o.response, o.sent,
    o.removed⟩

/-- Both panic alike, or the outcomes are the same and the ports of the one stand beside the
    other. -/
inductive SameOutcomeOn : Rust Outcome → Rust (Outcome × RawAllocator) → Prop where
  | panic (f : Fault) : SameOutcomeOn (.error f) (.error f)
  | ok {o o' : Outcome} (hsame : ∀ pa, o'.withPorts pa = o.withPorts pa) :
      SameOutcomeOn (.ok o) (.ok (o', o.server.allocationTable.portAllocator.raw))

variable {D : Digests} {env : Env} {server : TurnServer} {ports : RawAllocator} {msg : Message}
  {client : SocketAddr} {u : String} {lifetime : UInt32}

theorem SameOutcomeOn.refl {o : Outcome} {pa : PortAllocator}
    (h : o.server.allocationTable.portAllocator = pa) :
    SameOutcomeOn (.ok o) (.ok (o, pa.raw)) := by
  rw [← h]
  exact .ok fun _ => rfl

theorem releaseOn_raw (build : Build) (t : AllocationTable) (ct : ChannelTable)
    (relayedAddr : SocketAddr) :
    releaseOn build t.portAllocator.raw t relayedAddr
      = .ok (t.removeAllocation ct relayedAddr).1.1.portAllocator.raw := by
  unfold releaseOn AllocationTable.removeAllocation
  cases t.allocations.lookup relayedAddr with
  | none => rfl
  | some a =>
      dsimp only
      rw [PortAllocator.raw_release]
      rfl

theorem removeExistingOn_raw (build : Build) (server : TurnServer) (client : SocketAddr) :
    removeExistingOn build server server.allocationTable.portAllocator.raw client
      = .ok (removeExisting server client).1.allocationTable.portAllocator.raw := by
  unfold removeExistingOn removeExisting
  cases server.allocationTable.findAllocationByClient client with
  | none => rfl
  | some oldRelayed => exact releaseOn_raw build _ server.channelTable oldRelayed

theorem allocateOn_agrees (build : Build) :
    SameOutcomeOn (.ok (allocateFor D env server msg client u lifetime))
      (allocateOn build D env server server.allocationTable.portAllocator.raw msg client u
        lifetime) := by
  unfold allocateOn allocateFor
  rw [removeExistingOn_raw, Rust.ok_bind]
  generalize removeExisting server client = existing
  obtain ⟨server', removed⟩ := existing
  dsimp only
  unfold createAllocationOn AllocationTable.createAllocation
  cases hquota : server'.allocationTable.quotaReached with
  | true => exact .ok fun _ => rfl
  | false =>
      rw [if_neg Bool.false_ne_true, if_neg Bool.false_ne_true, acquireLoop_raw, Rust.ok_bind,
        AllocationTable.acquireRelay]
      generalize AllocationTable.acquire server'.allocationTable.bindAddr env 100 0
        server'.allocationTable.portAllocator none = acquired
      obtain ⟨pa, result, binds⟩ := acquired
      cases result with
      | error e => exact .ok fun _ => rfl
      | ok port => exact .ok fun _ => rfl

theorem refreshOn_agrees (build : Build) :
    SameOutcomeOn (.ok (refreshFor D env server msg client u lifetime))
      (refreshOn build D env server server.allocationTable.portAllocator.raw msg client u
        lifetime) := by
  unfold refreshOn
  split
  · next hzero =>
      have hports : (refreshFor D env server msg client u lifetime).server.allocationTable
          = (removeExisting server client).1.allocationTable := by
        unfold refreshFor removeExisting
        cases server.allocationTable.findAllocationByClient client with
        | none => rfl
        | some relayed =>
            dsimp only
            rw [if_pos hzero]
      rw [removeExistingOn_raw, ← hports]
      exact .ok fun _ => rfl
  · next hpos =>
      refine .refl ?_
      unfold refreshFor AllocationTable.refreshAllocation
      cases server.allocationTable.findAllocationByClient client with
      | none => rfl
      | some relayed =>
          dsimp only
          rw [if_neg hpos]
          cases server.allocationTable.allocations.lookup relayed with
          | none => rfl
          | some a => rfl

theorem withLifetimeOn_agrees {body : String → UInt32 → Outcome}
    {bodyOn : String → UInt32 → Rust (Outcome × RawAllocator)}
    (h : ∀ u lifetime, SameOutcomeOn (.ok (body u lifetime)) (bodyOn u lifetime)) :
    SameOutcomeOn (withAuth D env server msg client fun u => do
        let lifetime ← getLifetime msg
        pure (body u lifetime))
      (withLifetimeOn D env server server.allocationTable.portAllocator.raw msg client bodyOn) := by
  unfold withLifetimeOn
  cases hauth : verifyTurnAuth D env server msg client with
  | error f =>
      rw [withAuth_fault hauth]
      exact .panic f
  | ok result =>
      cases result with
      | error answer =>
          have hports : answer.1.allocationTable.portAllocator
              = server.allocationTable.portAllocator := by
            rcases verifyTurnAuth_eq_error hauth with rfl | ⟨reason, rfl⟩
            · rfl
            · rfl
          rw [withAuth_error hauth]
          exact .refl hports
      | ok u =>
          rw [withAuth_ok hauth, Rust.ok_bind]
          dsimp only
          cases getLifetime msg with
          | error f => exact .panic f
          | ok lifetime => exact h u lifetime

/-- The other messages leave the ports alone. -/
theorem processMessage_ports {o : Outcome} (ho : processMessage D env server msg client = .ok o)
    (h : server.turnEnabled = true →
      msg.header.method ≠ .allocate ∧ msg.header.method ≠ .refresh) :
    o.server.allocationTable.portAllocator = server.allocationTable.portAllocator := by
  by_cases hdisabled : msg.header.method ∈ authenticatedMethods ∧ server.turnEnabled = false
  · rw [processMessage_turnDisabled hdisabled.1 hdisabled.2] at ho
    obtain rfl := Except.ok.inj ho
    rfl
  · have hturn : msg.header.method ∈ authenticatedMethods → server.turnEnabled = true :=
      fun hm => Bool.eq_true_of_not_eq_false fun hoff => hdisabled ⟨hm, hoff⟩
    have hallocate : msg.header.method ≠ .allocate :=
      fun hm => (h (hturn (by rw [hm]; decide))).1 hm
    have hrefresh : msg.header.method ≠ .refresh :=
      fun hm => (h (hturn (by rw [hm]; decide))).2 hm
    cases processMessage_effect ho with
    | inert _ => rfl
    | challenge _ _ => rfl
    | allocateFailed hm _ _ _ => exact absurd hm hallocate
    | allocated hm _ _ _ _ => exact absurd hm hallocate
    | deleted hm _ _ _ => exact absurd hm hrefresh
    | refreshed hm _ _ _ _ _ => exact absurd hm hrefresh
    | permitted _ _ hentry _ => simp only [AllocationTable.addPermissions, hentry]
    | bound _ _ _ _ _ _ _ _ => rfl
    | relayed peer data _ =>
        simp only [AllocationTable.sendToPeer]
        repeat' split
        all_goals rfl

theorem processMessageOn_allocate (hm : msg.header.method = .allocate)
    (hturn : server.turnEnabled = true) :
    processMessageOn build D env server ports msg client
      = withLifetimeOn D env server ports msg client
        (allocateOn build D env server ports msg client) := by
  rw [processMessageOn, hm, hturn]

theorem processMessageOn_refresh (hm : msg.header.method = .refresh)
    (hturn : server.turnEnabled = true) :
    processMessageOn build D env server ports msg client
      = withLifetimeOn D env server ports msg client
        (refreshOn build D env server ports msg client) := by
  rw [processMessageOn, hm, hturn]

theorem processMessageOn_other (h : server.turnEnabled = true →
      msg.header.method ≠ .allocate ∧ msg.header.method ≠ .refresh) :
    processMessageOn build D env server ports msg client
      = processMessage D env server msg client >>= fun o => .ok (o, ports) := by
  unfold processMessageOn
  split
  · next hm hturn => exact absurd hm (h hturn).1
  · next hm hturn => exact absurd hm (h hturn).2
  · rfl

/-- On a range with a size, either build does what the model says. -/
theorem processMessageOn_agrees (build : Build) (D : Digests) (env : Env) (server : TurnServer)
    (msg : Message) (client : SocketAddr) :
    SameOutcomeOn (processMessage D env server msg client)
      (processMessageOn build D env server server.allocationTable.portAllocator.raw msg
        client) := by
  by_cases hports : server.turnEnabled = true ∧
      (msg.header.method = .allocate ∨ msg.header.method = .refresh)
  · obtain ⟨hturn, hm | hm⟩ := hports
    · rw [processMessageOn_allocate hm hturn,
        processMessage_authenticated (by rw [hm]; decide) hturn,
        withAuth_congr fun u _ => requestBody_allocate hm]
      exact withLifetimeOn_agrees fun u lifetime => allocateOn_agrees build
    · rw [processMessageOn_refresh hm hturn,
        processMessage_authenticated (by rw [hm]; decide) hturn,
        withAuth_congr fun u _ => requestBody_refresh hm]
      exact withLifetimeOn_agrees fun u lifetime => refreshOn_agrees build
  · have hother : server.turnEnabled = true →
        msg.header.method ≠ .allocate ∧ msg.header.method ≠ .refresh :=
      fun hturn => ⟨fun hm => hports ⟨hturn, .inl hm⟩, fun hm => hports ⟨hturn, .inr hm⟩⟩
    rw [processMessageOn_other hother]
    cases ho : processMessage D env server msg client with
    | error f => exact .panic f
    | ok o =>
        exact .refl (processMessage_ports ho hother)

theorem handleChannelData_agrees (env : Env) (server : TurnServer) (data : Bytes)
    (client : SocketAddr) :
    SameOutcomeOn (handleChannelData env server data client) (do
      let o ← handleChannelData env server data client
      pure (o, server.allocationTable.portAllocator.raw)) := by
  rcases handleChannelData_cases env server data client with h | ⟨_, _, _, _, _, -, -, -, h⟩
  · rw [h]
    exact .refl rfl
  · rw [h]
    exact .refl rfl

/-- And so for datagrams and stream frames. -/
theorem handleUdpMessageOn_agrees (build : Build) (D : Digests) (env : Env) (server : TurnServer)
    {data : Bytes} (hlen : data.length ≤ 65555) (client : SocketAddr) :
    SameOutcomeOn (handleUdpMessage D env server data client)
      (handleUdpMessageOn build D env server server.allocationTable.portAllocator.raw data
        client) := by
  rw [handleUdpMessage, handleUdpMessageOn, handleUdpWith_eq build _ _ _ hlen]
  exact handleUdpWith_rel (handleChannelData_agrees env server data client)
    (fun msg => processMessageOn_agrees build D env server msg client) (.refl rfl)

theorem handleTcpMessageOn_agrees (build : Build) (D : Digests) (env : Env) (server : TurnServer)
    (data : Bytes) (client : SocketAddr) :
    SameOutcomeOn (handleTcpMessage D env server data client)
      (handleTcpMessageOn build D env server server.allocationTable.portAllocator.raw data
        client) :=
  handleTcpWith_rel (handleChannelData_agrees env server data client)
    (fun msg => processMessageOn_agrees build D env server msg client) (.refl rfl)

/-! ## Where a frame panics -/

theorem withLifetimeOn_fault {body : String → UInt32 → Rust (Outcome × RawAllocator)} :
    (∃ f, withLifetimeOn D env server ports msg client body = .error f) ↔
      (∃ f, verifyTurnAuth D env server msg client = .error f) ∨
        ∃ u, verifyTurnAuth D env server msg client = .ok (.ok u) ∧
          ((∃ f, getLifetime msg = .error f) ∨
            ∃ lifetime, getLifetime msg = .ok lifetime ∧ ∃ f, body u lifetime = .error f) := by
  unfold withLifetimeOn
  cases verifyTurnAuth D env server msg client with
  | error f => simp
  | ok result =>
      cases result with
      | error answer => simp
      | ok u => cases getLifetime msg <;> simp

/-- The number of allocations that an Allocate of the client removes before it looks at the
    quota. -/
def TurnServer.replaced (server : TurnServer) (client : SocketAddr) : ℕ :=
  match (server.allocationTable.findAllocationByClient client).bind
    server.allocationTable.allocations.lookup with
  | some _ => 1
  | none => 0

/-- An Allocate that goes on to draw a port: it is let in, it has no LIFETIME or one that can be
    read, and without the client's old allocation there is room. -/
structure Draws (D : Digests) (env : Env) (server : TurnServer) (msg : Message)
    (client : SocketAddr) : Prop where
  method : msg.header.method = .allocate
  admitted : Admitted D env server msg client
  lifetime : ¬ msg.Short Attribute.lifetime 4
  room : ∀ max, server.allocationTable.maxConcurrentAllocations = some max →
    server.allocationTable.stats.activeAllocations - server.replaced client < max

theorem quotaReached_removeExisting :
    (removeExisting server client).1.allocationTable.quotaReached = false ↔
      ∀ max, server.allocationTable.maxConcurrentAllocations = some max →
        server.allocationTable.stats.activeAllocations - server.replaced client < max := by
  have htable : (removeExisting server client).1.allocationTable.maxConcurrentAllocations
        = server.allocationTable.maxConcurrentAllocations ∧
      (removeExisting server client).1.allocationTable.stats.activeAllocations
        = server.allocationTable.stats.activeAllocations - server.replaced client := by
    unfold removeExisting TurnServer.replaced
    cases server.allocationTable.findAllocationByClient client with
    | none => exact ⟨rfl, (sub_zero _).symm⟩
    | some relayed =>
        dsimp only [Option.bind_some, AllocationTable.removeAllocation]
        cases server.allocationTable.allocations.lookup relayed with
        | none => exact ⟨rfl, (sub_zero _).symm⟩
        | some a => exact ⟨rfl, rfl⟩
  unfold AllocationTable.quotaReached
  rw [htable.1, htable.2]
  cases server.allocationTable.maxConcurrentAllocations with
  | none => simp
  | some max => simp

section Panics

variable (hports : Reachable build startPort endPort ports)

include hports

theorem exists_removeExistingOn (server : TurnServer) (client : SocketAddr) :
    ∃ ports', removeExistingOn build server ports client = .ok ports' ∧
      Reachable build startPort endPort ports' := by
  unfold removeExistingOn
  cases server.allocationTable.findAllocationByClient client with
  | none => exact ⟨_, rfl, hports⟩
  | some relayed =>
      dsimp only [releaseOn]
      cases server.allocationTable.allocations.lookup relayed with
      | none => exact ⟨_, rfl, hports⟩
      | some a =>
          obtain ⟨ports', freed, hrelease, -⟩ := ports.release_cases build relayed.port
          dsimp only
          rw [hrelease]
          exact ⟨ports', rfl, hports.release hrelease⟩

theorem allocateOn_fault :
    (∃ f, allocateOn build D env server ports msg client u lifetime = .error f) ↔
      endPort + 1 = startPort ∧
        ∀ max, server.allocationTable.maxConcurrentAllocations = some max →
          server.allocationTable.stats.activeAllocations - server.replaced client < max := by
  obtain ⟨ports', hremove, hports'⟩ := exists_removeExistingOn hports server client
  rw [← quotaReached_removeExisting, allocateOn, hremove, Rust.ok_bind]
  generalize removeExisting server client = existing
  obtain ⟨server', removed⟩ := existing
  dsimp only
  unfold createAllocationOn
  cases server'.allocationTable.quotaReached with
  | true => simp
  | false =>
      have hloop := acquireLoop_fault server'.allocationTable.bindAddr env hports'
      rw [← hloop, if_neg Bool.false_ne_true, and_iff_left rfl]
      cases hacquired : AllocationTable.acquireLoop (RawAllocator.allocate build)
          (RawAllocator.release build) server'.allocationTable.bindAddr env 100 0 ports' none with
      | error f => exact iff_of_true ⟨f, rfl⟩ ⟨f, rfl⟩
      | ok acquired =>
          obtain ⟨_, result, _⟩ := acquired
          cases result with
          | error e => simp
          | ok port => simp

theorem exists_refreshOn :
    ∃ r, refreshOn build D env server ports msg client u lifetime = .ok r := by
  obtain ⟨ports', hremove, -⟩ := exists_removeExistingOn hports server client
  unfold refreshOn
  split
  · rw [hremove]
    exact ⟨_, rfl⟩
  · exact ⟨_, rfl⟩

omit hports in
/-- An Allocate or Refresh crashes in its authentication, or where its LIFETIME is read. -/
theorem crashes_iff_lifetime
    (hmethod : msg.header.method = .allocate ∨ msg.header.method = .refresh) :
    Crashes D env server msg client ↔
      (∃ f, verifyTurnAuth D env server msg client = .error f) ∨
        ∃ u, verifyTurnAuth D env server msg client = .ok (.ok u) ∧
          ∃ f, getLifetime msg = .error f := by
  have hmem : msg.header.method ∈ authenticatedMethods := by
    rcases hmethod with hm | hm
    · rw [hm]
      decide
    · rw [hm]
      decide
  have hbody : ∀ u, (∃ f, requestBody D env server msg client u = .error f) ↔
      ∃ f, getLifetime msg = .error f := by
    intro u
    rw [requestBody_fault, getLifetime_fault]
    rcases hmethod with hm | hm
    · simp [hm]
    · simp [hm]
  rw [crashes_iff hmem]
  simp only [hbody]

omit hports in
theorem draws_iff (hm : msg.header.method = .allocate) :
    Draws D env server msg client ↔
      (∃ u, verifyTurnAuth D env server msg client = .ok (.ok u)) ∧
        (¬ ∃ f, getLifetime msg = .error f) ∧
        ∀ max, server.allocationTable.maxConcurrentAllocations = some max →
          server.allocationTable.stats.activeAllocations - server.replaced client < max := by
  rw [← admitted_iff, getLifetime_fault]
  exact ⟨fun h => ⟨h.admitted, h.lifetime, h.room⟩, fun h => ⟨hm, h.1, h.2.1, h.2.2⟩⟩

theorem processMessageOn_allocate_fault (hm : msg.header.method = .allocate)
    (hturn : server.turnEnabled = true) :
    (∃ f, processMessageOn build D env server ports msg client = .error f) ↔
      Crashes D env server msg client ∨
        (endPort + 1 = startPort ∧ Draws D env server msg client) := by
  rw [processMessageOn_allocate hm hturn, withLifetimeOn_fault, crashes_iff_lifetime (.inl hm),
    draws_iff hm]
  simp only [allocateOn_fault hports]
  cases verifyTurnAuth D env server msg client with
  | error f => simp
  | ok result =>
      cases result with
      | error answer => simp
      | ok u => cases getLifetime msg <;> simp

theorem processMessageOn_refresh_fault (hm : msg.header.method = .refresh)
    (hturn : server.turnEnabled = true) :
    (∃ f, processMessageOn build D env server ports msg client = .error f) ↔
      Crashes D env server msg client := by
  have hrefresh : ∀ u lifetime,
      ¬ ∃ f, refreshOn build D env server ports msg client u lifetime = .error f := by
    rintro u lifetime ⟨f, hf⟩
    obtain ⟨r, hr⟩ : ∃ r, refreshOn build D env server ports msg client u lifetime = .ok r :=
      exists_refreshOn hports
    exact absurd (hr.symm.trans hf) (by simp)
  rw [processMessageOn_refresh hm hturn, withLifetimeOn_fault, crashes_iff_lifetime (.inr hm)]
  simp only [hrefresh, and_false, or_false, exists_false]

/-- `process_message` panics on the requests of `Crashes` and, if the size of the range wraps around
    to zero, on those of `Draws`, with TURN enabled. -/
theorem processMessageOn_fault :
    (∃ f, processMessageOn build D env server ports msg client = .error f) ↔
      server.turnEnabled = true ∧ (Crashes D env server msg client ∨
        (endPort + 1 = startPort ∧ Draws D env server msg client)) := by
  by_cases hlifetime : server.turnEnabled = true ∧
      (msg.header.method = .allocate ∨ msg.header.method = .refresh)
  · obtain ⟨hturn, hm | hm⟩ := hlifetime
    · rw [and_iff_right hturn, processMessageOn_allocate_fault hports hm hturn]
    · have hdraws : ¬ Draws D env server msg client :=
        fun h => absurd (hm.symm.trans h.method) (by decide)
      rw [and_iff_right hturn, processMessageOn_refresh_fault hports hm hturn,
        or_iff_left fun h => hdraws h.2]
  · have hother : server.turnEnabled = true →
        msg.header.method ≠ .allocate ∧ msg.header.method ≠ .refresh :=
      fun hturn => ⟨fun hm => hlifetime ⟨hturn, .inl hm⟩, fun hm => hlifetime ⟨hturn, .inr hm⟩⟩
    have hfault : (∃ f, processMessageOn build D env server ports msg client = .error f) ↔
        ∃ f, processMessage D env server msg client = .error f := by
      rw [processMessageOn_other hother]
      cases processMessage D env server msg client <;> simp
    rw [hfault, processMessage_fault]
    refine and_congr_right fun hturn => (or_iff_left ?_).symm
    exact fun h => (hother hturn).1 h.2.method

end Panics

section Frames

variable (build : Build) (D : Digests) (env : Env) (server : TurnServer)

/-- Datagrams and stream frames of up to 65555 bytes, in either build and on every port range that
    gets past `PortAllocator::new`, are handled without a panic exactly when TURN is disabled or the
    frame is read neither as a message of `Crashes` nor, on a range whose size wraps around to zero,
    as one of `Draws`. -/
theorem frames_return_iff (hports : Reachable build startPort endPort ports)
    (data : Bytes) (hlen : data.length ≤ 65555) (client : SocketAddr) :
    ((∃ r, handleUdpMessageOn build D env server ports data client = .ok r) ↔
      ¬ (server.turnEnabled = true ∧ ∃ msg, UdpReads data msg ∧
        (Crashes D env server msg client ∨
          (endPort + 1 = startPort ∧ Draws D env server msg client)))) ∧
    ((∃ r, handleTcpMessageOn build D env server ports data client = .ok r) ↔
      ¬ (server.turnEnabled = true ∧ ∃ msg, TcpReads data msg ∧
        (Crashes D env server msg client ∨
          (endPort + 1 = startPort ∧ Draws D env server msg client)))) := by
  have hdata : ∃ r, (do
      let o ← handleChannelData env server data client
      pure (o, ports) : Rust (Outcome × RawAllocator)) = .ok r := by
    obtain ⟨o, ho⟩ := exists_handleChannelData env server data client
    rw [ho]
    exact ⟨_, rfl⟩
  constructor
  · rw [handleUdpMessageOn, handleUdpWith_eq build _ _ _ hlen,
      returns_iff UdpReads.unique not_udpReads_of_channelData hdata
        (fun _ => processMessageOn_fault hports) (handleUdpWith_cases _ _ _ data)]
    simp only [and_left_comm, exists_and_left]
  · rw [handleTcpMessageOn, returns_iff TcpReads.unique not_tcpReads_of_channelData hdata
      (fun _ => processMessageOn_fault hports) (handleTcpWith_cases _ _ _ data)]
    simp only [and_left_comm, exists_and_left]

end Frames

/-- On the range of all ports a release build panics on a plain Allocate, here of a server without
    authentication. -/
theorem frames_return_iff_allPorts :
    ∃ ports, RawAllocator.new .release 0 65535 = .ok ports ∧
      ¬ ∃ r, handleUdpMessageOn .release sampleDigests (sampleEnv 0) (sampleServer true none) ports
        (sampleRequest .allocate []).encode sampleClient = .ok r := by
  refine ⟨⟨[], 0, 0, 65535, 0⟩, rfl, fun hreturns => ?_⟩
  refine (frames_return_iff .release sampleDigests (sampleEnv 0) (sampleServer true none)
    (show Reachable .release 0 65535 _ from .new rfl) (sampleRequest .allocate []).encode
    (by decide) sampleClient).1.1 hreturns
    ⟨rfl, _, ⟨by decide, rfl, Or.inl (Message.parse_encode _ (by decide) [])⟩, Or.inr ⟨rfl, ?_⟩⟩
  refine ⟨rfl, Or.inl rfl, ?_, ?_⟩
  · rintro ⟨attr, hattr, -⟩
    cases hattr
  · intro max hmax
    cases hmax

end Miuturn
