import Miuturn.Interop

set_option autoImplicit false

/-! # Data from one client to another

The rest of the test of `turn_cli.py`: a Send indication of one client, the packet from its relay
socket to the relay socket of the other, and the Data indication that the other client reads. The
server may sit behind a NAT: the packet then comes from the private address of the relay, and
`normalize_peer_addr_for_client` shows the public one. -/

open RustStd Dialogue

namespace Miuturn.TurnCli

variable {D : Digests} {socks : List SocketAddr} {sock sock' : SocketAddr} {w w' : World}
  {m : Message} {e : Transition} {st st' : Stage} {self : Client} {tid : TransactionId}
  {rounds : ℕ} {u pw : String} {port port' : UInt16} {a a' : Allocation} {payload : Bytes}

/-! ## At the sender's relay -/

/-- The Send indication of the client. -/
def sendIndication (tid : TransactionId) (ip : Ipv4Addr) (port : UInt16) (payload : Bytes) :
    Message :=
  message .send .indication tid [peerAttribute ip port tid, ⟨attrData, payload⟩]

/-- The allocation after a packet was counted. -/
def counted (a : Allocation) (n : ℕ) : Allocation :=
  { a with bytesForwarded := a.bytesForwarded + n, messagesForwarded := a.messagesForwarded + 1 }

/-- A Send to a permitted address goes out of the client's relay socket. -/
theorem Handled.sends {ip : Ipv4Addr}
    (h : Handled D socks w sock (readAs (sendIndication tid ip port' payload)) e w')
    (hc : w.server.Consistent) (hturn : w.server.turnEnabled = true) (hsock : sock ∈ socks)
    (hholds : Holds w.server sock port a) (halive : w'.clock ≤ a.createdAt + a.lifetime)
    (hip : IpAddr.v4 ip ∈ a.permissions) :
    e.response = none ∧
      e.sent = some ⟨.v4 w.server.allocationTable.bindAddr port, .v4 ip port', payload⟩ ∧
      Holds w'.server sock port (counted a payload.length) := by
  have hfound := h.found hc
  rw [h.clock] at halive
  have hholds' := hholds.unmoved hfound hsock halive
  have hentry := hholds'.entry hfound.consistent
  dsimp only at hholds' hentry
  have hturn' : e.before.turnEnabled = true :=
    (congrArg Settings.turnEnabled hfound.settings).trans hturn
  have hsend : sendFor e.env e.before (readAs (sendIndication tid ip port' payload)) sock = _ :=
    sendFor_of_forwards hentry rfl rfl (xorAddressOf_encodeXorAddress ip port' Miuturn.magicCookie
      tid) hip hholds'.relay h.sendOk
  have ho : processMessage D e.env e.before (readAs (sendIndication tid ip port' payload)) sock
      = .ok (sendFor e.env e.before (readAs (sendIndication tid ip port' payload)) sock) := by
    rw [processMessage_send rfl, if_pos hturn']
  rw [hsend] at ho
  obtain ⟨hserver, hresponse, hsent⟩ := h.outcome ho
  refine ⟨hresponse, ?_, ?_⟩
  · rw [hsent, ← show _ = w.server.allocationTable.bindAddr from congrArg Prod.fst hfound.addrs]
    rfl
  · rw [hserver]
    refine ⟨?_, hholds.client, hholds'.relay, hholds'.channels⟩
    show (HashMap.modify _ _ _).lookup (SocketAddr.v4 e.before.allocationTable.externalAddr port)
      = _
    rw [HashMap.lookup_modify, if_pos rfl]
    exact congrArg (Option.map _) hholds'.lookup

/-! ## At the receiver's relay -/

theorem Holds.taskAt {server : TurnServer} (h : Holds server sock port a) (hc : server.Consistent) :
    taskAt server (.v4 server.allocationTable.externalAddr port)
      = some ⟨sock, .v4 server.allocationTable.bindAddr port,
          .v4 server.allocationTable.externalAddr port⟩ := by
  rw [TurnCli.taskAt, h.lookup, Option.bind_some, Allocation.task, h.relay, Option.map_some,
    h.client, (hc.key _ _ h.lookup).1]

/-- With no channel, a datagram is handed on as a Data indication. -/
theorem Holds.packetFor {server : TurnServer} (h : Holds server sock port a) (systemTime : ℕ)
    (source : SocketAddr) (payload : Bytes) (task : RelayTask)
    (hrelayed : task.relayedAddr = .v4 server.allocationTable.externalAddr port) :
    task.packetFor systemTime server.channelTable source payload
      = ⟨task.clientAddr, buildDataIndication systemTime (task.effectivePeer source) payload⟩ := by
  have hnone : server.channelTable.getByPeerForRelayed task.relayedAddr (task.effectivePeer source)
      = none := by
    rw [ChannelTable.getByPeerForRelayed, Option.map_eq_none_iff, List.find?_eq_none]
    rintro ⟨⟨addr, n⟩, b⟩ hentry hmatch
    obtain ⟨haddr, -⟩ : addr = task.relayedAddr ∧ _ := of_decide_eq_true hmatch
    have hlookup := HashMap.lookup_eq_some.2 hentry
    rw [haddr, hrelayed] at hlookup
    exact absurd ((h.channels n).symm.trans hlookup) (by simp)
  rw [RelayTask.packetFor, hnone]

/-- A piece of a conversation ends before the whole of it. -/
theorem runs_bind_cases {α β : Type} {d : Talk α} {f : α → Talk β} {r : Except Failure β}
    (hrun : Runs (Answers D socks) (d >>= f) st r st') (hc : st.world.server.Consistent) :
    ∃ r₁ st₁, Runs (Answers D socks) d st r₁ st₁ ∧ st₁.world.server.Consistent ∧
      st₁.world.clock ≤ st'.world.clock ∧
      ((∃ x, r₁ = .ok x ∧ Runs (Answers D socks) (f x) st₁ r st') ∨
        ∃ x, r₁ = .error x ∧ r = .error x) := by
  rcases runs_bind_iff.1 hrun with ⟨x, st₁, hd, hf⟩ | ⟨x, rfl, hd⟩
  · have hc₁ := (runs_unmoved hd hc).consistent
    exact ⟨_, st₁, hd, hc₁, (runs_unmoved hf hc₁).clock, Or.inl ⟨x, rfl, hf⟩⟩
  · exact ⟨_, st', hd, (runs_unmoved hd hc).consistent, le_rfl, Or.inr ⟨x, rfl, rfl⟩⟩

/-- A client in the middle of the test: until `T` its login is good and its allocation is alive. -/
structure Ready (D : Digests) (w : World) (c : Client) (u pw : String) (T : ℕ) (port : UInt16)
    (a : Allocation) : Prop where
  loggedIn : ∃ t, t ≤ w.clock ∧ T ≤ t + fromSecs 600 ∧ LoggedIn D w.server c u pw t
  holds : Holds w.server c.sock port a
  lives : T ≤ a.createdAt + a.lifetime

theorem Ready.unmoved {P : SocketAddr → Prop} {T : ℕ} (h : Ready D w self u pw T port a)
    (hunmoved : Unmoved P w w') (hsock : P self.sock) (htime : w'.clock < T) :
    Ready D w' self u pw T port a where
  loggedIn := by
    obtain ⟨t, ht, hT, hlogin⟩ := h.loggedIn
    exact ⟨t, ht.trans hunmoved.clock, hT, hlogin.unmoved hunmoved ht (lt_of_lt_of_le htime hT)⟩
  holds := h.holds.unmoved hunmoved hsock (htime.le.trans h.lives)
  lives := h.lives

/-- `turn_allocate` of a client on a server with authentication turned off. -/
theorem runs_login_open {α : Type} {f : Client × Option Address → Talk α} {r : Except Failure α}
    {tid' : TransactionId} (hc : st.world.server.Consistent)
    (hopen : st.world.server.authDisabled = true) (hw : Legible st.world.server)
    (hmail : st.mail self.sock = []) (hrounds : 0 < rounds)
    (hrun : Runs (Answers D socks) (turnAllocate D rounds self tid tid' u pw >>= f) st r st') :
    (∃ err, Refusal err ∧
      r = .error (.exception ("Allocate rejected without realm/nonce: " ++ refusalText err))) ∨
    ∃ st₁ self' addr, Runs (Answers D socks) (f (self', some addr)) st₁ r st' ∧
      Aside socks self.sock st st₁ ∧ self'.integrityKey = self.integrityKey := by
  obtain ⟨r₁, st₁, hallocate, -, -, hrest⟩ := runs_bind_cases hrun hc
  obtain ⟨haside, ⟨err, hrefusal, rfl⟩ | ⟨self', port, a, rfl, hkey, -⟩⟩ :=
    runs_turnAllocate_open hc hopen hw (expects_of_mail hmail hrounds) hallocate
  · obtain ⟨x, hx, -⟩ | ⟨x, hx, rfl⟩ := hrest
    · exact absurd hx (by simp)
    · obtain rfl := Except.error.inj hx
      exact Or.inl ⟨err, hrefusal, rfl⟩
  · obtain ⟨x, hx, hrest⟩ | ⟨x, hx, -⟩ := hrest
    · obtain rfl := Except.ok.inj hx
      exact Or.inr ⟨st₁, self', _, hrest, haside, hkey⟩
    · exact absurd hx (by simp)

/-- On a server with authentication turned off the test fails: a client without credentials asks for
    no permission. -/
theorem runs_turnTest_open {sock₁ sock₂ : SocketAddr} {tid : ℕ → TransactionId}
    {r : Except Failure (Option (Bytes × Option Address) × Option (Bytes × Option Address))}
    (hc : st.world.server.Consistent) (hopen : st.world.server.authDisabled = true)
    (hw : Legible st.world.server) (hne : sock₁ ≠ sock₂) (hmail₁ : st.mail sock₁ = [])
    (hmail₂ : st.mail sock₂ = []) (hrounds : 0 < rounds)
    (hrun : Runs (Answers D [sock₁, sock₂]) (turnTest D rounds sock₁ sock₂ tid u pw) st r st') :
    (∃ err, Refusal err ∧
      r = .error (.exception ("Allocate rejected without realm/nonce: " ++ refusalText err))) ∨
    r = .error (.exception "Must allocate first to obtain credentials") := by
  rcases runs_login_open hc hopen hw hmail₁ hrounds hrun with
    hrefused | ⟨st₁, client₁, relay₁, hrest, haside₁, hkey⟩
  · exact Or.inl hrefused
  have hsettings := haside₁.unmoved.settings
  rcases runs_login_open haside₁.unmoved.consistent
    ((congrArg Settings.authDisabled hsettings).trans hopen) (hw.of_settings hsettings)
    ((haside₁.mail_other hne.symm).trans hmail₂) hrounds hrest with
    hrefused | ⟨st₂, client₂, relay₂, hrest, -, -⟩
  · exact Or.inl hrefused
  have hnone : client₁.integrityKey = none := hkey
  simp only [subscript, done_ok_bind, turnCreatePermission, hnone] at hrest
  exact Or.inr (runs_done_iff.1 hrest).1

/-! ## From any state the server reaches -/

/-- A state that the server comes to after its start, with clients, peers and cleanups. -/
def Reached (D : Digests) (w : World) : Prop :=
  ∃ w₀ history, Started w₀.server ∧ Activity.Run D w₀ history w

theorem Reached.consistent (h : Reached D w) : w.server.Consistent := by
  obtain ⟨w₀, history, hstart, hrun⟩ := h
  exact (hrun.measured hstart).consistent

def sampleStage (server : TurnServer) : Stage := ⟨⟨server, 0⟩, fun _ => []⟩

theorem sampleEnv_short (secs : ℕ) : ShortErrors (sampleEnv secs) :=
  fun _ _ _ h => absurd h (by simp [sampleEnv])

def sampleTid (n : ℕ) : TransactionId := ⟨List.replicate 12 (UInt8.ofNat n), List.length_replicate⟩

def otherClient : SocketAddr := .v4 ⟨198, 51, 100, 8⟩ 4000

theorem sampleStage_reached (authDisabled : Bool) (authManager : Option AuthManager) :
    Reached sampleDigests (sampleStage (sampleServer authDisabled authManager)).world :=
  ⟨_, [], sampleServer_started authDisabled authManager, .nil⟩

/-- Two clients allocate, and the first permits the address of the relay. -/
def twoAllocate : List (Env × Event) :=
  [(sampleEnv 1, .message (sampleRequest .allocate []) sampleClient),
   (sampleEnv 2, .message (sampleRequest .allocate []) otherClient),
   (sampleEnv 3, .message (sampleRequest .createPermission
     [peerAttribute ⟨203, 0, 113, 1⟩ 5001 sampleTransaction]) sampleClient)]

def twoClients : Stage where
  world := (play sampleDigests ⟨sampleServer true none, 0⟩ twoAllocate).2
  mail _ := []

/-- The same test never succeeds on a server with authentication turned off: `turn_allocate` then
    gets its address from the first answer, without credentials, and `turn_create_permission`
    raises an exception for want of them. -/
theorem turn_test_open_fails {sock₁ sock₂ : SocketAddr} {tid : ℕ → TransactionId}
    {r : Except Failure (Option (Bytes × Option Address) × Option (Bytes × Option Address))}
    (hreached : Reached D st.world) (hopen : st.world.server.authDisabled = true)
    (hw : Legible st.world.server) (hne : sock₁ ≠ sock₂) (hmail₁ : st.mail sock₁ = [])
    (hmail₂ : st.mail sock₂ = []) (hrounds : 0 < rounds)
    (hrun : Runs (Answers D [sock₁, sock₂]) (turnTest D rounds sock₁ sock₂ tid u pw) st r st') :
    (∃ err, Refusal err ∧
      r = .error (.exception ("Allocate rejected without realm/nonce: " ++ refusalText err))) ∨
    r = .error (.exception "Must allocate first to obtain credentials") :=
  runs_turnTest_open hreached.consistent hopen hw hne hmail₁ hmail₂ hrounds hrun

theorem turn_test_open_fails_sample :
    ∃ r st', Runs (Answers sampleDigests [sampleClient, otherClient])
      (turnTest sampleDigests 1 sampleClient otherClient sampleTid "alice" "secret")
      (sampleStage (sampleServer true none)) r st' ∧ r.isOk = false := by
  have hrun := (converse_runs rfl (sampleEnv_short 1) sampleDigests
    [sampleClient, otherClient] (turnTest sampleDigests 1 sampleClient otherClient sampleTid "alice"
      "secret") (sampleStage (sampleServer true none)) (by decide)).1
  refine ⟨_, _, hrun, ?_⟩
  rcases turn_test_open_fails (sampleStage_reached _ _) rfl ⟨rfl, by decide, by decide⟩ (by decide)
    rfl rfl Nat.one_pos hrun with ⟨err, -, heq⟩ | heq
  · rw [heq]
    rfl
  · rw [heq]
    rfl

end Miuturn.TurnCli
