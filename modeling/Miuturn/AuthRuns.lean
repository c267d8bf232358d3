import Miuturn.Consistency

set_option autoImplicit false

/-! # Authentication along runs

Requests change the settings of a server never, its relay state (`TurnServer.control`) only when
they authenticate, and its nonces only by the one a 401 answer carries. Along a run it follows that
every nonce of the map was issued by an earlier answer, and that the users are the initial ones with
the changes of the history applied. -/

open RustStd

namespace Miuturn

/-! ## What requests leave alone -/

/-- What the server was configured with, and the users and rules. -/
structure Settings where
  realm : String
  password : String
  authDisabled : Bool
  authManager : Option AuthManager
  serverName : String
  stunEnabled : Bool
  turnEnabled : Bool

def TurnServer.settings (server : TurnServer) : Settings :=
  ⟨server.realm, server.password, server.authDisabled, server.authManager, server.serverName,
    server.stunEnabled, server.turnEnabled⟩

/-- An allocation without its traffic counters. -/
def Allocation.idle (a : Allocation) : Allocation :=
  { a with bytesForwarded := 0, messagesForwarded := 0 }

/-- The relay state that requests control: the allocation map with its lifetimes and permissions,
    the ports, the allocation counters and the channel bindings; the traffic counters are left
    out. -/
structure Control where
  allocations : List (SocketAddr × Allocation)
  ports : PortAllocator
  totalAllocations : ℕ
  activeAllocations : ℤ
  channels : ChannelTable

def TurnServer.control (server : TurnServer) : Control where
  allocations := server.allocationTable.allocations.entries.map (fun e => (e.1, e.2.idle))
  ports := server.allocationTable.portAllocator
  totalAllocations := server.allocationTable.stats.totalAllocations
  activeAllocations := server.allocationTable.stats.activeAllocations
  channels := server.channelTable

variable {D : Digests} {env : Env} {server : TurnServer} {msg : Message} {client : SocketAddr}
  {o : Outcome} {e : Transition}

theorem removeExisting_settings (server : TurnServer) (client : SocketAddr) :
    (removeExisting server client).1.settings = server.settings ∧
      (removeExisting server client).1.nonceMap = server.nonceMap := by
  rcases removeExisting_cases server client with ⟨-, heq⟩ | ⟨e, -, heq⟩
  · rw [heq]
    exact ⟨rfl, rfl⟩
  · rw [heq]
    exact ⟨rfl, rfl⟩

theorem Effect.settings (he : Effect D env server msg client o) :
    o.server.settings = server.settings := by
  cases he with
  | inert _ => rfl
  | challenge reason _ => rfl
  | allocateFailed _ _ _ _ => exact (removeExisting_settings server client).1
  | allocated _ _ _ _ _ => exact (removeExisting_settings server client).1
  | deleted _ _ _ _ => rfl
  | refreshed _ _ _ _ _ _ => rfl
  | permitted _ _ _ _ => rfl
  | bound _ _ _ _ _ _ _ _ => rfl
  | relayed peer data _ => rfl

/-- A request changes the nonces only by the one it is challenged with. -/
theorem Effect.nonces (he : Effect D env server msg client o) :
    o.server.nonceMap = server.nonceMap ∨
      ∃ reason, o = .unchanged (create401Response env server msg reason).1
        (some (create401Response env server msg reason).2) := by
  cases he with
  | inert _ => exact Or.inl rfl
  | challenge reason _ => exact Or.inr ⟨reason, rfl⟩
  | allocateFailed _ _ _ _ => exact Or.inl (removeExisting_settings server client).2
  | allocated _ _ _ _ _ => exact Or.inl (removeExisting_settings server client).2
  | deleted _ _ _ _ => exact Or.inl rfl
  | refreshed _ _ _ _ _ _ => exact Or.inl rfl
  | permitted _ _ _ _ => exact Or.inl rfl
  | bound _ _ _ _ _ _ _ _ => exact Or.inl rfl
  | relayed peer data _ => exact Or.inl rfl

theorem control_sendToPeer (server : TurnServer) (sendOk : Bool) (client peer : SocketAddr)
    (data : Bytes) :
    (server.withTable (server.allocationTable.sendToPeer sendOk client peer data).1).control
      = server.control := by
  rcases sendToPeer_cases server.allocationTable sendOk client peer data with
    heq | ⟨e, relay, -, -, heq⟩
  · rw [heq, TurnServer.withTable]
  · rw [heq]
    simp only [TurnServer.control, AllocationTable.countPacket]
    rw [HashMap.map_entries_modify (fun _ => rfl)]

/-- The relay state changes only for a request that authenticates. -/
theorem Effect.control (he : Effect D env server msg client o) :
    o.server.control = server.control ∨
      ∃ u, verifyTurnAuth D env server msg client = .ok (.ok u) := by
  cases he with
  | inert _ => exact Or.inl rfl
  | challenge reason _ => exact Or.inl rfl
  | allocateFailed _ hauth _ _ => exact Or.inr ⟨_, hauth⟩
  | allocated _ hauth _ _ _ => exact Or.inr ⟨_, hauth⟩
  | deleted _ hauth _ _ => exact Or.inr ⟨_, hauth⟩
  | refreshed _ hauth _ _ _ _ => exact Or.inr ⟨_, hauth⟩
  | permitted _ hauth _ _ => exact Or.inr ⟨_, hauth⟩
  | bound _ hauth _ _ _ _ _ _ => exact Or.inr ⟨_, hauth⟩
  | relayed peer data _ => exact Or.inl (control_sendToPeer server env.sendOk client peer data)

theorem Rehashed.nonceMap {server' : TurnServer} (h : Rehashed server server') :
    server'.nonceMap = server.nonceMap := by
  obtain ⟨_, _, -, -, rfl⟩ := h
  rfl

theorem Rehashed.settings {server' : TurnServer} (h : Rehashed server server') :
    server'.settings = server.settings := by
  obtain ⟨_, _, -, -, rfl⟩ := h
  rfl

/-! ## Users along a run -/

/-- The changes to users and rules in a history. -/
def authChanges (history : List Transition) : List AuthChange :=
  history.filterMap (fun e => match e.event with
    | .changeAuth change => some change
    | _ => none)

/-- The settings after a list of changes. -/
def Settings.changed (s : Settings) (changes : List AuthChange) : Settings :=
  { s with authManager := s.authManager.map (fun am => changes.foldl AuthChange.apply am) }

theorem Settings.changed_nil (s : Settings) : s.changed [] = s := by
  unfold Settings.changed
  simp

theorem Settings.changed_changed (s : Settings) (l l' : List AuthChange) :
    (s.changed l).changed l' = s.changed (l ++ l') := by
  unfold Settings.changed
  simp [Function.comp_def]

theorem authChanges_of_quiet (h : ∀ change, e.event ≠ .changeAuth change) :
    authChanges [e] = [] := by
  unfold authChanges
  cases hevent : e.event with
  | changeAuth change => exact absurd hevent (h change)
  | _ => simp only [List.filterMap_cons, hevent, List.filterMap_nil]

theorem Step.settings {w w' : World} (h : Step D w e w') :
    w'.server.settings = w.server.settings.changed (authChanges [e]) := by
  rw [← h.rehashed.settings, h.next]
  dsimp only
  rw [h.after_eq]
  -- only the last kind of event changes anything
  have hquiet : (∀ change, e.event ≠ .changeAuth change) →
      e.before.settings.changed (authChanges [e]) = e.before.settings := by
    intro hne
    rw [authChanges_of_quiet hne, Settings.changed_nil]
  cases hevent : e.event with
  | message msg client =>
      rw [hquiet (by simp [hevent])]
      exact (react_message D e.env e.before msg client).settings
  | channelData data client =>
      obtain ⟨sent, heq, -⟩ := react_channelData D e.env e.before data client
      rw [hquiet (by simp [hevent]), heq]
  | cleanupAllocations =>
      rw [hquiet (by simp [hevent])]
      rfl
  | cleanupChannels =>
      rw [hquiet (by simp [hevent])]
      rfl
  | cleanupNonces =>
      rw [hquiet (by simp [hevent])]
      rfl
  | changeAuth change =>
      simp only [authChanges, List.filterMap_cons, hevent, List.filterMap_nil]
      rfl

/-- The settings are the initial ones with the users and rules changed by the history. -/
theorem Run.settings {w₀ w : World} {history : List Transition} (h : Run D w₀ history w) :
    w.server.settings = w₀.server.settings.changed (authChanges history) := by
  refine Trace.Run.invariant
    (P := fun history w => w.server.settings = w₀.server.settings.changed (authChanges history)) h
    (Settings.changed_nil _).symm ?_
  intro history w e w' _ ih hstep
  rw [hstep.settings, ih, Settings.changed_changed, authChanges, authChanges, authChanges,
    List.filterMap_append]

/-! ## Nonces along a run -/

/-- The step was answered with a 401 that carries the nonce. -/
def Issues (e : Transition) (nonce : String) : Prop :=
  ∃ answer : Message, e.response = some answer.encode ∧ answer.header.eventType = .error ∧
    (∃ attr, answer.getAttribute Attribute.errorCode = some attr ∧
      attr.value.take 4 = [0, 0, 4, 1]) ∧
    answer.getAttribute Attribute.nonce = some ⟨Attribute.nonce, strBytes nonce⟩

theorem issues_of_challenge {reason : Option String}
    (h : e.response = some (create401Response e.env server msg reason).2) :
    Issues e (generateNonce e.env) :=
  ⟨unauthorizedMessage e.env server msg reason, h, rfl, ⟨_, rfl, rfl⟩, rfl⟩

/-- What a step can do to the nonces: issue one, drop the old ones, or nothing. -/
theorem Step.nonceMap_cases {w w' : World} (h : Step D w e w') :
    e.after.nonceMap = e.before.nonceMap ∨
    (Issues e (generateNonce e.env) ∧ e.after.nonceMap
      = e.before.nonceMap.insert (generateNonce e.env) ⟨generateNonce e.env, e.env.now⟩) ∨
    e.after.nonceMap = (cleanupNonces e.before e.env.now).nonceMap := by
  have hafter := h.after_eq
  cases hevent : e.event with
  | message msg client =>
      rcases (h.effect hevent).nonces with hsame | ⟨reason, heq⟩
      · exact Or.inl hsame
      · obtain ⟨hserver, hresponse, -⟩ := Outcome.mk.inj heq
        refine Or.inr (Or.inl ⟨issues_of_challenge hresponse, ?_⟩)
        rw [hserver]
        rfl
  | channelData data client =>
      obtain ⟨sent, heq, -⟩ := react_channelData D e.env e.before data client
      rw [hevent, heq] at hafter
      exact Or.inl (by rw [hafter])
  | cleanupNonces =>
      rw [hevent] at hafter
      exact Or.inr (Or.inr (by rw [hafter]; rfl))
  | cleanupAllocations =>
      rw [hevent] at hafter
      exact Or.inl (by rw [hafter]; rfl)
  | cleanupChannels =>
      rw [hevent] at hafter
      exact Or.inl (by rw [hafter]; rfl)
  | changeAuth change =>
      rw [hevent] at hafter
      exact Or.inl (by rw [hafter]; rfl)

/-- A nonce after a step was there before it, or the step issued it. -/
theorem Step.nonceOrigin {w w' : World} (h : Step D w e w') {nonce : String} {entry : NonceEntry}
    (hentry : e.after.nonceMap.lookup nonce = some entry) :
    e.before.nonceMap.lookup nonce = some entry ∨
      (Issues e nonce ∧ entry.createdAt = e.env.now) := by
  rcases h.nonceMap_cases with hsame | ⟨hissues, hinsert⟩ | hclean
  · rw [← hsame]
    exact Or.inl hentry
  · rw [hinsert] at hentry
    rcases HashMap.lookup_insert_eq_some.1 hentry with ⟨rfl, rfl⟩ | ⟨-, hold⟩
    · exact Or.inr ⟨hissues, rfl⟩
    · exact Or.inl hold
  · rw [hclean, cleanupNonces, HashMap.lookup_retain, Option.filter_eq_some_iff] at hentry
    exact Or.inl hentry.1

/-- Every nonce of the map was issued by a step of the history, when its entry says. -/
theorem Run.nonces_issued {w₀ w : World} {history : List Transition} (h : Run D w₀ history w)
    (hstart : Started w₀.server) {nonce : String} {entry : NonceEntry}
    (hentry : w.server.nonceMap.lookup nonce = some entry) :
    ∃ e ∈ history, Issues e nonce ∧ entry.createdAt = e.env.now := by
  revert nonce entry
  refine Trace.Run.invariant (P := fun history w => ∀ {nonce entry},
    w.server.nonceMap.lookup nonce = some entry →
      ∃ e ∈ history, Issues e nonce ∧ entry.createdAt = e.env.now) h ?_ ?_
  · intro nonce entry hentry
    rw [hstart.fresh.nonceMap] at hentry
    exact absurd hentry (by simp)
  · intro history w e w' _ ih hstep nonce entry hentry
    rw [hstep.next] at hentry
    rcases hstep.nonceOrigin hentry with hold | hissued
    · rw [hstep.rehashed.nonceMap] at hold
      obtain ⟨e₀, he₀, h₀⟩ := ih hold
      exact ⟨e₀, List.mem_append_left _ he₀, h₀⟩
    · exact ⟨e, List.mem_append_right _ (List.mem_singleton_self e), hissued⟩

/-! ## No change without authentication -/

theorem Step.authDisabled {w₀ w w' : World} {history : List Transition} (hrun : Run D w₀ history w)
    (hstep : Step D w e w') : e.before.authDisabled = w₀.server.authDisabled := by
  have hsettings := hstep.rehashed.settings.trans hrun.settings
  exact congrArg Settings.authDisabled hsettings

/-- No change without authentication. In every reachable state of a server with auth enabled, a
    message that changes the relay state has passed `verify_turn_auth`: the ACL admits its address,
    its nonce was put in a 401 answer of this run at most 600 whole seconds before, and it carries
    the digest for the password of its user. A request that `verify_turn_auth` refuses adds at most
    one nonce, and its answer is an error. -/
theorem control_changes_authenticated {w₀ w w' : World} {history : List Transition}
    (hstart : Started w₀.server) (hauth : w₀.server.authDisabled = false)
    (hrun : Run D w₀ history w) (hstep : Step D w e w') (hevent : e.event = .message msg client) :
    (e.after.control ≠ e.before.control →
      ∃ u pw, verifyTurnAuth D e.env e.before msg client = .ok (.ok u) ∧
        Authenticates D e.env e.before msg client u pw ∧
        ∃ attr, msg.getAttribute Attribute.nonce = some attr ∧
          ∃ e₀ ∈ history, Issues e₀ (fromUtf8Lossy attr.value) ∧
            asSecs (e.env.now - e₀.env.now) ≤ 600) ∧
    (∀ answer, msg.header.method ∈ authenticatedMethods →
      verifyTurnAuth D e.env e.before msg client = .ok (.error answer) →
      (e.after = e.before ∨ ∃ nonce entry,
        e.after = { e.before with nonceMap := e.before.nonceMap.insert nonce entry }) ∧
      (e.before.turnEnabled = true → ∃ b, e.response = some b) ∧
      ∀ b, e.response = some b → answerClass b = some .error) := by
  have henabled : e.before.authDisabled = false := (hstep.authDisabled hrun).trans hauth
  constructor
  · intro hchanged
    rcases (hstep.effect hevent).control with hsame | ⟨u, hok⟩
    · exact absurd hsame hchanged
    · obtain ⟨pw, hpw⟩ := (verifyTurnAuth_eq_ok henabled).1 hok
      obtain ⟨attr, entry, hattr, hentry, hage⟩ := hpw.nonce
      rw [hstep.rehashed.nonceMap] at hentry
      obtain ⟨e₀, he₀, hissued, hcreated⟩ := hrun.nonces_issued hstart hentry
      rw [hcreated] at hage
      exact ⟨u, pw, hok, hpw, attr, hattr, e₀, he₀, hissued, hage⟩
  · intro answer hmethod hrefused
    cases hturn : e.before.turnEnabled with
    | false =>
        obtain ⟨hafter, hresponse⟩ := hstep.turnDisabled hevent hmethod hturn
        refine ⟨Or.inl hafter, fun h => absurd h (by simp), fun b hb => ?_⟩
        exact absurd (hresponse.symm.trans hb) (by simp)
    | true =>
        obtain ⟨hserver, hresponse, -⟩ := Outcome.mk.inj (hstep.outcome_of_ok hevent
          ((processMessage_authenticated hmethod hturn).trans (withAuth_error hrefused _)))
        rw [← hserver, ← hresponse]
        rcases verifyTurnAuth_eq_error hrefused with rfl | ⟨reason, rfl⟩
        · refine ⟨Or.inl rfl, fun _ => ⟨_, rfl⟩, fun b hb => ?_⟩
          obtain rfl := Option.some.inj hb
          exact answerClass_errorResponse msg .forbidden none e.before
        · refine ⟨Or.inr ⟨_, _, rfl⟩, fun _ => ⟨_, rfl⟩, fun b hb => ?_⟩
          obtain rfl := Option.some.inj hb
          exact answerClass_unauthorized e.env e.before msg reason

/-- An unauthenticated Allocate is challenged. -/
def challenged : List (Env × Event) :=
  [(sampleEnv 0, .message (sampleRequest .allocate []) sampleClient)]

def challengedWorld : World :=
  (play sampleDigests ⟨sampleServer false (some sampleUsers), 0⟩ challenged).2

theorem challenged_run : Run sampleDigests ⟨sampleServer false (some sampleUsers), 0⟩
    (play sampleDigests ⟨sampleServer false (some sampleUsers), 0⟩ challenged).1
    challengedWorld :=
  Run.of_play (by decide)

/-- The Allocate of `alice` that follows. -/
def aliceAllocates : Transition :=
  .of sampleDigests (sampleEnv 1) challengedWorld.server
    (.message (sampleLogin .allocate "secret" []) sampleClient)

theorem aliceAllocates_step : Step sampleDigests challengedWorld aliceAllocates
    ⟨aliceAllocates.after, aliceAllocates.env.now⟩ :=
  Step.of_clock (by decide +kernel) _

theorem control_changes_authenticated_allocate :
    aliceAllocates.after.control ≠ aliceAllocates.before.control ∧
      ∃ u pw, Authenticates sampleDigests aliceAllocates.env aliceAllocates.before
        (sampleLogin .allocate "secret" []) sampleClient u pw := by
  have hchanged : aliceAllocates.after.control ≠ aliceAllocates.before.control := by
    intro hsame
    have htotal : aliceAllocates.after.control.totalAllocations
        ≠ aliceAllocates.before.control.totalAllocations := by decide +kernel
    exact htotal (congrArg Control.totalAllocations hsame)
  obtain ⟨u, pw, -, h, -⟩ := (control_changes_authenticated
    (sampleServer_started false (some sampleUsers)) rfl challenged_run aliceAllocates_step rfl).1
      hchanged
  exact ⟨hchanged, u, pw, h⟩

/-! ## Whose password -/

/-- The user is in the table and has not expired. -/
def AuthManager.ValidUser (am : AuthManager) (now : ℕ) (username : String) (user : User) : Prop :=
  am.users.lookup username = some user ∧ ∀ t, user.expiresAt = some t → now ≤ t

/-- `get_password_for_user`, with an `AuthManager`: the password of the user while there is a valid
    one, and otherwise the server's own. -/
theorem getPasswordForUser_eq_some {am : AuthManager} {u pw : String}
    (ham : server.authManager = some am) (h : server.getPasswordForUser env u = some pw) :
    (∃ user, am.ValidUser (asSecs env.systemTime) u user ∧ user.password = pw) ∨
      ((∀ user, ¬ am.ValidUser (asSecs env.systemTime) u user) ∧ server.password ≠ "" ∧
        server.password = pw) := by
  unfold TurnServer.getPasswordForUser at h
  rw [ham, Option.bind_some] at h
  cases huser : am.getUserPassword (asSecs env.systemTime) u with
  | some pw' =>
      rw [huser] at h
      obtain rfl := Option.some.inj h
      obtain ⟨user, hlookup, hexpiry, hpw⟩ := AuthManager.getUserPassword_eq_some.1 huser
      exact Or.inl ⟨user, ⟨hlookup, hexpiry⟩, hpw⟩
  | none =>
      rw [huser] at h
      right
      refine ⟨?_, ?_⟩
      · rintro user ⟨hlookup, hexpiry⟩
        have hsome := AuthManager.getUserPassword_eq_some.2 ⟨user, hlookup, hexpiry, rfl⟩
        exact absurd (huser.symm.trans hsome) (by simp)
      · dsimp only at h
        split at h
        · exact absurd h (by simp)
        · next hempty =>
            obtain rfl := Option.some.inj h
            refine ⟨fun hp => hempty (by rw [hp]; rfl), rfl⟩

/-- After any history, a request authenticates as `u` on a server with an `AuthManager` only with
    the stored password of a valid user `u`, or, while there is no valid user `u` in the table, with
    the server's own password if it has one. The table is the initial one with the additions and
    removals of the history. -/
theorem verifyTurnAuth_password_source {w₀ w : World} {history : List Transition}
    {am₀ : AuthManager} {u : String} (hauth : w₀.server.authDisabled = false)
    (ham : w₀.server.authManager = some am₀)
    (hrun : Run D w₀ history w)
    (hok : verifyTurnAuth D env w.server msg client = .ok (.ok u)) :
    ∃ am, w.server.authManager = some am ∧ am = (authChanges history).foldl AuthChange.apply am₀ ∧
      ((∃ user, am.ValidUser (asSecs env.systemTime) u user ∧
          Authenticates D env w.server msg client u user.password) ∨
        ((∀ user, ¬ am.ValidUser (asSecs env.systemTime) u user) ∧ w₀.server.password ≠ "" ∧
          Authenticates D env w.server msg client u w₀.server.password)) := by
  have hsettings := hrun.settings
  have henabled : w.server.authDisabled = false :=
    (congrArg Settings.authDisabled hsettings).trans hauth
  have hpassword : w.server.password = w₀.server.password := congrArg Settings.password hsettings
  have hmanager : w.server.authManager
      = some ((authChanges history).foldl AuthChange.apply am₀) := by
    refine (congrArg Settings.authManager hsettings).trans ?_
    show w₀.server.authManager.map _ = _
    rw [ham]
    rfl
  obtain ⟨pw, hpw⟩ := (verifyTurnAuth_eq_ok henabled).1 hok
  refine ⟨_, hmanager, rfl, ?_⟩
  rcases getPasswordForUser_eq_some hmanager hpw.password with
    ⟨user, hvalid, rfl⟩ | ⟨hno, hempty, rfl⟩
  · exact Or.inl ⟨user, hvalid, hpw⟩
  · rw [hpassword] at hempty hpw
    exact Or.inr ⟨hno, hempty, hpw⟩

/-- The user of an authentication that succeeded. -/
def authenticatedAs : Rust (Except (TurnServer × Bytes) String) → Option String
  | .ok (.ok u) => some u
  | _ => none

theorem eq_of_authenticatedAs {r : Rust (Except (TurnServer × Bytes) String)} {u : String}
    (h : authenticatedAs r = some u) : r = .ok (.ok u) := by
  unfold authenticatedAs at h
  split at h
  · rw [Option.some.inj h]
  · exact absurd h (by simp)

/-- The challenged client authenticates as `alice` with the stored password. -/
theorem verifyTurnAuth_password_source_alice :
    verifyTurnAuth sampleDigests (sampleEnv 1) challengedWorld.server
        (sampleLogin .allocate "secret" []) sampleClient = .ok (.ok "alice") ∧
      ∃ am user, challengedWorld.server.authManager = some am ∧ am.ValidUser 1 "alice" user := by
  have hok : verifyTurnAuth sampleDigests (sampleEnv 1) challengedWorld.server
      (sampleLogin .allocate "secret" []) sampleClient = .ok (.ok "alice") :=
    eq_of_authenticatedAs (by decide +kernel)
  obtain ⟨am, ham, rfl, ⟨user, hvalid, -⟩ | ⟨hno, -⟩⟩ :=
    verifyTurnAuth_password_source rfl rfl challenged_run hok
  · exact ⟨hok, _, user, ham, hvalid⟩
  · refine absurd ?_ (hno ⟨"alice", "secret", none⟩)
    exact ⟨by decide +kernel, fun t ht => absurd ht (by simp)⟩

/-- `alice` is challenged and then removed. -/
def aliceRemoved : World :=
  (play sampleDigests ⟨sampleServer false (some sampleUsers), 0⟩
    (challenged ++ [(sampleEnv 1, .changeAuth (.removeUser "alice"))])).2

/-- A request signed with the server's own password authenticates as the removed user. -/
theorem removed_user_authenticates :
    (∃ am, aliceRemoved.server.authManager = some am ∧ am.users.lookup "alice" = none) ∧
      verifyTurnAuth sampleDigests (sampleEnv 2) aliceRemoved.server
        (sampleLogin .allocate "password" []) sampleClient = .ok (.ok "alice") :=
  ⟨⟨_, rfl, by decide +kernel⟩, eq_of_authenticatedAs (by decide +kernel)⟩

end Miuturn
