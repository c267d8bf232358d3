import Miuturn.Admin
import Miuturn.ServerAuth
import Miuturn.Trace

set_option autoImplicit false

/-! # Admin updates beside authentication

`Admin.lean` takes a handler of the admin server as one step. `update_user_handler` and
`update_acl_handler` are two: each removes the old entry under one lock and adds the new one under
another. `verify_turn_auth` takes locks of its own, first that of the rules and then that of the
users, and it may do so in between. There the entry is missing: a rule that denied no longer does,
and for a user the built-in password is taken.

Here both are split into what they do under one lock, and take their turns in any order. Nothing
else runs, and the clock stands still: what a request is decided on apart from users and rules (its
nonce above all) is the same throughout. Whether the missing entry is noticed is then a matter of
the passwords that the request may be signed with and of the rules that hold its address. -/

open RustStd

namespace Miuturn

namespace AdminUpdates

/-! ## The request -/

/-- An answer of `verify_turn_auth` that is not the user. -/
inductive Refusal where
  | forbidden
  | unauthorized (reason : Option String)
  deriving DecidableEq

/-- The user or a refusal; a request whose integrity attribute is too short panics. -/
abbrev Decision := Rust (Except Refusal String)

/-- Where `verify_turn_auth` is: before the rules are read, before the users are read for a name, or
    at its end. -/
inductive Pc where
  | readRules
  | readUsers (username : String)
  | decided (decision : Decision)
  deriving DecidableEq

section Request

variable (D : Digests) (env : Env) (msg : Message) (client : SocketAddr)

/-- What is decided before the first lock: everybody is let in if authentication is off. -/
def decidedAtOnce (server : TurnServer) : Option Decision :=
  if server.authDisabled then
    match msg.getAttribute Attribute.username with
    | some usernameAttr => some (.ok (.ok (fromUtf8Lossy usernameAttr.value)))
    | none => some (.ok (.ok ""))
  else none

/-- `check_acl`, and on to the lookup of the password: a decision, or the name to look up. -/
def readRules (server : TurnServer) : Except Decision String :=
  if !server.aclAdmits client then .error (.ok (.error .forbidden))
  else
    match msg.getAttribute Attribute.nonce, msg.getAttribute Attribute.username with
    | some nonceAttr, some usernameAttr =>
      match server.nonceMap.lookup (fromUtf8Lossy nonceAttr.value) with
      | none => .error (.ok (.error (.unauthorized (some "Invalid nonce"))))
      | some nonceEntry =>
        if asSecs (env.now - nonceEntry.createdAt) > 600 then
          .error (.ok (.error (.unauthorized (some "Nonce expired"))))
        else .ok (fromUtf8Lossy usernameAttr.value)
    | _, _ => .error (.ok (.error (.unauthorized none)))

/-- What is decided on the password of the user. -/
def verdict (server : TurnServer) (username : String) : Option String → Decision
  | none => .ok (.error (.unauthorized (some "Unknown user")))
  | some password => do
    if ← verifyMessageIntegrity D msg (computeMessageIntegrityKey D username server.realm password)
    then pure (.ok username)
    else pure (.error (.unauthorized (some "Bad integrity")))

/-- `get_password_for_user`, and on to the end. -/
def readUsers (server : TurnServer) (username : String) : Decision :=
  verdict D msg server username (server.getPasswordForUser env username)

/-- Where a request starts. -/
def Pc.start (server : TurnServer) : Pc :=
  match decidedAtOnce msg server with
  | some decision => .decided decision
  | none => .readRules

/-- One turn of the request. -/
def Pc.step (server : TurnServer) : Pc → Pc
  | readRules =>
    match AdminUpdates.readRules env msg client server with
    | .error decision => .decided decision
    | .ok username => .readUsers username
  | readUsers username => .decided (AdminUpdates.readUsers D env msg server username)
  | decided decision => .decided decision

/-- What is decided of a request that no update interrupts. -/
def decisionOf (server : TurnServer) : Decision :=
  match decidedAtOnce msg server with
  | some decision => decision
  | none =>
    match readRules env msg client server with
    | .error decision => decision
    | .ok username => readUsers D env msg server username

/-- The answer that goes with a decision. -/
def answer (server : TurnServer) : Except Refusal String → Except (TurnServer × Bytes) String
  | .ok username => .ok username
  | .error .forbidden => .error (server, createErrorResponseBytes msg .forbidden server)
  | .error (.unauthorized reason) => .error (create401Response env server msg reason)

/-- `verify_turn_auth` gives the answer to what is decided. -/
theorem verifyTurnAuth_eq_answer (server : TurnServer) :
    verifyTurnAuth D env server msg client
      = (decisionOf D env msg client server).map (answer env msg server) := by
  unfold verifyTurnAuth decisionOf decidedAtOnce readRules
  by_cases hdisabled : server.authDisabled = true
  · rw [if_pos hdisabled, if_pos hdisabled]
    cases msg.getAttribute Attribute.username <;> rfl
  · rw [if_neg hdisabled, if_neg hdisabled]
    dsimp only
    cases server.aclAdmits client with
    | false => rfl
    | true =>
        cases msg.getAttribute Attribute.nonce with
        | none => rfl
        | some nonceAttr =>
            cases msg.getAttribute Attribute.username with
            | none => rfl
            | some usernameAttr =>
                simp only [Bool.not_true, Bool.false_eq_true, if_false]
                cases server.nonceMap.lookup (fromUtf8Lossy nonceAttr.value) with
                | none => rfl
                | some entry =>
                    dsimp only
                    split
                    · rfl
                    · dsimp only
                      unfold readUsers verdict
                      cases server.getPasswordForUser env (fromUtf8Lossy usernameAttr.value) with
                      | none => rfl
                      | some password =>
                          dsimp only
                          cases verifyMessageIntegrity D msg (computeMessageIntegrityKey D
                              (fromUtf8Lossy usernameAttr.value) server.realm password) with
                          | error f => rfl
                          | ok valid => cases valid <;> rfl

end Request

/-! ## The update -/

/-- The two handlers that update. -/
inductive Update where
  | user (req : UpdateUserRequest)
  | acl (req : UpdateAclRequest)

/-- What an update does under its first lock. -/
def Update.removal : Update → AuthChange
  | user req => .removeUser req.username
  | acl req => .removeAclRule req.originalIpRange req.originalPriority

/-- What an update does under its second lock. -/
def Update.addition : Update → AuthChange
  | user req => .addUser (req.account 0).toUser
  | acl req => .addAclRule req.rule

def Update.edit : Update → AdminEdit
  | user req => .updateUser req
  | acl req => .updateAcl req

theorem Update.changes_edit (update : Update) :
    update.edit.changes = [update.removal, update.addition] := by
  cases update <;> rfl

/-- The server while the entry is missing. -/
def Update.between (update : Update) (server : TurnServer) : TurnServer :=
  server.changeAuth update.removal

/-- The server after the update. -/
def Update.after (update : Update) (server : TurnServer) : TurnServer :=
  (update.between server).changeAuth update.addition

theorem Update.between_authManager (update : Update) {server : TurnServer} {am : AuthManager}
    (ham : server.authManager = some am) :
    (update.between server).authManager = some (update.removal.apply am) := by
  simp [Update.between, TurnServer.changeAuth, ham]

theorem Update.after_authManager (update : Update) {server : TurnServer} {am : AuthManager}
    (ham : server.authManager = some am) :
    (update.after server).authManager
      = some (update.addition.apply (update.removal.apply am)) := by
  simp [Update.after, TurnServer.changeAuth, update.between_authManager ham]

/-! ## Taking turns -/

/-- The server, what the update still has to do, and where the request is. -/
structure State where
  server : TurnServer
  pending : List AuthChange
  pc : Pc

/-- Whose turn it is. -/
inductive Turn where
  | update
  | request
  deriving DecidableEq

section Turns

variable (D : Digests) (env : Env) (msg : Message) (client : SocketAddr)

def act (s : State) : Turn → Option State
  | .update =>
    match s.pending with
    | [] => none
    | change :: rest => some { s with server := s.server.changeAuth change, pending := rest }
  | .request => some { s with pc := s.pc.step D env msg client s.server }

/-- A run of an update and a request, in any order of turns. -/
def Interleaves (update : Update) (server : TurnServer) (turns : List Turn) (s : State) : Prop :=
  Trace.Run (fun s turn s' => act D env msg client s turn = some s')
    ⟨server, update.edit.changes, Pc.start msg server⟩ turns s

/-- However an update and a request take their turns, the request is decided as it would be before
    the update or after it. -/
def Atomic (update : Update) (server : TurnServer) : Prop :=
  ∀ turns s decision, Interleaves D env msg client update server turns s →
    s.pc = .decided decision →
    decision = decisionOf D env msg client server ∨
      decision = decisionOf D env msg client (update.after server)

/-- The servers that a request can see. -/
def Update.stages (update : Update) (server : TurnServer) : List TurnServer :=
  [server, update.between server, update.after server]

variable {D env msg client} {update : Update} {server : TurnServer}

theorem Update.mem_stages {x : TurnServer} :
    x ∈ update.stages server ↔
      x = server ∨ x = update.between server ∨ x = update.after server := by
  simp [Update.stages]

theorem Update.self_mem_stages (update : Update) (server : TurnServer) :
    server ∈ update.stages server :=
  Update.mem_stages.2 (.inl rfl)

theorem Update.between_mem_stages (update : Update) (server : TurnServer) :
    update.between server ∈ update.stages server :=
  Update.mem_stages.2 (.inr (.inl rfl))

theorem Update.after_mem_stages (update : Update) (server : TurnServer) :
    update.after server ∈ update.stages server :=
  Update.mem_stages.2 (.inr (.inr rfl))

/-! ### What a request sees -/

theorem decidedAtOnce_stages {x : TurnServer} (hx : x ∈ update.stages server) :
    decidedAtOnce msg x = decidedAtOnce msg server := by
  rcases Update.mem_stages.1 hx with rfl | rfl | rfl <;> rfl

/-- A change of the users is not seen in the rules. -/
theorem readRules_changeAuth {change : AuthChange}
    (hrules : ∀ am, (change.apply am).aclRules = am.aclRules) (server : TurnServer) :
    readRules env msg client (server.changeAuth change) = readRules env msg client server := by
  have hacl : (server.changeAuth change).aclAdmits client = server.aclAdmits client := by
    unfold TurnServer.changeAuth TurnServer.aclAdmits
    cases server.authManager with
    | none => rfl
    | some am =>
        simp only [Option.map_some, AuthManager.checkAcl, hrules]
  unfold readRules
  rw [hacl]
  rfl

/-- A change of the rules is not seen in the users. -/
theorem readUsers_changeAuth {change : AuthChange}
    (husers : ∀ am, (change.apply am).users = am.users) (server : TurnServer) (username : String) :
    readUsers D env msg (server.changeAuth change) username
      = readUsers D env msg server username := by
  have hpassword : (server.changeAuth change).getPasswordForUser env username
      = server.getPasswordForUser env username := by
    unfold TurnServer.changeAuth TurnServer.getPasswordForUser
    cases server.authManager with
    | none => rfl
    | some am =>
        simp only [Option.map_some, Option.bind_some, AuthManager.getUserPassword, husers]
  unfold readUsers
  rw [hpassword]
  rfl

/-- An update of a user is not seen in the rules. -/
theorem readRules_stages {req : UpdateUserRequest} {x : TurnServer}
    (hx : x ∈ (Update.user req).stages server) :
    readRules env msg client x = readRules env msg client server := by
  have hbetween : readRules env msg client (Update.between (.user req) server)
      = readRules env msg client server := readRules_changeAuth (fun _ => rfl) server
  rcases Update.mem_stages.1 hx with rfl | rfl | rfl
  · rfl
  · exact hbetween
  · exact (readRules_changeAuth (fun _ => rfl) _).trans hbetween

/-- An update of a rule is not seen in the users. -/
theorem readUsers_stages {req : UpdateAclRequest} {x : TurnServer}
    (hx : x ∈ (Update.acl req).stages server) (username : String) :
    readUsers D env msg x username = readUsers D env msg server username := by
  have hbetween : readUsers D env msg (Update.between (.acl req) server) username
      = readUsers D env msg server username :=
    readUsers_changeAuth (fun _ => rfl) server username
  rcases Update.mem_stages.1 hx with rfl | rfl | rfl
  · rfl
  · exact hbetween
  · exact (readUsers_changeAuth (fun _ => rfl) _ username).trans hbetween

theorem decisionOf_of_readRules {x : TurnServer} {username : String}
    (honce : decidedAtOnce msg x = none)
    (hrules : readRules env msg client x = .ok username) :
    decisionOf D env msg client x = readUsers D env msg x username := by
  rw [decisionOf, honce]
  dsimp only
  rw [hrules]

/-- Wherever the request reads the rules and the users, one of the servers would have decided like
    that on its own. -/
theorem exists_decisionOf {x y : TurnServer} {username : String}
    (honce : decidedAtOnce msg server = none) (hx : x ∈ update.stages server)
    (hrules : readRules env msg client x = .ok username) (hy : y ∈ update.stages server) :
    ∃ z ∈ update.stages server, readUsers D env msg y username = decisionOf D env msg client z := by
  cases update with
  | user req =>
      refine ⟨y, hy, (decisionOf_of_readRules ((decidedAtOnce_stages hy).trans honce) ?_).symm⟩
      rw [readRules_stages hy, ← readRules_stages hx, hrules]
  | acl req =>
      refine ⟨x, hx, ?_⟩
      rw [decisionOf_of_readRules ((decidedAtOnce_stages hx).trans honce) hrules,
        readUsers_stages hy, readUsers_stages hx]

/-- Where the request is, one of the stages has taken it, or two that decide like one. -/
def SeesStages (D : Digests) (env : Env) (msg : Message) (client : SocketAddr) (update : Update)
    (server : TurnServer) : Pc → Prop
  | .readRules => decidedAtOnce msg server = none
  | .readUsers username => ∀ y ∈ update.stages server, ∃ z ∈ update.stages server,
    readUsers D env msg y username = decisionOf D env msg client z
  | .decided decision => ∃ z ∈ update.stages server, decision = decisionOf D env msg client z

theorem seesStages_start :
    SeesStages D env msg client update server (Pc.start msg server) := by
  unfold Pc.start
  cases honce : decidedAtOnce msg server with
  | none => exact honce
  | some decision => exact ⟨server, update.self_mem_stages server, by rw [decisionOf, honce]⟩

theorem SeesStages.step {pc : Pc} {x : TurnServer}
    (h : SeesStages D env msg client update server pc) (hx : x ∈ update.stages server) :
    SeesStages D env msg client update server (pc.step D env msg client x) := by
  cases pc with
  | readRules =>
      have honce : decidedAtOnce msg server = none := h
      unfold Pc.step
      cases hrules : readRules env msg client x with
      | error decision =>
          refine ⟨x, hx, ?_⟩
          rw [decisionOf, decidedAtOnce_stages hx, honce]
          dsimp only
          rw [hrules]
      | ok username =>
          intro y hy
          exact exists_decisionOf honce hx hrules hy
  | readUsers username => exact h x hx
  | decided decision => exact h

/-- What holds at every turn: the update is at one of its stages, and the request saw no other. -/
structure Sees (D : Digests) (env : Env) (msg : Message) (client : SocketAddr) (update : Update)
    (server : TurnServer) (s : State) : Prop where
  stage : (s.server = server ∧ s.pending = [update.removal, update.addition]) ∨
    (s.server = update.between server ∧ s.pending = [update.addition]) ∨
    (s.server = update.after server ∧ s.pending = [])
  request : SeesStages D env msg client update server s.pc

theorem Sees.mem_stages {s : State} (h : Sees D env msg client update server s) :
    s.server ∈ update.stages server := by
  rcases h.stage with ⟨h, -⟩ | ⟨h, -⟩ | ⟨h, -⟩ <;> simp [Update.mem_stages, h]

theorem Sees.act {s s' : State} {turn : Turn} (h : Sees D env msg client update server s)
    (hact : act D env msg client s turn = some s') :
    Sees D env msg client update server s' := by
  cases turn with
  | update =>
      rcases h.stage with ⟨hserver, hpending⟩ | ⟨hserver, hpending⟩ | ⟨hserver, hpending⟩
      · rw [AdminUpdates.act, hpending] at hact
        obtain rfl := Option.some.inj hact
        exact ⟨Or.inr (Or.inl ⟨by rw [hserver]; rfl, rfl⟩), h.request⟩
      · rw [AdminUpdates.act, hpending] at hact
        obtain rfl := Option.some.inj hact
        exact ⟨Or.inr (Or.inr ⟨by rw [hserver]; rfl, rfl⟩), h.request⟩
      · rw [AdminUpdates.act, hpending] at hact
        exact absurd hact (by simp)
  | request =>
      obtain rfl := Option.some.inj hact
      exact ⟨h.stage, h.request.step h.mem_stages⟩

theorem sees_of_interleaves {turns : List Turn} {s : State}
    (h : Interleaves D env msg client update server turns s) :
    Sees D env msg client update server s := by
  refine Trace.Run.invariant (P := fun _ s => Sees D env msg client update server s) h
    ⟨Or.inl ⟨rfl, update.changes_edit⟩, seesStages_start⟩ ?_
  intro _ s turn s' _ hsees hact
  exact hsees.act hact

/-- Two turns are enough for a request. -/
theorem step_step_start {x : TurnServer} (hx : x ∈ update.stages server) :
    ((Pc.start msg server).step D env msg client x).step D env msg client x
      = .decided (decisionOf D env msg client x) := by
  unfold Pc.start decisionOf
  rw [decidedAtOnce_stages hx]
  cases decidedAtOnce msg server with
  | some decision => rfl
  | none =>
      dsimp only [Pc.step]
      cases readRules env msg client x <;> rfl

/-- A request whose turns come between the two locks of the update. -/
theorem interleaves_between :
    ∃ turns s, Interleaves D env msg client update server turns s ∧
      s.pc = .decided (decisionOf D env msg client (update.between server)) := by
  refine ⟨[.update, .request, .request], ⟨update.between server, [update.addition], _⟩, ?_,
    step_step_start (update.between_mem_stages server)⟩
  unfold Interleaves
  rw [update.changes_edit]
  exact @Trace.Run.of_exec _ _ (act D env msg client) _ _ _ rfl

theorem atomic_iff_between :
    Atomic D env msg client update server ↔
      decisionOf D env msg client (update.between server) = decisionOf D env msg client server ∨
        decisionOf D env msg client (update.between server)
          = decisionOf D env msg client (update.after server) := by
  constructor
  · intro h
    obtain ⟨turns, s, hrun, hpc⟩ := @interleaves_between D env msg client update server
    exact h turns s _ hrun hpc
  · intro hbetween turns s decision hrun hpc
    have hrequest := (sees_of_interleaves hrun).request
    rw [hpc] at hrequest
    obtain ⟨z, hz, rfl⟩ := hrequest
    rcases Update.mem_stages.1 hz with rfl | rfl | rfl
    · exact Or.inl rfl
    · exact hbetween
    · exact Or.inr rfl

end Turns

/-! ## The missing entry -/

/-- The rules that a request to update one names. -/
def names (req : UpdateAclRequest) (rule : AclRule) : Bool :=
  rule.ipRange == req.originalIpRange && rule.priority == req.originalPriority

/-- The rules while the ones that a request names are missing. -/
def rulesWithout (am : AuthManager) (req : UpdateAclRequest) : List AclRule :=
  am.aclRules.filter (fun rule => !names req rule)

/-- The rules with the new one among them, by descending priority. -/
def rulesWith (am : AuthManager) (req : UpdateAclRequest) : List AclRule :=
  (rulesWithout am req ++ [req.rule]).insertionSort
    (fun a b => b.priority.toNat ≤ a.priority.toNat)

/-- The first rule that holds the address of a client allows it, or there is none. -/
def Admits (rules : List AclRule) (client : SocketAddr) : Prop :=
  ∀ rule, rules.find? (AuthManager.ipInRange client.ip.toString ·.ipRange) = some rule →
    rule.action = .allow

/-- The password for those who have none of their own. -/
def builtIn (server : TurnServer) : Option String :=
  if server.password.isEmpty then none else some server.password

/-- The password of a user by the entry in the table, which counts until it expires. -/
def passwordBy (env : Env) (server : TurnServer) : Option User → Option String
  | none => builtIn server
  | some user =>
    if ∀ t ∈ user.expiresAt, asSecs env.systemTime ≤ t then some user.password else builtIn server

section Missing

variable (D : Digests) (env : Env) (msg : Message) (client : SocketAddr) (server : TurnServer)
  (am : AuthManager)

/-- A request that gets as far as the users, and names one. -/
structure Asks (username : String) : Prop where
  enabled : server.authDisabled = false
  rules : Admits am.aclRules client
  nonce : ∃ nonceAttr entry, msg.getAttribute Attribute.nonce = some nonceAttr ∧
    server.nonceMap.lookup (fromUtf8Lossy nonceAttr.value) = some entry ∧
    asSecs (env.now - entry.createdAt) ≤ 600
  username : ∃ usernameAttr, msg.getAttribute Attribute.username = some usernameAttr ∧
    fromUtf8Lossy usernameAttr.value = username

/-- The request carries the digest that the password gives. -/
def Signed (username password : String) : Prop :=
  ∃ integrityAttr, msg.getAttribute Attribute.messageIntegrity = some integrityAttr ∧
    integrityAttr.value.take 20 = expectedIntegrity D server msg username password

/-- To the request it is the same which of two passwords a user has: either there is none in both
    cases, or it is signed with both or with neither. -/
structure Indifferent (username : String) (p q : Option String) : Prop where
  known : p = none ↔ q = none
  signed : (∃ password ∈ p, Signed D msg server username password) ↔
    ∃ password ∈ q, Signed D msg server username password

/-- A request does not notice that the entry is missing. For a user: it is decided before the users
    are read, or names somebody else, or the built-in password is to it the same as the old one or
    as the new one. For a rule: authentication is off, or the client is admitted without the rule as
    with the old one or as with the new one. -/
def Unnoticed : Update → Prop
  | .user req => Asks env msg client server am req.username →
    Indifferent D msg server req.username (builtIn server)
        (passwordBy env server (am.users.lookup req.username)) ∨
      Indifferent D msg server req.username (builtIn server)
        (passwordBy env server (some ⟨req.username, req.password.getD "", req.expiresAt⟩))
  | .acl req => server.authDisabled = false →
    (Admits (rulesWithout am req) client ↔ Admits am.aclRules client) ∨
      (Admits (rulesWithout am req) client ↔ Admits (rulesWith am req) client)

variable {D env msg client server am}

/-! ### A user -/

theorem getPasswordForUser_eq (ham : server.authManager = some am) (username : String) :
    server.getPasswordForUser env username
      = passwordBy env server (am.users.lookup username) := by
  unfold TurnServer.getPasswordForUser AuthManager.getUserPassword passwordBy builtIn
  rw [ham, Option.bind_some]
  cases am.users.lookup username with
  | none => rfl
  | some user =>
      dsimp only
      cases hexpires : user.expiresAt with
      | none => simp
      | some t =>
          by_cases hlate : asSecs env.systemTime > t
          · simp [hlate, not_le.2 hlate]
          · simp [hlate, not_lt.1 hlate]

theorem aclAdmits_iff (ham : server.authManager = some am) :
    server.aclAdmits client = true ↔ Admits am.aclRules client := by
  unfold TurnServer.aclAdmits AuthManager.checkAcl Admits
  rw [ham]
  dsimp only
  cases am.aclRules.find? (AuthManager.ipInRange client.ip.toString ·.ipRange) <;> simp

/-- The requests that get as far as the users. -/
theorem asks_iff (ham : server.authManager = some am) (username : String) :
    Asks env msg client server am username ↔
      decidedAtOnce msg server = none ∧ readRules env msg client server = .ok username := by
  unfold decidedAtOnce readRules
  constructor
  · intro h
    obtain ⟨nonceAttr, entry, hnonce, hentry, hage⟩ := h.nonce
    obtain ⟨usernameAttr, husername, rfl⟩ := h.username
    rw [if_neg (by simp [h.enabled]), (aclAdmits_iff ham).2 h.rules, hnonce, husername]
    simp [hentry, not_lt.2 hage]
  · rintro ⟨honce, hrules⟩
    have henabled : server.authDisabled = false := by
      cases hdisabled : server.authDisabled with
      | false => rfl
      | true =>
          rw [if_pos hdisabled] at honce
          split at honce <;> simp at honce
    split at hrules
    · simp at hrules
    · rename_i hacl
      split at hrules
      · rename_i nonceAttr usernameAttr hnonce husername
        split at hrules
        · simp at hrules
        · rename_i entry hentry
          split at hrules
          · simp at hrules
          · rename_i hage
            exact ⟨henabled, (aclAdmits_iff ham).1 (by simpa using hacl),
              ⟨nonceAttr, entry, hnonce, hentry, not_lt.1 hage⟩,
              ⟨usernameAttr, husername, Except.ok.inj hrules⟩⟩
      · simp at hrules

/-- A digest that is too short is the right one for no password. -/
theorem verify_of_short (D : Digests) (server : TurnServer) {attr : Attribute}
    (hattr : msg.getAttribute Attribute.messageIntegrity = some attr)
    (hshort : attr.value.length < 20) (username password : String) :
    verifyMessageIntegrity D msg (computeMessageIntegrityKey D username server.realm password)
        = .error .sliceOutOfRange ∧ ¬ Signed D msg server username password := by
  rcases verifyMessageIntegrity_cases D msg
      (computeMessageIntegrityKey D username server.realm password) with
    ⟨hnone, -⟩ | ⟨attr', hattr', ⟨-, hverify⟩ | ⟨hlong, -⟩⟩
  · exact absurd (hattr.symm.trans hnone) (by simp)
  · refine ⟨hverify, ?_⟩
    rintro ⟨attr'', hattr'', htake⟩
    obtain rfl := Option.some.inj (hattr.symm.trans hattr'')
    have hdigest : (expectedIntegrity D server msg username password).length = 20 :=
      (D.hmacSha1 _ _).property
    rw [← htake, List.length_take] at hdigest
    omega
  · obtain rfl := Option.some.inj (hattr.symm.trans hattr')
    omega

theorem verify_of_long (D : Digests) (server : TurnServer)
    (hlong : ∀ attr, msg.getAttribute Attribute.messageIntegrity = some attr →
      20 ≤ attr.value.length) (username password : String) :
    ∃ valid, verifyMessageIntegrity D msg
        (computeMessageIntegrityKey D username server.realm password) = .ok valid ∧
      (valid = true ↔ Signed D msg server username password) := by
  rcases verifyMessageIntegrity_cases D msg
      (computeMessageIntegrityKey D username server.realm password) with
    ⟨hnone, hverify⟩ | ⟨attr, hattr, ⟨hshort, -⟩ | ⟨-, hverify⟩⟩
  · exact ⟨false, hverify, by simp [Signed, hnone]⟩
  · have := hlong attr hattr
    omega
  · refine ⟨_, hverify, ?_⟩
    unfold Signed expectedIntegrity
    rw [hattr, beq_iff_eq]
    simp [eq_comm]

/-- With a password the verdict is a panic, a login, or that the digest is wrong. -/
theorem verdict_some_cases (D : Digests) (msg : Message) (server : TurnServer)
    (username password : String) :
    (∃ f, verdict D msg server username (some password) = .error f) ∨
      verdict D msg server username (some password) = .ok (.ok username) ∨
      verdict D msg server username (some password)
        = .ok (.error (.unauthorized (some "Bad integrity"))) := by
  unfold verdict
  dsimp only
  cases verifyMessageIntegrity D msg
      (computeMessageIntegrityKey D username server.realm password) with
  | error f => exact Or.inl ⟨f, rfl⟩
  | ok valid =>
      cases valid with
      | true => exact Or.inr (Or.inl rfl)
      | false => exact Or.inr (Or.inr rfl)

theorem verdict_ne_unknown (username password : String) :
    verdict D msg server username (some password) ≠ verdict D msg server username none := by
  rcases verdict_some_cases D msg server username password with ⟨f, h⟩ | h | h
  all_goals
    rw [h]
    simp [verdict]

theorem verdict_some_eq_iff (username p q : String) :
    verdict D msg server username (some p) = verdict D msg server username (some q) ↔
      (Signed D msg server username p ↔ Signed D msg server username q) := by
  unfold verdict
  dsimp only
  by_cases hshort : ∃ attr, msg.getAttribute Attribute.messageIntegrity = some attr ∧
      attr.value.length < 20
  · obtain ⟨attr, hattr, hshort⟩ := hshort
    obtain ⟨hp, hnotp⟩ := verify_of_short D server hattr hshort username p
    obtain ⟨hq, hnotq⟩ := verify_of_short D server hattr hshort username q
    rw [hp, hq]
    simp [hnotp, hnotq]
  · push Not at hshort
    obtain ⟨valid, hp, hsignedp⟩ := verify_of_long D server hshort username p
    obtain ⟨valid', hq, hsignedq⟩ := verify_of_long D server hshort username q
    rw [hp, hq, ← hsignedp, ← hsignedq]
    cases valid <;> cases valid' <;> simp [Rust.ok_bind]

/-- Two passwords give the same verdict exactly if it is the same to the request which of them the
    user has. -/
theorem verdict_eq_iff (username : String) (p q : Option String) :
    verdict D msg server username p = verdict D msg server username q ↔
      Indifferent D msg server username p q := by
  cases p with
  | none =>
      cases q with
      | none => exact ⟨fun _ => ⟨Iff.rfl, Iff.rfl⟩, fun _ => rfl⟩
      | some q =>
          exact ⟨fun h => absurd h.symm (verdict_ne_unknown username q),
            fun h => absurd (h.known.1 rfl) (by simp)⟩
  | some p =>
      cases q with
      | none =>
          exact ⟨fun h => absurd h (verdict_ne_unknown username p),
            fun h => absurd (h.known.2 rfl) (by simp)⟩
      | some q =>
          rw [verdict_some_eq_iff]
          exact ⟨fun h => ⟨by simp, by simpa using h⟩, fun h => by simpa using h.signed⟩

theorem decisionOf_of_asks (ham : server.authManager = some am) {req : UpdateUserRequest}
    (hasks : Asks env msg client server am req.username) {x : TurnServer}
    (hx : x ∈ (Update.user req).stages server) :
    decisionOf D env msg client x
      = verdict D msg x req.username (x.getPasswordForUser env req.username) := by
  obtain ⟨honce, hname⟩ := (asks_iff ham req.username).1 hasks
  exact decisionOf_of_readRules ((decidedAtOnce_stages hx).trans honce)
    ((readRules_stages hx).trans hname)

/-- Who does not come to the users, or names another, does not notice that one is missing. -/
theorem decisionOf_between_of_not_asks (ham : server.authManager = some am)
    {req : UpdateUserRequest} (hasks : ¬ Asks env msg client server am req.username) :
    decisionOf D env msg client ((Update.user req).between server)
      = decisionOf D env msg client server := by
  have hmem := Update.between_mem_stages (.user req) server
  unfold decisionOf
  rw [decidedAtOnce_stages hmem, readRules_stages hmem]
  cases honce : decidedAtOnce msg server with
  | some decision => rfl
  | none =>
      cases hrules : readRules env msg client server with
      | error decision => rfl
      | ok username =>
          have hne : username ≠ req.username := by
            rintro rfl
            exact hasks ((asks_iff ham _).2 ⟨honce, hrules⟩)
          have hpassword : ((Update.user req).between server).getPasswordForUser env username
              = server.getPasswordForUser env username := by
            rw [getPasswordForUser_eq ham,
              getPasswordForUser_eq ((Update.user req).between_authManager ham)]
            exact congrArg _ (AList.lookup_erase_ne hne)
          dsimp only
          rw [readUsers, hpassword]
          rfl

theorem atomic_user_iff (ham : server.authManager = some am) (req : UpdateUserRequest) :
    Atomic D env msg client (.user req) server ↔
      Unnoticed D env msg client server am (.user req) := by
  rw [atomic_iff_between]
  by_cases hasks : Asks env msg client server am req.username
  · have hold : decisionOf D env msg client server = verdict D msg server req.username
        (passwordBy env server (am.users.lookup req.username)) := by
      rw [decisionOf_of_asks ham hasks (Update.self_mem_stages _ _), getPasswordForUser_eq ham]
    have hmissing : decisionOf D env msg client ((Update.user req).between server)
        = verdict D msg server req.username (builtIn server) := by
      rw [decisionOf_of_asks ham hasks (Update.between_mem_stages _ _),
        getPasswordForUser_eq ((Update.user req).between_authManager ham)]
      exact congrArg _ (congrArg _ (AList.lookup_erase _ _))
    have hnew : decisionOf D env msg client ((Update.user req).after server)
        = verdict D msg server req.username
          (passwordBy env server (some ⟨req.username, req.password.getD "", req.expiresAt⟩)) := by
      rw [decisionOf_of_asks ham hasks (Update.after_mem_stages _ _),
        getPasswordForUser_eq ((Update.user req).after_authManager ham)]
      exact congrArg _ (congrArg _ (AList.lookup_insert _))
    rw [hmissing, hold, hnew, verdict_eq_iff, verdict_eq_iff]
    exact ⟨fun h _ => h, fun h => h hasks⟩
  · exact ⟨fun _ h => absurd h hasks,
      fun _ => Or.inl (decisionOf_between_of_not_asks ham hasks)⟩

/-! ### A rule -/

theorem readRules_eq_forbidden_iff (env : Env) (msg : Message) :
    readRules env msg client server = .error (.ok (.error .forbidden)) ↔
      server.aclAdmits client = false := by
  unfold readRules
  cases server.aclAdmits client with
  | false => simp
  | true =>
      rw [if_neg (by simp)]
      refine iff_of_false ?_ (by simp)
      split
      · split
        · simp
        · split <;> simp
      · simp

theorem verdict_ne_forbidden (username : String) (p : Option String) :
    verdict D msg server username p ≠ .ok (.error .forbidden) := by
  cases p with
  | none => simp [verdict]
  | some password =>
      rcases verdict_some_cases D msg server username password with ⟨f, h⟩ | h | h
      all_goals
        rw [h]
        simp

theorem decidedAtOnce_eq_none (henabled : server.authDisabled = false) :
    decidedAtOnce msg server = none := by
  rw [decidedAtOnce, if_neg (by simp [henabled])]

/-- Only the rules forbid a request. -/
theorem decisionOf_eq_forbidden_iff (D : Digests) (env : Env) (msg : Message) (client : SocketAddr)
    (henabled : server.authDisabled = false) :
    decisionOf D env msg client server = .ok (.error .forbidden) ↔
      server.aclAdmits client = false := by
  rw [← readRules_eq_forbidden_iff env msg, decisionOf, decidedAtOnce_eq_none henabled]
  cases readRules env msg client server with
  | error decision => simp
  | ok username => exact iff_of_false (verdict_ne_forbidden username _) (by simp)

/-- The stages of an update of a rule decide alike exactly if their rules do. -/
theorem decisionOf_eq_iff_aclAdmits (henabled : server.authDisabled = false)
    {req : UpdateAclRequest} {x : TurnServer} (hx : x ∈ (Update.acl req).stages server)
    {y : TurnServer} (hy : y ∈ (Update.acl req).stages server) :
    decisionOf D env msg client x = decisionOf D env msg client y ↔
      (x.aclAdmits client = true ↔ y.aclAdmits client = true) := by
  have hstage : ∀ z ∈ (Update.acl req).stages server,
      z.authDisabled = false ∧ z.nonceMap = server.nonceMap := by
    intro z hz
    rcases Update.mem_stages.1 hz with rfl | rfl | rfl <;> exact ⟨henabled, rfl⟩
  rw [← Bool.eq_iff_iff]
  constructor
  · intro h
    have hforbidden := decisionOf_eq_forbidden_iff D env msg client (hstage x hx).1
    rw [h, decisionOf_eq_forbidden_iff D env msg client (hstage y hy).1] at hforbidden
    rw [Bool.eq_iff_iff, ← not_iff_not, Bool.not_eq_true, Bool.not_eq_true]
    exact hforbidden.symm
  · intro hacl
    have hrules : readRules env msg client x = readRules env msg client y := by
      unfold readRules
      rw [hacl, (hstage x hx).2, (hstage y hy).2]
    unfold decisionOf
    rw [decidedAtOnce_stages hx, decidedAtOnce_stages hy, hrules]
    cases decidedAtOnce msg server with
    | some decision => rfl
    | none =>
        cases readRules env msg client y with
        | error decision => rfl
        | ok username =>
            exact (readUsers_stages hx username).trans (readUsers_stages hy username).symm

theorem atomic_acl_iff (ham : server.authManager = some am) (req : UpdateAclRequest) :
    Atomic D env msg client (.acl req) server ↔
      Unnoticed D env msg client server am (.acl req) := by
  have hbetween := Update.between_mem_stages (.acl req) server
  rw [atomic_iff_between]
  cases henabled : server.authDisabled with
  | true =>
      refine iff_of_true (Or.inl ?_) (fun h => absurd (henabled.symm.trans h) (by simp))
      unfold decisionOf
      rw [decidedAtOnce_stages hbetween, decidedAtOnce, if_pos henabled]
      cases msg.getAttribute Attribute.username <;> rfl
  | false =>
      rw [decisionOf_eq_iff_aclAdmits henabled hbetween (Update.self_mem_stages _ _),
        decisionOf_eq_iff_aclAdmits henabled hbetween (Update.after_mem_stages _ _),
        aclAdmits_iff ham, aclAdmits_iff ((Update.acl req).between_authManager ham),
        aclAdmits_iff ((Update.acl req).after_authManager ham)]
      exact ⟨fun h _ => h, fun h => h henabled⟩

end Missing

/-! ## The rules after an update -/

/-- After the update there are the rules from before, but for one that was named, and the new
    one. -/
def ReplacesOne (am : AuthManager) (req : UpdateAclRequest) : Prop :=
  ((AdminEdit.updateAcl req).changes.foldl AuthChange.apply am).aclRules.Perm
    (req.rule :: am.aclRules.eraseP (names req))

/-- Filtering takes no more away than erasing does exactly if there is at most one to take away. -/
theorem filter_perm_eraseP_iff {α : Type} (p : α → Bool) (l : List α) :
    (l.filter (fun a => !p a)).Perm (l.eraseP p) ↔ l.countP p ≤ 1 := by
  constructor
  · intro h
    have hlength := h.length_eq
    have hparts : l.length = l.countP p + l.countP (fun a => !p a) := by
      rw [l.length_eq_countP_add_countP p]
      simp
    have herase : l.length - 1 ≤ (l.eraseP p).length := by
      rw [List.length_eraseP]
      split <;> omega
    rw [← List.countP_eq_length_filter] at hlength
    omega
  · intro hcount
    suffices heq : l.filter (fun a => !p a) = l.eraseP p by rw [heq]
    induction l with
    | nil => rfl
    | cons a l ih =>
        cases ha : p a with
        | false =>
            rw [List.filter_cons_of_pos (by simp [ha]), List.eraseP_cons_of_neg (by simp [ha]), ih]
            rwa [List.countP_cons_of_neg (by simp [ha])] at hcount
        | true =>
            rw [List.filter_cons_of_neg (by simp [ha]), List.eraseP_cons_of_pos ha]
            rw [List.countP_cons_of_pos ha] at hcount
            have hnone : l.countP p = 0 := by omega
            refine List.filter_eq_self.2 fun b hb => ?_
            simpa using List.countP_eq_zero.1 hnone b hb

theorem replacesOne_iff (am : AuthManager) (req : UpdateAclRequest) :
    ReplacesOne am req ↔ am.aclRules.countP (names req) ≤ 1 := by
  have hrules : ((AdminEdit.updateAcl req).changes.foldl AuthChange.apply am).aclRules.Perm
      (req.rule :: am.aclRules.filter (fun rule => !names req rule)) :=
    (List.perm_insertionSort _ _).trans (List.perm_append_singleton _ _)
  unfold ReplacesOne
  rw [← filter_perm_eraseP_iff, hrules.congr_left, List.perm_cons]

/-- When updates are atomic. A request is decided as before the update or as after it, whenever it
    comes, exactly if it does not notice that the entry is missing; and the update of a rule
    replaces one rule exactly if not more than one has the range and the priority it names. -/
theorem update_atomic_iff (D : Digests) (env : Env) (msg : Message) (client : SocketAddr)
    (update : Update) {server : TurnServer} {am : AuthManager}
    (ham : server.authManager = some am) :
    (Atomic D env msg client update server ↔ Unnoticed D env msg client server am update) ∧
    (∀ req, update = .acl req →
      (ReplacesOne am req ↔ am.aclRules.countP (names req) ≤ 1)) := by
  refine ⟨?_, fun req _ => replacesOne_iff am req⟩
  cases update with
  | user req => exact atomic_user_iff ham req
  | acl req => exact atomic_acl_iff ham req

/-! ## Two updates -/

/-- A server that has given out its nonce. -/
def challengedServer (am : AuthManager) : TurnServer :=
  (create401Response (sampleEnv 0) (sampleServer false (some am)) (sampleRequest .allocate [])
    none).1

/-- `alice` gets a new password. -/
def newPassword : UpdateUserRequest :=
  ⟨"alice", some "qwerty", "fixed", none, none, none, none, none⟩

/-- The rule that keeps the sample client out. -/
def sampleDeny : AclRule := ⟨"198.51.100.0/24", .deny, 10⟩

/-- It gets another priority. -/
def newPriority : UpdateAclRequest := ⟨"198.51.100.0/24", 10, "198.51.100.0/24", "Deny", 20⟩

/-- The old password is refused during the change of the password as it is after it, and the
    priority of a rule that is there once is changed. -/
theorem update_atomic_iff_oldPassword :
    Atomic sampleDigests (sampleEnv 1) (sampleLogin .allocate "secret" []) sampleClient
        (.user newPassword) (challengedServer sampleUsers) ∧
      ReplacesOne (sampleUsers.addAclRule sampleDeny) newPriority := by
  refine ⟨(update_atomic_iff _ _ _ _ _ (show _ = some sampleUsers from rfl)).1.2 fun _ => Or.inr ?_,
    ((update_atomic_iff sampleDigests (sampleEnv 1) (sampleLogin .allocate "secret" [])
      sampleClient (.acl newPriority)
      (show (challengedServer (sampleUsers.addAclRule sampleDeny)).authManager = some _ from
        rfl)).2 newPriority rfl).2 (by decide +kernel)⟩
  exact (verdict_eq_iff "alice" _ _).1 (by decide +kernel)

/-- While the password is changed, `alice` is let in with the built-in one, which is neither the old
    nor the new; while the rule is changed, the client it denies is let in; and an update of one of
    two rules with the same range and priority removes both. -/
theorem update_not_atomic :
    decisionOf sampleDigests (sampleEnv 1) (sampleLogin .allocate "password" []) sampleClient
        (challengedServer sampleUsers) = .ok (.error (.unauthorized (some "Bad integrity"))) ∧
      decisionOf sampleDigests (sampleEnv 1) (sampleLogin .allocate "password" []) sampleClient
        ((Update.user newPassword).after (challengedServer sampleUsers))
        = .ok (.error (.unauthorized (some "Bad integrity"))) ∧
      (∃ turns s, Interleaves sampleDigests (sampleEnv 1) (sampleLogin .allocate "password" [])
        sampleClient (.user newPassword) (challengedServer sampleUsers) turns s ∧
        s.pc = .decided (.ok (.ok "alice"))) ∧
      ¬ Atomic sampleDigests (sampleEnv 1) (sampleLogin .allocate "secret" []) sampleClient
        (.acl newPriority) (challengedServer (sampleUsers.addAclRule sampleDeny)) ∧
      ¬ ReplacesOne ⟨∅, [⟨"10.0.0.0/8", .allow, 5⟩, ⟨"10.0.0.0/8", .deny, 5⟩]⟩
        ⟨"10.0.0.0/8", 5, "10.0.0.0/8", "Deny", 7⟩ := by
  refine ⟨by decide +kernel, by decide +kernel, ?_, ?_, ?_⟩
  · have hbetween : decisionOf sampleDigests (sampleEnv 1) (sampleLogin .allocate "password" [])
        sampleClient ((Update.user newPassword).between (challengedServer sampleUsers))
        = .ok (.ok "alice") := by decide +kernel
    rw [← hbetween]
    exact interleaves_between
  · rw [atomic_iff_between]
    decide +kernel
  · rw [replacesOne_iff]
    decide +kernel

end AdminUpdates

end Miuturn
