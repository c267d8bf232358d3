import Miuturn.Config

set_option autoImplicit false

/-! # The admin server (`health.rs`)

The routes of `create_admin_routes` but for the two of the TURN REST API, which are in
`RestCredentials.lean`. A request is taken as axum hands it to the handlers: the address it came
from, the two proxy headers, the cookies and the form or body of its route; a request whose form or
body axum cannot read reaches no handler. An outcome is the accounts after the request, the cookie
the answer sets, the answer, and whether `save_config` runs.

A handler is one step here. `check_auth` reads nothing that a handler writes, and the operations of
the shared `AuthManager` are the same in whichever task they run. -/

open RustStd

namespace Miuturn

structure AdminState where
  adminUsername : Option String
  adminPassword : Option String
  deriving DecidableEq

/-- `AppState`, as far as these routes read it; `metrics` says whether there is a registry. -/
structure AppState where
  admin : AdminState
  realm : String
  metrics : Bool
  configPath : Option String
  adminAcl : List String
  trustProxy : Bool
  deriving DecidableEq

/-- What `main` starts the admin server with. -/
def HttpConfig.appState (http : HttpConfig) (realm configPath : String) : AppState where
  admin := ⟨http.adminUsername, http.adminPassword⟩
  realm := realm
  metrics := true
  configPath := some configPath
  adminAcl := http.adminAcl
  trustProxy := http.trustProxy.getD false

/-! ## Requests -/

structure LoginForm where
  username : String
  password : String
  deriving DecidableEq

structure AddUserRequest where
  username : String
  password : String
  userType : String
  maxAllocations : Option UInt32
  expiresAt : Option ℕ
  bandwidthLimit : Option ℕ
  ipWhitelist : Option (List String)
  maxAllocationDurationSecs : Option UInt32
  deriving DecidableEq

structure UpdateUserRequest where
  username : String
  password : Option String
  userType : String
  maxAllocations : Option UInt32
  expiresAt : Option ℕ
  bandwidthLimit : Option ℕ
  ipWhitelist : Option (List String)
  maxAllocationDurationSecs : Option UInt32
  deriving DecidableEq

structure AddAclRequest where
  ipRange : String
  action : String
  priority : UInt32
  deriving DecidableEq

structure UpdateAclRequest where
  originalIpRange : String
  originalPriority : UInt32
  ipRange : String
  action : String
  priority : UInt32
  deriving DecidableEq

/-- The requests that change users or rules; those that delete have query parameters, which may be
    missing. -/
inductive AdminEdit where
  | addUser (req : AddUserRequest)
  | deleteUser (username : Option String)
  | updateUser (req : UpdateUserRequest)
  | addAcl (req : AddAclRequest)
  | deleteAcl (ipRange priority : Option String)
  | updateAcl (req : UpdateAclRequest)

/-- The routes. -/
inductive AdminAction where
  | health
  | root
  | console
  | dashboard
  | login (form : LoginForm)
  | apiLogin (form : LoginForm)
  | logout
  | stats
  | reload
  | metrics
  | edit (e : AdminEdit)

/-- The routes without the check of the address. -/
def AdminAction.isPublic : AdminAction → Bool
  | .health => true
  | _ => false

structure HttpRequest where
  addr : SocketAddr
  /-- `X-Forwarded-For` and `X-Real-IP`, where they are text. -/
  forwardedFor : Option String
  realIp : Option String
  cookies : List (String × String)
  action : AdminAction

/-! ## Answers -/

/-- What `/api/stats` tells of a user. -/
structure UserSummary where
  username : String
  userType : UserType
  maxAllocations : ℕ
  expiresAt : Option ℕ
  bandwidthLimit : Option ℕ
  maxAllocationDurationSecs : Option UInt32
  ipWhitelist : Option (List String)
  deriving DecidableEq

def Account.summary (a : Account) : UserSummary :=
  ⟨a.username, a.userType, a.maxAllocations, a.expiresAt, a.bandwidthLimit,
    a.maxAllocationDurationSecs, a.ipWhitelist⟩

inductive Page where
  | login
  | admin
  | redirecting
  deriving DecidableEq

/-- The part of a request that the answer to an edit repeats. -/
inductive EditEcho where
  | nothing
  | user (username userType : String) (maxAllocations : UInt32)
  | rule (ipRange action : String) (priority : UInt32)
  deriving DecidableEq

inductive AdminAnswer where
  /-- Status 403. -/
  | forbidden (text : String)
  /-- `success: false` with the error. -/
  | failure (error : String)
  | redirect (location : String)
  | page (page : Page)
  | token (token : String)
  | health (snapshot : ServerStats)
  | stats (realm : String) (snapshot : ServerStats) (users : List UserSummary)
      (aclRules : List AclRule)
  | reloaded (message : String) (totalAllocations : ℕ) (activeAllocations : ℤ)
  /-- The text of the metrics registry. -/
  | registry
  /-- The text made of the counters. -/
  | counters (snapshot : ServerStats)
  | edited (message : String) (echo : EditEcho)
  deriving DecidableEq

structure AdminOutcome where
  accounts : Accounts
  setCookie : Option (String × String)
  answer : AdminAnswer
  saves : Bool
  deriving DecidableEq

/-- An answer, and nothing else. -/
def AdminOutcome.reply (s : Accounts) (answer : AdminAnswer) : AdminOutcome :=
  ⟨s, none, answer, false⟩

/-! ## Who is let in -/

def sessionCookie : String := "admin_session"

def sessionValue : String := "authenticated"

/-- `jar.get(name)`: of two cookies with one name the jar keeps the later. -/
def cookieValue (cookies : List (String × String)) (name : String) : Option String :=
  (cookies.reverse.find? (fun c => c.1 == name)).map Prod.snd

/-- `check_auth`. -/
def checkAuth (cookies : List (String × String)) (admin : AdminState) : Bool :=
  match admin.adminUsername with
  | none => true
  | some _ => cookieValue cookies sessionCookie == some sessionValue

/-- `s.trim()`, of a header value: those have no white space but blanks and tabs. -/
def trim (s : List Char) : String :=
  let blank := fun c : Char => c == ' ' || c == '\t'
  String.ofList ((s.dropWhile blank).reverse.dropWhile blank).reverse

/-- The address that `admin_acl_middleware` checks. -/
def clientIp (state : AppState) (req : HttpRequest) : String :=
  if state.trustProxy then
    match req.forwardedFor with
    | some s => trim (s.toList.takeWhile (fun c => c != ','))
    | none =>
      match req.realIp with
      | some s => trim s.toList
      | none => req.addr.ip.toString
  else req.addr.ip.toString

/-- The test of `admin_acl_middleware`. -/
def adminAllowed (state : AppState) (req : HttpRequest) : Bool :=
  state.adminAcl.isEmpty ||
    state.adminAcl.any (fun range => AuthManager.ipInRange (clientIp state req) range)

/-! ## Edits -/

/-- The action a request names, as the ACL handlers read it. -/
def AclAction.ofRequest (action : String) : AclAction := if action = "Allow" then .allow else .deny

def AddUserRequest.account (now : ℕ) (req : AddUserRequest) : Account where
  username := req.username
  password := req.password
  expiresAt := req.expiresAt
  userType := .ofText req.userType
  createdAt := now
  maxAllocations := (req.maxAllocations.getD 10).toNat
  bandwidthLimit := req.bandwidthLimit
  ipWhitelist := req.ipWhitelist
  maxAllocationDurationSecs := req.maxAllocationDurationSecs

/-- The user `update_user_handler` adds: without a password in the request it has the empty one. -/
def UpdateUserRequest.account (now : ℕ) (req : UpdateUserRequest) : Account where
  username := req.username
  password := req.password.getD ""
  expiresAt := req.expiresAt
  userType := .ofText req.userType
  createdAt := now
  maxAllocations := (req.maxAllocations.getD 10).toNat
  bandwidthLimit := req.bandwidthLimit
  ipWhitelist := req.ipWhitelist
  maxAllocationDurationSecs := req.maxAllocationDurationSecs

def AddAclRequest.rule (req : AddAclRequest) : AclRule :=
  ⟨req.ipRange, .ofRequest req.action, req.priority⟩

def UpdateAclRequest.rule (req : UpdateAclRequest) : AclRule :=
  ⟨req.ipRange, .ofRequest req.action, req.priority⟩

/-- The priority of `delete_acl_handler`: zero when it is missing or not a `u32`. -/
def deletedPriority (priority : Option String) : UInt32 :=
  UInt32.ofNat ((priority.bind (fun s => parseUnsigned 4294967295 s.toList)).getD 0)

/-- What an edit does to the accounts, at `now` seconds since the epoch. -/
def AdminEdit.apply (now : ℕ) (s : Accounts) : AdminEdit → Accounts
  | .addUser req => s.addUser (req.account now)
  | .deleteUser username => s.removeUser (username.getD "")
  | .updateUser req => (s.removeUser req.username).addUser (req.account now)
  | .addAcl req => s.addAclRule req.rule
  | .deleteAcl ipRange priority => s.removeAclRule (ipRange.getD "") (deletedPriority priority)
  | .updateAcl req => (s.removeAclRule req.originalIpRange req.originalPriority).addAclRule req.rule

/-- The answer to an edit. -/
def AdminEdit.answer : AdminEdit → AdminAnswer
  | .addUser req =>
    .edited "User added" (.user req.username req.userType (req.maxAllocations.getD 10))
  | .deleteUser _ => .edited "User deleted" .nothing
  | .updateUser req =>
    .edited "User updated" (.user req.username req.userType (req.maxAllocations.getD 10))
  | .addAcl req => .edited "ACL rule added" (.rule req.ipRange req.action req.priority)
  | .deleteAcl _ _ => .edited "ACL rule deleted" .nothing
  | .updateAcl req => .edited "ACL rule updated" (.rule req.ipRange req.action req.priority)

/-- The operations of the `AuthManager` that an edit calls. -/
def AdminEdit.changes : AdminEdit → List AuthChange
  | .addUser req => [.addUser (req.account 0).toUser]
  | .deleteUser username => [.removeUser (username.getD "")]
  | .updateUser req => [.removeUser req.username, .addUser (req.account 0).toUser]
  | .addAcl req => [.addAclRule req.rule]
  | .deleteAcl ipRange priority => [.removeAclRule (ipRange.getD "") (deletedPriority priority)]
  | .updateAcl req =>
    [.removeAclRule req.originalIpRange req.originalPriority, .addAclRule req.rule]

/-- On the TURN side an edit is a list of the changes a run of the server may contain. -/
theorem AdminEdit.manager_apply (now : ℕ) (s : Accounts) (e : AdminEdit) :
    (e.apply now s).manager = e.changes.foldl AuthChange.apply s.manager := by
  cases e with
  | addUser req => exact Accounts.manager_addUser s _
  | deleteUser username => exact Accounts.manager_removeUser s _
  | updateUser req =>
      simp [apply, changes, AuthChange.apply]
      rfl
  | addAcl req => rfl
  | deleteAcl ipRange priority => rfl
  | updateAcl req => rfl

/-! ## The handlers -/

section Handlers

variable (state : AppState) (now : ℕ) (snapshot : ServerStats) (s : Accounts) (req : HttpRequest)

/-- The handlers that start with `check_auth`. -/
def guarded (outcome : AdminOutcome) : AdminOutcome :=
  if checkAuth req.cookies state.admin then outcome else .reply s (.failure "Unauthorized")

/-- Does the form hold the configured name and password? -/
def AdminState.accepts (admin : AdminState) (form : LoginForm) : Bool :=
  match admin.adminUsername, admin.adminPassword with
  | some username, some password => form.username == username && form.password == password
  | _, _ => false

/-- The two login handlers: a right password sets the session cookie. -/
def openSession (form : LoginForm) (granted refused : AdminAnswer) : AdminOutcome :=
  if state.admin.accepts form then ⟨s, some (sessionCookie, sessionValue), granted, false⟩
  else .reply s refused

/-- `login_handler`. -/
def loginHandler (form : LoginForm) : AdminOutcome :=
  openSession state s form (.redirect "/console/dashboard") (.redirect "/console?error=1")

/-- `api_login_handler`. -/
def apiLoginHandler (form : LoginForm) : AdminOutcome :=
  openSession state s form (.token "admin-token") (.failure "Invalid credentials")

/-- `logout_handler`: the answer tells the client to drop the cookie. -/
def logoutHandler : AdminOutcome := ⟨s, some (sessionCookie, ""), .redirect "/console", false⟩

/-- `console_handler`. -/
def consoleHandler : AdminOutcome :=
  if checkAuth req.cookies state.admin then .reply s (.redirect "/console/dashboard")
  else if state.admin.adminUsername.isSome then .reply s (.page .login)
  else .reply s (.page .admin)

/-- `dashboard_handler`. -/
def dashboardHandler : AdminOutcome :=
  if checkAuth req.cookies state.admin then .reply s (.page .admin)
  else .reply s (.page .redirecting)

/-- `stats_json_handler`. -/
def statsJsonHandler : AdminOutcome :=
  guarded state s req (.reply s
    (.stats state.realm snapshot (s.listUsers.map Account.summary) s.aclRules))

/-- `reload_handler`, which reloads nothing. -/
def reloadHandler : AdminOutcome :=
  guarded state s req (.reply s (.reloaded "Configuration reloaded" snapshot.totalAllocations
    snapshot.activeAllocations))

/-- `prometheus_metrics_handler`. -/
def prometheusMetricsHandler : AdminOutcome :=
  if state.metrics then .reply s .registry else .reply s (.counters snapshot)

/-- The six handlers of `/api/v1/users` and `/api/v1/acl`. -/
def editHandler (e : AdminEdit) : AdminOutcome :=
  guarded state s req ⟨e.apply now s, none, e.answer, true⟩

/-- The handler of a route. -/
def route : AdminAction → AdminOutcome
  | .health => .reply s (.health snapshot)
  | .root => .reply s (.redirect "/console")
  | .console => consoleHandler state s req
  | .dashboard => dashboardHandler state s req
  | .login form => loginHandler state s form
  | .apiLogin form => apiLoginHandler state s form
  | .logout => logoutHandler s
  | .stats => statsJsonHandler state snapshot s req
  | .reload => reloadHandler state snapshot s req
  | .metrics => prometheusMetricsHandler state snapshot s
  | .edit e => editHandler state now s req e

/-- All routes but the public one are behind `admin_acl_middleware`. -/
def handle : AdminOutcome :=
  if req.action.isPublic || adminAllowed state req then route state now snapshot s req req.action
  else .reply s (.forbidden "Forbidden: admin access denied from this IP")

end Handlers

end Miuturn
