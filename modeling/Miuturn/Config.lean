import Miuturn.System

set_option autoImplicit false

/-! # Configuration and startup (`config.rs`, `main.rs`)

The configuration file as `Config::load` reads it, and what `main` makes of it: the server, and the
`AuthManager` with the users, the API-key users and the access rules, added in that order.

The TURN side reads only three fields of a user, so that `AuthManager` keeps no more. The admin side
writes whole users to the file and reads them back, and works on `Accounts`, the same manager with
users in full. `Accounts.manager` forgets the other fields, and every operation on accounts is the
operation of `AuthManager` under it.

What the `toml` crate does with a text is not modelled here: a configuration is what it has read. -/

open RustStd

namespace Miuturn

/-! ## Users in full -/

inductive UserType where
  | temporary
  | fixed
  | apiKey
  deriving DecidableEq

/-- The type that a text names; every text but two names a fixed user. -/
def UserType.ofText (text : String) : UserType :=
  if text = "temporary" then .temporary
  else if text = "api_key" then .apiKey
  else .fixed

/-- The text written for a type. -/
def UserType.text : UserType → String
  | .temporary => "temporary"
  | .fixed => "fixed"
  | .apiKey => "api_key"

theorem UserType.ofText_text (t : UserType) : ofText t.text = t := by
  cases t <;> decide

/-- `User`, with all its fields. -/
structure Account extends User where
  userType : UserType
  createdAt : ℕ
  maxAllocations : ℕ
  bandwidthLimit : Option ℕ
  ipWhitelist : Option (List String)
  maxAllocationDurationSecs : Option UInt32
  deriving DecidableEq

/-- The account without the time it was made. -/
def Account.undated (a : Account) : Account := { a with createdAt := 0 }

/-- The users in full and the access rules of an `AuthManager`. -/
structure Accounts where
  users : HashMap String Account
  aclRules : List AclRule
  deriving DecidableEq

namespace Accounts

/-- The manager that the TURN server shares. -/
def manager (s : Accounts) : AuthManager :=
  ⟨HashMap.mapValues Account.toUser s.users, s.aclRules⟩

/-- `AuthManager::new`. -/
def new : Accounts := ⟨∅, []⟩

/-- `AuthManager::add_user`. -/
def addUser (s : Accounts) (user : Account) : Accounts :=
  { s with users := s.users.insert user.username user }

/-- `AuthManager::remove_user`. -/
def removeUser (s : Accounts) (username : String) : Accounts :=
  { s with users := s.users.erase username }

/-- `AuthManager::add_acl_rule`. -/
def addAclRule (s : Accounts) (rule : AclRule) : Accounts :=
  { s with aclRules := (s.manager.addAclRule rule).aclRules }

/-- `AuthManager::remove_acl_rule`. -/
def removeAclRule (s : Accounts) (ipRange : String) (priority : UInt32) : Accounts :=
  { s with aclRules := (s.manager.removeAclRule ipRange priority).aclRules }

/-- `AuthManager::list_users`, in the map's order. -/
def listUsers (s : Accounts) : List Account := HashMap.values s.users

@[simp] theorem manager_addUser (s : Accounts) (user : Account) :
    (s.addUser user).manager = s.manager.addUser user.toUser := by
  simp [manager, addUser, AuthManager.addUser, HashMap.mapValues_insert]

@[simp] theorem manager_removeUser (s : Accounts) (username : String) :
    (s.removeUser username).manager = s.manager.removeUser username := by
  simp [manager, removeUser, AuthManager.removeUser, HashMap.mapValues_erase]

@[simp] theorem manager_addAclRule (s : Accounts) (rule : AclRule) :
    (s.addAclRule rule).manager = s.manager.addAclRule rule := rfl

@[simp] theorem manager_removeAclRule (s : Accounts) (ipRange : String) (priority : UInt32) :
    (s.removeAclRule ipRange priority).manager = s.manager.removeAclRule ipRange priority := rfl

end Accounts

/-! ## The configuration -/

structure ListenConfig where
  protocol : String
  address : String
  deriving DecidableEq

structure ServerConfig where
  realm : String
  externalIp : String
  relayBindIp : Option String
  startPort : UInt16
  endPort : UInt16
  listening : List ListenConfig
  maxConcurrentAllocations : Option ℕ
  maxBandwidthBytesPerSec : Option ℕ
  maxAllocationDurationSecs : Option UInt32
  statsDumpIntervalSecs : ℕ
  statsDumpSkipIfNoChange : Bool
  serverName : String
  stunEnabled : Bool
  turnEnabled : Bool
  deriving DecidableEq

structure HttpConfig where
  address : String
  turnRestEnabled : Option Bool
  turnRestSecret : Option String
  turnRestDefaultLifetime : Option ℕ
  adminUsername : Option String
  adminPassword : Option String
  adminAcl : List String
  trustProxy : Option Bool
  deriving DecidableEq

structure CertificateConfig where
  source : String
  certPath : Option String
  keyPath : Option String
  domains : List String
  email : Option String
  environment : Option String
  cacheDir : Option String
  http01Address : Option String
  renewBeforeDays : Option ℕ
  sdsAddress : Option String
  sdsApi : Option String
  sdsResourceName : Option String
  sdsNodeId : Option String
  sdsCluster : Option String
  sdsTimeoutSecs : Option ℕ
  deriving DecidableEq

structure LogConfig where
  logFile : Option String
  logLevel : String
  deriving DecidableEq

structure UserConfig where
  username : String
  password : String
  userType : String
  expiresAt : Option ℕ
  maxAllocations : Option ℕ
  bandwidthLimit : Option ℕ
  ipWhitelist : Option (List String)
  maxAllocationDurationSecs : Option UInt32
  deriving DecidableEq

structure AclRuleConfig where
  ipRange : String
  action : String
  priority : Option UInt32
  deriving DecidableEq

structure AuthConfig where
  users : List UserConfig
  apiKeys : HashMap String String
  aclRules : List AclRuleConfig
  deriving DecidableEq

structure Config where
  server : ServerConfig
  http : Option HttpConfig
  certificates : Option CertificateConfig
  auth : AuthConfig
  log : LogConfig
  deriving DecidableEq

/-- `LogConfig::default`. -/
def LogConfig.default : LogConfig := ⟨none, "info"⟩

/-- `ServerConfig::default_server_name`. -/
def ServerConfig.defaultServerName : String := "miuturn/0.1.4"

/-- `Config::default`. -/
def Config.default : Config where
  server :=
    { realm := "miuturn", externalIp := "0.0.0.0", relayBindIp := none, startPort := 49152,
      endPort := 65535, listening := [⟨"udp", "0.0.0.0:3478"⟩, ⟨"tcp", "0.0.0.0:3478"⟩],
      maxConcurrentAllocations := none, maxBandwidthBytesPerSec := none,
      maxAllocationDurationSecs := none, statsDumpIntervalSecs := 30,
      statsDumpSkipIfNoChange := true, serverName := ServerConfig.defaultServerName,
      stunEnabled := true, turnEnabled := true }
  http := none
  certificates := none
  auth := ⟨[], ∅, [⟨"0.0.0.0/0", "Allow", some 0⟩]⟩
  log := .default

/-! ## Startup -/

/-- The user `main` makes of an entry of `auth.users`, at `now` seconds since the epoch. -/
def UserConfig.account (now : ℕ) (u : UserConfig) : Account where
  username := u.username
  password := u.password
  expiresAt := u.expiresAt
  userType := .ofText u.userType
  createdAt := now
  maxAllocations := u.maxAllocations.getD 10
  bandwidthLimit := u.bandwidthLimit
  ipWhitelist := u.ipWhitelist
  maxAllocationDurationSecs := u.maxAllocationDurationSecs

/-- The user `main` makes of a value of `auth.api_keys`. -/
def apiKeyAccount (username : String) : Account where
  username := username
  password := ""
  expiresAt := none
  userType := .apiKey
  createdAt := 0
  maxAllocations := 100
  bandwidthLimit := none
  ipWhitelist := none
  maxAllocationDurationSecs := none

/-- `s.eq_ignore_ascii_case(t)`. -/
def eqIgnoreAsciiCase (s t : String) : Bool :=
  s.toList.map Char.toLower == t.toList.map Char.toLower

/-- The rule `main` makes of an entry of `auth.acl_rules`. -/
def AclRuleConfig.rule (r : AclRuleConfig) : AclRule where
  ipRange := r.ipRange
  action := if eqIgnoreAsciiCase r.action "allow" then .allow else .deny
  priority := r.priority.getD 0

/-- The loops of `main` that fill the `AuthManager`: a user of a later entry replaces one of the
    same name, and the users of the API keys replace those of the list. -/
def Accounts.load (now : ℕ) (c : AuthConfig) : Accounts :=
  let s := (c.users.map (UserConfig.account now)).foldl Accounts.addUser .new
  let s := ((HashMap.values c.apiKeys).map apiKeyAccount).foldl Accounts.addUser s
  (c.aclRules.map AclRuleConfig.rule).foldl Accounts.addAclRule s

/-- A part of a dotted quad: up to three digits without a leading zero. -/
def parseOctet (part : List Char) : Option UInt8 :=
  if part.all Char.isDigit && decide (part.length ≤ 3) &&
      (decide (part.length = 1) || part.head? != some '0') then
    (parseUnsigned 255 part).map UInt8.ofNat
  else none

/-- `s.parse::<Ipv4Addr>()`. -/
def parseIpv4 (s : String) : Option Ipv4Addr :=
  match (s.toList.splitOn '.').map parseOctet with
  | [some a, some b, some c, some d] => some ⟨a, b, c, d⟩
  | _ => none

/-- The server of `main`: the built-in password, auth enabled, and the manager filled from the
    configuration, at `now` seconds since the epoch. -/
def startServer (now : ℕ) (c : Config) : Rust TurnServer := do
  let relayAddr := (parseIpv4 c.server.externalIp).getD ⟨0, 0, 0, 0⟩
  let relayBindAddr := (parseIpv4 (c.server.relayBindIp.getD "0.0.0.0")).getD ⟨0, 0, 0, 0⟩
  let server ← TurnServer.withPortRangeLimitsBindAddressAndPassword relayAddr relayBindAddr
    c.server.realm c.server.startPort c.server.endPort c.server.maxConcurrentAllocations
    c.server.maxAllocationDurationSecs "password" false c.server.serverName
  pure { server with
    stunEnabled := c.server.stunEnabled, turnEnabled := c.server.turnEnabled,
    authManager := some (Accounts.load now c.auth).manager }

/-- The server of `main` is one that the development is about. -/
theorem startServer_eq_ok {now : ℕ} {c : Config} {server : TurnServer}
    (h : startServer now c = .ok server) :
    Started server ∧ server.authDisabled = false ∧ server.password = "password" ∧
      server.realm = c.server.realm ∧
      server.authManager = some (Accounts.load now c.auth).manager := by
  obtain ⟨new, hnew, hserver⟩ := Rust.bind_eq_ok.1 h
  obtain rfl := Except.ok.inj hserver
  refine ⟨⟨_, _, _, _, _, _, _, _, _, _, new, _, _, _, hnew, rfl⟩, ?_⟩
  obtain ⟨table, -, hnew⟩ := Rust.bind_eq_ok.1 hnew
  obtain rfl := Except.ok.inj hnew
  exact ⟨rfl, rfl, rfl, rfl⟩

/-! ## What the startup leaves -/

theorem foldl_addUser_users (l : List Account) (s : Accounts) :
    (l.foldl Accounts.addUser s).users
      = HashMap.insertAll (fun a => a.username) l s.users := by
  induction l generalizing s with
  | nil => rfl
  | cons a l ih => exact ih _

theorem foldl_addUser_aclRules (l : List Account) (s : Accounts) :
    (l.foldl Accounts.addUser s).aclRules = s.aclRules := by
  induction l generalizing s with
  | nil => rfl
  | cons a l ih => exact ih _

theorem foldl_addAclRule_users (l : List AclRule) (s : Accounts) :
    (l.foldl Accounts.addAclRule s).users = s.users := by
  induction l generalizing s with
  | nil => rfl
  | cons r l ih => exact ih _

theorem find?_name (l : List String) (name : String) :
    l.find? (fun n => decide (n = name)) = if name ∈ l then some name else none := by
  induction l with
  | nil => rfl
  | cons n l ih =>
      by_cases h : n = name
      · simp [h]
      · simp [h, Ne.symm h, ih]

/-- A name of an API key belongs to its user, and any other name to the last entry of the list
    with it. -/
theorem Accounts.load_lookup (now : ℕ) (c : AuthConfig) (name : String) :
    (Accounts.load now c).users.lookup name =
      if name ∈ HashMap.values c.apiKeys then some (apiKeyAccount name)
      else (c.users.map (UserConfig.account now)).reverse.find?
        (fun a => decide (a.username = name)) := by
  have hkeys : ((HashMap.values c.apiKeys).map apiKeyAccount).reverse.find?
      (fun a => decide (a.username = name))
        = if name ∈ HashMap.values c.apiKeys then some (apiKeyAccount name) else none := by
    rw [← List.map_reverse, List.find?_map]
    show ((HashMap.values c.apiKeys).reverse.find? (fun n => decide (n = name))).map _ = _
    rw [find?_name]
    by_cases h : name ∈ HashMap.values c.apiKeys <;> simp [h]
  unfold Accounts.load
  rw [foldl_addAclRule_users, foldl_addUser_users, HashMap.lookup_insertAll, foldl_addUser_users,
    HashMap.lookup_insertAll, hkeys]
  split <;> simp [Accounts.new]

end Miuturn
