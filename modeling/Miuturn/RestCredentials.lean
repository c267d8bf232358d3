import Miuturn.Acl
import Miuturn.Config
import Miuturn.Login

set_option autoImplicit false

/-! # Credentials of the REST API (`short_term.rs`, `health.rs`)

The REST API gives out a name `expiry:user` and, as its password, an HMAC of the name under the
secret of the configuration. `ShortTermCredentialManager::verify` takes them back until they expire.
The TURN server never asks it: `verify_turn_auth` looks the name up among the configured users and
takes the built-in password when it is not there. The credentials open the server when that password
happens to sign as the HMAC does. -/

open RustStd

namespace Miuturn

/-! ## Issuing -/

structure ShortTermCredentialManager where
  secretKey : Bytes
  defaultLifetimeSecs : ℕ
  deriving DecidableEq

/-- `generate`'s result: the name, the password and the expiry in seconds since the epoch. -/
structure Credentials where
  username : String
  password : String
  expires : ℕ
  deriving DecidableEq

namespace ShortTermCredentialManager

/-- `ShortTermCredentialManager::new`. -/
def new (secretKey : String) : ShortTermCredentialManager := ⟨strBytes secretKey, 3600⟩

/-- `ShortTermCredentialManager::with_lifetime`. -/
def withLifetime (m : ShortTermCredentialManager) (lifetimeSecs : ℕ) : ShortTermCredentialManager :=
  { m with defaultLifetimeSecs := lifetimeSecs }

variable (D : Digests) (m : ShortTermCredentialManager)

/-- `ShortTermCredentialManager::compute_password`. -/
def computePassword (username : String) : String :=
  hexEncode (D.hmacSha1 m.secretKey (strBytes username)).val

/-- `ShortTermCredentialManager::generate`, at `now` seconds since the epoch: the addition is on
    `u64`. -/
def generateIn (build : Build) (now : ℕ) (userId : String) (lifetimeSecs : Option ℕ) :
    Rust Credentials := do
  let timestamp ← build.add64 now (lifetimeSecs.getD m.defaultLifetimeSecs)
  let username := decimal timestamp ++ ":" ++ userId
  pure ⟨username, m.computePassword D username, timestamp⟩

/-- `ShortTermCredentialManager::verify`. -/
def verify (now : ℕ) (username password : String) : Bool :=
  match username.toList.splitOn ':' with
  | [time, _] =>
    match parseUnsigned (2 ^ 64 - 1) time with
    | some timestamp => !decide (timestamp < now) && m.computePassword D username == password
    | none => false
  | _ => false

/-- `ShortTermCredentialManager::parse_username`. It does not look at the manager. -/
def parseUsername (username : String) : Option (ℕ × String) :=
  match username.toList.splitOn ':' with
  | [time, userId] => do
    let timestamp ← parseUnsigned (2 ^ 64 - 1) time
    some (timestamp, String.ofList userId)
  | _ => none

/-- `ShortTermCredentialManager::is_expired`. -/
def isExpired (now : ℕ) (username : String) : Bool :=
  match parseUsername username with
  | some (timestamp, _) => decide (timestamp < now)
  | none => true

variable {D m}

/-- Without an overflow both builds give the same. -/
theorem generateIn_of_lt (build : Build) {now : ℕ} (userId : String) {lifetimeSecs : Option ℕ}
    (hfits : now + lifetimeSecs.getD m.defaultLifetimeSecs < 2 ^ 64) :
    m.generateIn D build now userId lifetimeSecs
      = let timestamp := now + lifetimeSecs.getD m.defaultLifetimeSecs
        let username := decimal timestamp ++ ":" ++ userId
        .ok ⟨username, m.computePassword D username, timestamp⟩ := by
  rw [generateIn, Build.add64, if_pos hfits]
  rfl

theorem add64_lt {build : Build} {x y z : ℕ} (h : build.add64 x y = .ok z) : z < 2 ^ 64 := by
  unfold Build.add64 Build.overflow at h
  split at h
  · obtain rfl := Except.ok.inj h
    assumption
  · cases build with
    | debug => exact absurd h (by simp)
    | release =>
        obtain rfl := Except.ok.inj h
        exact Nat.mod_lt _ (by decide)

theorem generateIn_eq_ok {build : Build} {now : ℕ} {userId : String} {lifetimeSecs : Option ℕ}
    {c : Credentials} (h : m.generateIn D build now userId lifetimeSecs = .ok c) :
    c.expires < 2 ^ 64 ∧ c.username = decimal c.expires ++ ":" ++ userId ∧
      c.password = m.computePassword D c.username := by
  obtain ⟨timestamp, hadd, hc⟩ := Rust.bind_eq_ok.1 h
  obtain rfl := Except.ok.inj hc
  exact ⟨add64_lt hadd, rfl, rfl⟩

theorem splitOn_name (n : ℕ) (userId : String) :
    (decimal n ++ ":" ++ userId).toList.splitOn ':'
      = (decimal n).toList :: userId.toList.splitOn ':' := by
  have htext :
      (decimal n ++ ":" ++ userId).toList = (decimal n).toList ++ ':' :: userId.toList := by
    simp [String.toList_append]
  rw [htext, List.splitOn_append_cons_self_of_not_mem ((digits_decimal n).notMem (by decide))]

/-- The manager takes back what it gave out, until it expires; for this the user has to be one
    without a colon. -/
theorem verify_generateIn {build : Build} {now : ℕ} {userId : String} {lifetimeSecs : Option ℕ}
    {c : Credentials} (h : m.generateIn D build now userId lifetimeSecs = .ok c)
    (hcolon : ':' ∉ userId.toList) (later : ℕ) :
    m.verify D later c.username c.password = true ↔ later ≤ c.expires := by
  obtain ⟨hlt, huser, hpw⟩ := generateIn_eq_ok h
  have hparse := (digits_decimal c.expires).parseUnsigned (show c.expires ≤ 2 ^ 64 - 1 by omega)
  unfold verify
  rw [huser, splitOn_name, List.splitOn_eq_singleton hcolon]
  dsimp only
  rw [hparse, ← huser]
  simp [hpw]

/-- What a name with a time below `2 ^ 64` is read as: nothing, if the user has a colon. -/
theorem parseUsername_name {expires : ℕ} (hexpires : expires < 2 ^ 64) (userId : String) :
    parseUsername (decimal expires ++ ":" ++ userId)
      = if ':' ∈ userId.toList then none else some (expires, userId) := by
  have hparse := (digits_decimal expires).parseUnsigned (show expires ≤ 2 ^ 64 - 1 by omega)
  unfold parseUsername
  rw [splitOn_name]
  split_ifs with hcolon
  · obtain ⟨before, after, heq, -⟩ := List.eq_append_cons_of_mem hcolon
    rw [heq, List.splitOn_append_cons_self]
    -- at least one part on either side of the colon, and the time before them
    obtain ⟨p, ps, hp⟩ := List.exists_cons_of_ne_nil (List.splitOn_ne_nil ':' before)
    obtain ⟨q, qs, hq⟩ := List.exists_cons_of_ne_nil (List.splitOn_ne_nil ':' after)
    rw [hp, hq]
    cases ps <;> rfl
  · rw [List.splitOn_eq_singleton hcolon]
    dsimp only
    rw [hparse]
    simp

/-- The credentials given out at `now` expire `lifetimeSecs` later, name their expiry and their
    user, verify until they expire and not after, and count as expired exactly from then on. -/
structure LastsLifetime (D : Digests) (m : ShortTermCredentialManager) (build : Build) (now : ℕ)
    (userId : String) (lifetimeSecs : Option ℕ) (c : Credentials) : Prop where
  generated : m.generateIn D build now userId lifetimeSecs = .ok c
  expires : c.expires = now + lifetimeSecs.getD m.defaultLifetimeSecs
  parses : parseUsername c.username = some (c.expires, userId)
  verifies : ∀ later, now ≤ later → (m.verify D later c.username c.password = true ↔
    later ≤ c.expires)
  expired : ∀ time, isExpired time c.username = true ↔ c.expires < time

/-- Credentials last for their lifetime exactly if the expiry is below `2 ^ 64` and the user has no
    colon; in either build, for every secret, user, lifetime and time of issue. -/
theorem credentials_last_iff (D : Digests) (m : ShortTermCredentialManager) (build : Build)
    (now : ℕ) (userId : String) (lifetimeSecs : Option ℕ) :
    (∃ c, LastsLifetime D m build now userId lifetimeSecs c) ↔
      now + lifetimeSecs.getD m.defaultLifetimeSecs < 2 ^ 64 ∧ ':' ∉ userId.toList := by
  constructor
  · rintro ⟨c, h⟩
    obtain ⟨timestamp, hadd, hc⟩ := Rust.bind_eq_ok.1 h.generated
    obtain rfl := Except.ok.inj hc
    have hfits : now + lifetimeSecs.getD m.defaultLifetimeSecs < 2 ^ 64 := by
      by_contra hover
      rw [Build.add64, if_neg hover] at hadd
      cases build with
      | debug => exact absurd hadd (by simp [Build.overflow])
      | release =>
          have hwrapped := Except.ok.inj hadd
          have hexpires := h.expires
          dsimp only at hexpires
          omega
    refine ⟨hfits, fun hcolon => ?_⟩
    have hexpires := h.expires
    have hparses := h.parses
    dsimp only at hexpires hparses
    rw [parseUsername_name (by omega), if_pos hcolon] at hparses
    exact absurd hparses (by simp)
  · rintro ⟨hfits, hcolon⟩
    have hgenerated := generateIn_of_lt (D := D) build userId hfits
    have hparses := parseUsername_name hfits userId
    rw [if_neg hcolon] at hparses
    refine ⟨_, hgenerated, rfl, hparses,
      fun later _ => verify_generateIn hgenerated hcolon later, fun time => ?_⟩
    unfold isExpired
    rw [hparses]
    simp

/-- A user with a colon, and a lifetime that leaves `u64`: the first gets a name that cannot be read
    back, the second a panic or, in a release build, an expiry that has passed. -/
theorem credentials_not_lasting :
    (¬ ∃ c, LastsLifetime sampleDigests (new "my-secret-key") .release 1000 "a:b" (some 3600) c) ∧
      (¬ ∃ c, LastsLifetime sampleDigests (new "my-secret-key") .debug 1000 "alice"
        (some (2 ^ 64 - 1)) c) ∧
      (¬ ∃ c, LastsLifetime sampleDigests (new "my-secret-key") .release 1000 "alice"
        (some (2 ^ 64 - 1)) c) ∧
      parseUsername "4600:a:b" = none := by
  refine ⟨?_, ?_, ?_, by decide +kernel⟩
  · rintro ⟨c, h⟩
    obtain rfl := Except.ok.inj h.generated
    exact absurd h.parses (by decide +kernel)
  · rintro ⟨c, h⟩
    have hpanics : generateIn sampleDigests (new "my-secret-key") .debug 1000 "alice"
        (some (2 ^ 64 - 1)) = .error .arithmeticOverflow := rfl
    exact absurd (hpanics.symm.trans h.generated) (by simp)
  · rintro ⟨c, h⟩
    obtain rfl := Except.ok.inj h.generated
    exact absurd h.expires (by decide +kernel)

end ShortTermCredentialManager

/-! ## The routes -/

structure TurnRestState where
  enabled : Bool
  credentialManager : Option ShortTermCredentialManager
  deriving DecidableEq

/-- What `main` and `create_admin_routes` make of the `[http]` section. -/
def HttpConfig.turnRest (http : HttpConfig) : TurnRestState :=
  if http.turnRestEnabled.getD false then
    ⟨true, some ((ShortTermCredentialManager.new
      (http.turnRestSecret.getD "default-secret-key")).withLifetime
        (http.turnRestDefaultLifetime.getD 3600))⟩
  else ⟨false, none⟩

/-- The secret of the configuration, or the one that stands in for it. -/
def Config.restSecret (c : Config) : String :=
  (c.http.bind HttpConfig.turnRestSecret).getD "default-secret-key"

/-- `TurnCredentialsRequest` and `IceServersQuery`. -/
structure CredentialsRequest where
  username : String
  lifetime : Option ℕ
  deriving DecidableEq

/-- Both routes ask for a manager first. -/
def TurnRestState.withManager {α : Type} (rest : TurnRestState) (disabled missing : α)
    (answer : ShortTermCredentialManager → Rust α) : Rust α :=
  if !rest.enabled then pure disabled
  else
    match rest.credentialManager with
    | none => pure missing
    | some manager => answer manager

/-- `turn_credentials_handler`, with the text of the error. -/
def turnCredentialsHandler (D : Digests) (build : Build) (rest : TurnRestState) (now : ℕ)
    (req : CredentialsRequest) : Rust (Except String Credentials) :=
  rest.withManager (.error "TURN REST API is not enabled")
    (.error "TURN REST API credential manager not configured") fun manager => do
      let credentials ← manager.generateIn D build now req.username req.lifetime
      pure (.ok credentials)

structure IceServer where
  urls : List String
  username : String
  credential : String
  deriving DecidableEq

/-- The URL of a listener, given by its protocol and port. -/
def iceUrl (externalIp : String) : String × UInt16 → Option String
  | ("udp", port) => some ("turn:" ++ externalIp ++ ":" ++ decimal port.toNat)
  | ("tcp", port) =>
    some ("turn:" ++ externalIp ++ ":" ++ decimal port.toNat ++ "?transport=tcp")
  | ("tls", port) =>
    some ("turns:" ++ externalIp ++ ":" ++ decimal port.toNat ++ "?transport=tcp")
  | ("dtls", port) =>
    some ("turns:" ++ externalIp ++ ":" ++ decimal port.toNat ++ "?transport=udp")
  | _ => none

/-- `Vec::dedup`: of neighbours that are equal, one stays. -/
def dedup (l : List String) : List String :=
  l.foldr (fun a rest => if rest.head? = some a then rest else a :: rest) []

/-- `ice_servers_handler`. The listeners come with the port of their address. -/
def iceServersHandler (D : Digests) (build : Build) (rest : TurnRestState) (externalIp : String)
    (listeners : List (String × UInt16)) (now : ℕ) (req : CredentialsRequest) :
    Rust (List IceServer) :=
  rest.withManager [] [] fun manager => do
    let credentials ← manager.generateIn D build now req.username req.lifetime
    let urls := (listeners.filterMap (iceUrl externalIp)).insertionSort (fun a b => a ≤ b)
    pure [⟨dedup urls, credentials.username, credentials.password⟩]

theorem TurnRestState.withManager_eq_ok {α : Type} {rest : TurnRestState} {disabled missing a : α}
    {answer : ShortTermCredentialManager → Rust α}
    (h : rest.withManager disabled missing answer = .ok a) (hdisabled : disabled ≠ a)
    (hmissing : missing ≠ a) : ∃ m, rest.credentialManager = some m ∧ answer m = .ok a := by
  unfold withManager at h
  split at h
  · exact absurd (Except.ok.inj h) hdisabled
  · cases hm : rest.credentialManager with
    | none =>
        rw [hm] at h
        exact absurd (Except.ok.inj h) hmissing
    | some m =>
        rw [hm] at h
        exact ⟨m, rfl, h⟩

theorem turnCredentialsHandler_eq_ok {D : Digests} {build : Build} {rest : TurnRestState} {now : ℕ}
    {req : CredentialsRequest} {c : Credentials}
    (h : turnCredentialsHandler D build rest now req = .ok (.ok c)) :
    ∃ m, rest.credentialManager = some m ∧
      m.generateIn D build now req.username req.lifetime = .ok c := by
  obtain ⟨m, hm, hanswer⟩ := TurnRestState.withManager_eq_ok h (by simp) (by simp)
  obtain ⟨c', hgenerate, hc⟩ := Rust.bind_eq_ok.1 hanswer
  obtain rfl := Except.ok.inj (Except.ok.inj hc)
  exact ⟨m, hm, hgenerate⟩

theorem iceServersHandler_eq_ok {D : Digests} {build : Build} {rest : TurnRestState}
    {externalIp : String} {listeners : List (String × UInt16)} {now : ℕ} {req : CredentialsRequest}
    {server : IceServer}
    (h : iceServersHandler D build rest externalIp listeners now req = .ok [server]) :
    ∃ m c, rest.credentialManager = some m ∧
      m.generateIn D build now req.username req.lifetime = .ok c ∧
      server.username = c.username ∧ server.credential = c.password := by
  obtain ⟨m, hm, hanswer⟩ := TurnRestState.withManager_eq_ok h (by simp) (by simp)
  obtain ⟨c, hgenerate, hc⟩ := Rust.bind_eq_ok.1 hanswer
  obtain rfl := List.singleton_inj.1 (Except.ok.inj hc)
  exact ⟨m, c, hm, hgenerate, rfl, rfl⟩

/-- The credentials were given out at `now` by one of the two routes of a server, of either build,
    with the configuration; of an answer with ICE servers the expiry is in the name. -/
inductive Issued (D : Digests) (c : Config) (now : ℕ) (req : CredentialsRequest)
    (credentials : Credentials) : Prop
  | turnCredentials {http : HttpConfig} {build : Build} : c.http = some http →
      turnCredentialsHandler D build http.turnRest now req = .ok (.ok credentials) →
      Issued D c now req credentials
  | iceServers {http : HttpConfig} {build : Build} {port : ListenConfig → UInt16}
      {urls : List String} : c.http = some http →
      iceServersHandler D build http.turnRest c.server.externalIp
          (c.server.listening.map (fun l => (l.protocol, port l))) now req
        = .ok [⟨urls, credentials.username, credentials.password⟩] →
      credentials.username = decimal credentials.expires ++ ":" ++ req.username →
      Issued D c now req credentials

/-- The manager of the routes signs with the secret of the configuration. -/
theorem computePassword_of_turnRest {c : Config} {http : HttpConfig}
    {m : ShortTermCredentialManager} (hhttp : c.http = some http)
    (hm : http.turnRest.credentialManager = some m) (D : Digests) (name : String) :
    m.computePassword D name
      = (ShortTermCredentialManager.new c.restSecret).computePassword D name := by
  unfold HttpConfig.turnRest at hm
  split at hm
  · obtain rfl := Option.some.inj hm
    rw [Config.restSecret, hhttp]
    rfl
  · exact absurd hm (by simp)

/-- The password given out is the HMAC of the name under the secret. -/
theorem Issued.password {D : Digests} {c : Config} {now : ℕ} {req : CredentialsRequest}
    {credentials : Credentials} (h : Issued D c now req credentials) :
    credentials.password = (ShortTermCredentialManager.new c.restSecret).computePassword D
      credentials.username := by
  cases h with
  | turnCredentials hhttp h =>
      obtain ⟨m, hm, hgenerate⟩ := turnCredentialsHandler_eq_ok h
      obtain ⟨-, -, hpw⟩ := ShortTermCredentialManager.generateIn_eq_ok hgenerate
      rw [hpw, computePassword_of_turnRest hhttp hm]
  | iceServers hhttp h _ =>
      obtain ⟨m, c', hm, hgenerate, huser, hcredential⟩ := iceServersHandler_eq_ok h
      obtain ⟨-, -, hpw⟩ := ShortTermCredentialManager.generateIn_eq_ok hgenerate
      dsimp only at huser hcredential
      rw [hcredential, huser, hpw, computePassword_of_turnRest hhttp hm]

/-! ## Using them -/

/-- The password the server of `main` takes for a name: that of a valid user, or the built-in
    one. -/
def AuthManager.turnPassword (am : AuthManager) (now : ℕ) (name : String) : String :=
  (am.getUserPassword now name).getD "password"

theorem getPasswordForUser_builtin {server : TurnServer} {am : AuthManager} (env : Env)
    (name : String) (ham : server.authManager = some am) (hpw : server.password = "password") :
    server.getPasswordForUser env name = some (am.turnPassword (asSecs env.systemTime) name) := by
  unfold TurnServer.getPasswordForUser AuthManager.turnPassword
  rw [ham, Option.bind_some]
  cases am.getUserPassword (asSecs env.systemTime) name with
  | some pw => rfl
  | none =>
      rw [hpw]
      rfl

/-- The message signed for a user. -/
def Message.signedFor (D : Digests) (realm name password : String) (msg : Message) : Message :=
  addResponseMessageIntegrity D msg (computeMessageIntegrityKey D name realm password)

/-- An Allocate request for the name, before it is signed: with a fresh nonce, and not too long to
    be sent. -/
structure AsksAllocate (D : Digests) (env : Env) (server : TurnServer) (name password : String)
    (msg : Message) : Prop where
  method : msg.header.method = .allocate
  eventType : msg.header.eventType = .request
  nonce : FreshNonce env server msg
  username : msg.getAttribute Attribute.username = some ⟨Attribute.username, strBytes name⟩
  unsigned : msg.getAttribute Attribute.messageIntegrity = none
  fits : (encodeAttributes (msg.signedFor D server.realm name password).attributes).length ≤ 65535

/-- The server reads the message and authenticates the user. -/
def Passes (D : Digests) (env : Env) (server : TurnServer) (client : SocketAddr) (name : String)
    (msg : Message) : Prop :=
  ∃ msg', Message.parse msg.encode = .ok (some msg') ∧
    verifyTurnAuth D env server msg' client = .ok (.ok name)

/-- The ACL admits the client, and the password the server takes for the name signs the message as
    the HMAC of the name under the secret does. -/
structure Opens (D : Digests) (am : AuthManager) (secs : ℕ) (client : SocketAddr)
    (realm secret name : String) (msg : Message) : Prop where
  acl : am.checkAcl client.ip.toString = true
  signature : msg.signedFor D realm name (am.turnPassword secs name) = msg.signedFor D realm name
    ((ShortTermCredentialManager.new secret).computePassword D name)

/-- The settings of the server of `main` after any run. -/
theorem startServer_settings {D : Digests} {c : Config} {start clock : ℕ}
    {server₀ server : TurnServer} {history : List Transition} {w : World}
    (hstart : startServer start c = .ok server₀) (hrun : Run D ⟨server₀, clock⟩ history w)
    (hrehashed : Rehashed w.server server) :
    server.authDisabled = false ∧ server.password = "password" ∧ server.realm = c.server.realm ∧
      server.authManager = some ((authChanges history).foldl AuthChange.apply
        (Accounts.load start c.auth).manager) := by
  obtain ⟨-, hauth, hpw, hrealm, ham⟩ := startServer_eq_ok hstart
  have hsettings := hrehashed.settings.trans hrun.settings
  refine ⟨(congrArg Settings.authDisabled hsettings).trans hauth,
    (congrArg Settings.password hsettings).trans hpw,
    (congrArg Settings.realm hsettings).trans hrealm,
    (congrArg Settings.authManager hsettings).trans ?_⟩
  simp [Settings.changed, TurnServer.settings, ham]

/-- On a server with the built-in password, the request passes exactly if its password signs like
    the server's. -/
theorem passes_iff_opens {D : Digests} {env : Env} {server : TurnServer} {am : AuthManager}
    {secret name password : String} {msg : Message} (henabled : server.authDisabled = false)
    (hbuiltin : server.password = "password") (ham : server.authManager = some am)
    (hasks : AsksAllocate D env server name password msg)
    (hpassword : password = (ShortTermCredentialManager.new secret).computePassword D name)
    (client : SocketAddr) :
    Passes D env server client name (msg.signedFor D server.realm name password) ↔
      Opens D am (asSecs env.systemTime) client server.realm secret name msg := by
  obtain ⟨msg', hparse, hiff⟩ := verifyTurnAuth_signed henabled hasks.nonce hasks.username
    hasks.unsigned hasks.fits
  have hacl : server.aclAdmits client = am.checkAcl client.ip.toString := by
    rw [TurnServer.aclAdmits, ham]
  have hlookup := getPasswordForUser_builtin env name ham hbuiltin
  constructor
  · rintro ⟨msg'', hparse', hverify⟩
    obtain rfl := Option.some.inj (Except.ok.inj (hparse.symm.trans hparse'))
    obtain ⟨hadmits, pw, hpw, hsigned⟩ := (hiff client).1 hverify
    obtain rfl := Option.some.inj (hlookup.symm.trans hpw)
    refine ⟨hacl.symm.trans hadmits, ?_⟩
    rw [← hpassword]
    exact hsigned
  · rintro ⟨hadmits, hsigned⟩
    rw [← hpassword] at hsigned
    exact ⟨msg', hparse, (hiff client).2 ⟨hacl.trans hadmits, _, hlookup, hsigned⟩⟩

/-- When the credentials of the REST API are what they are for. They are given out by either route
    for any user and lifetime; the server is the one `main` starts with the same configuration,
    after any run; the request is an Allocate with the name and a fresh nonce, signed with the
    password. It passes before the expiry and not after it exactly if the server's own password for
    the name signs like the HMAC before the expiry, and not after it. -/
theorem restCredentials_open_iff {D : Digests} {c : Config} {start clock now : ℕ}
    {server₀ server : TurnServer} {history : List Transition} {w : World}
    {req : CredentialsRequest} {credentials : Credentials} {env : Env} {msg : Message}
    (hissued : Issued D c now req credentials) (hstart : startServer start c = .ok server₀)
    (hrun : Run D ⟨server₀, clock⟩ history w) (hrehashed : Rehashed w.server server)
    (hasks : AsksAllocate D env server credentials.username credentials.password msg)
    (client : SocketAddr) :
    ((env.systemTime < fromSecs credentials.expires → Passes D env server client
        credentials.username (msg.signedFor D c.server.realm credentials.username
          credentials.password)) ∧
      (fromSecs credentials.expires < env.systemTime → ¬ Passes D env server client
        credentials.username (msg.signedFor D c.server.realm credentials.username
          credentials.password))) ↔
    ((env.systemTime < fromSecs credentials.expires → Opens D
        ((authChanges history).foldl AuthChange.apply (Accounts.load start c.auth).manager)
        (asSecs env.systemTime) client c.server.realm c.restSecret credentials.username msg) ∧
      (fromSecs credentials.expires < env.systemTime → ¬ Opens D
        ((authChanges history).foldl AuthChange.apply (Accounts.load start c.auth).manager)
        (asSecs env.systemTime) client c.server.realm c.restSecret credentials.username msg)) := by
  obtain ⟨henabled, hbuiltin, hrealm, ham⟩ := startServer_settings hstart hrun hrehashed
  rw [← hrealm, passes_iff_opens henabled hbuiltin ham hasks hissued.password client]

/-! ## A server with the REST API -/

def restConfig (users : List UserConfig) : Config :=
  { Config.default with
    server := { Config.default.server with
      externalIp := "203.0.113.1", relayBindIp := some "10.0.0.1", startPort := 5000,
      endPort := 5003, serverName := "miuturn" }
    http := some
      { address := "0.0.0.0:8080", turnRestEnabled := some true,
        turnRestSecret := some "my-secret-key", turnRestDefaultLifetime := some 3600,
        adminUsername := none, adminPassword := none, adminAcl := ["127.0.0.1"],
        trustProxy := none }
    auth := ⟨users, ∅, []⟩ }

def restServer (users : List UserConfig) : TurnServer :=
  sampleServer false (some (Accounts.load 0 (restConfig users).auth).manager)

theorem startServer_restConfig (users : List UserConfig) :
    startServer 0 (restConfig users) = .ok (restServer users) := by
  have hrelay : parseIpv4 "203.0.113.1" = some ⟨203, 0, 113, 1⟩ := by decide +kernel
  have hbind : parseIpv4 "10.0.0.1" = some ⟨10, 0, 0, 1⟩ := by decide +kernel
  unfold startServer
  simp only [restConfig, Option.getD_some, hrelay, hbind]
  rfl

/-- The server has challenged a client at second 0. -/
def restWorld (users : List UserConfig) : World :=
  (play sampleDigests ⟨restServer users, 0⟩ challenged).2

theorem restWorld_run (users : List UserConfig) :
    Run sampleDigests ⟨restServer users, 0⟩ (play sampleDigests ⟨restServer users, 0⟩ challenged).1
      (restWorld users) :=
  Run.of_play (by simp [challenged])

/-- What `alice` gets at second 0. -/
def restCredentials : Credentials where
  username := "3600:alice"
  password := (ShortTermCredentialManager.new "my-secret-key").computePassword sampleDigests
    "3600:alice"
  expires := 3600

theorem restCredentials_issued (users : List UserConfig) :
    Issued sampleDigests (restConfig users) 0 ⟨"alice", none⟩ restCredentials :=
  @Issued.turnCredentials _ _ _ _ _ _ .release rfl rfl

/-- The request with the nonce of the challenge. -/
def restRequest : Message :=
  sampleRequest .allocate [⟨Attribute.username, strBytes "3600:alice"⟩,
    ⟨Attribute.nonce, strBytes (generateNonce (sampleEnv 0))⟩]

/-- A user with the name and password of the credentials. -/
def restUser : UserConfig :=
  ⟨restCredentials.username, restCredentials.password, "temporary", some 3600, none, none, none,
    none⟩

theorem restRequest_asks {users : List UserConfig}
    (hnonce : (restWorld users).server.nonceMap.lookup (generateNonce (sampleEnv 0))
      = some ⟨generateNonce (sampleEnv 0), 0⟩) :
    AsksAllocate sampleDigests (sampleEnv 1) (restWorld users).server restCredentials.username
      restCredentials.password restRequest where
  method := rfl
  eventType := rfl
  nonce := ⟨_, _, rfl, by rw [fromUtf8Lossy_strBytes]; exact hnonce, by decide⟩
  username := rfl
  unsigned := rfl
  fits := by
    rw [(startServer_settings (startServer_restConfig users) (restWorld_run users) (.refl _)).2.2.1]
    show List.length (encodeAttributes (restRequest.signedFor sampleDigests "miuturn"
      restCredentials.username restCredentials.password).attributes) ≤ 65535
    decide +kernel

/-- With such a user the credentials work. -/
theorem restCredentials_open_iff_configured :
    Passes sampleDigests (sampleEnv 1) (restWorld [restUser]).server sampleClient
      restCredentials.username (restRequest.signedFor sampleDigests "miuturn"
        restCredentials.username restCredentials.password) := by
  refine ((restCredentials_open_iff (restCredentials_issued [restUser])
    (startServer_restConfig [restUser]) (restWorld_run [restUser]) (.refl _)
    (restRequest_asks (by decide +kernel)) sampleClient).2
      ⟨fun _ => ⟨by decide +kernel, ?_⟩, ?_⟩).1 ?_
  · decide +kernel
  · intro hlate
    exact absurd hlate (by decide)
  · decide

/-- Without one they are refused from the start. -/
theorem fresh_credentials_refused :
    Issued sampleDigests (restConfig []) 0 ⟨"alice", none⟩ restCredentials ∧
      startServer 0 (restConfig []) = .ok (restServer []) ∧
      Run sampleDigests ⟨restServer [], 0⟩ (play sampleDigests ⟨restServer [], 0⟩ challenged).1
        (restWorld []) ∧
      AsksAllocate sampleDigests (sampleEnv 1) (restWorld []).server restCredentials.username
        restCredentials.password restRequest ∧
      (sampleEnv 1).systemTime < fromSecs restCredentials.expires ∧
      ¬ Passes sampleDigests (sampleEnv 1) (restWorld []).server sampleClient
        restCredentials.username (restRequest.signedFor sampleDigests "miuturn"
          restCredentials.username restCredentials.password) := by
  obtain ⟨henabled, hbuiltin, -, ham⟩ :=
    startServer_settings (startServer_restConfig []) (restWorld_run []) (.refl _)
  have hasks :=
    restRequest_asks (show (restWorld []).server.nonceMap.lookup _ = _ by decide +kernel)
  refine ⟨restCredentials_issued [], startServer_restConfig [], restWorld_run [], hasks, by decide,
    fun hpasses => ?_⟩
  have hopens := (passes_iff_opens henabled hbuiltin ham hasks
    (restCredentials_issued []).password sampleClient).1 hpasses
  exact absurd hopens.signature (by decide +kernel)

end Miuturn
