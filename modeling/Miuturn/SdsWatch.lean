import Miuturn.CertificateCache
import Miuturn.RustStd.Net
import Miuturn.Trace

set_option autoImplicit false

/-! # Watching the control plane (`sds.rs`, `tls.rs`)

A server with `source = "sds"` fetches its certificate when it starts and then keeps a stream to the
control plane open. Each response is looked through for the certificate that was asked for; a
certificate is installed in the TLS resolver and written to the cache, and the response is
acknowledged. Any failure ends the stream without an acknowledgement, and a new stream is opened.

The control plane takes an acknowledgement as the word that a version is in use. Here it is shown to
be good, over runs in which the control plane sends anything, streams break, writes fail, and the
process stops and starts at any point: the last certificate that was acknowledged on an open stream
is what is served, and until another comes it is what a start without the control plane serves
again. The two shapes of responses lead to the same runs.

There is one watcher, that of a TLS listener. `register_sds_watcher`, which keeps a second one of
the same settings from starting, is left out, and so is a DTLS listener beside it: its start writes
the same two files. The subscription is taken as `SdsSubscription::from_config` has made it. -/

open RustStd

namespace Miuturn.SdsWatch

/-! ## Subscriptions -/

structure Node where
  id : String
  cluster : String
  deriving DecidableEq

structure DiscoveryRequest where
  versionInfo : String := ""
  node : Option Node
  resourceNames : List String
  typeUrl : String
  responseNonce : String := ""
  deriving DecidableEq

structure DeltaDiscoveryRequest where
  node : Option Node
  typeUrl : String
  resourceNamesSubscribe : List String := []
  resourceNamesUnsubscribe : List String := []
  initialResourceVersions : List (String × String) := []
  responseNonce : String := ""
  deriving DecidableEq

/-- What the requests and the texts of errors are made of. -/
structure SdsSubscription where
  resourceName : String
  node : Node
  timeoutSecs : ℕ
  deriving DecidableEq

namespace SdsSubscription

variable (s : SdsSubscription)

def initialSotwRequest : DiscoveryRequest :=
  { node := some s.node, resourceNames := [s.resourceName], typeUrl := secretTypeUrl }

def ackSotwRequest (response : DiscoveryResponse) : DiscoveryRequest :=
  { versionInfo := response.versionInfo, node := some s.node, resourceNames := [s.resourceName],
    typeUrl := secretTypeUrl, responseNonce := response.nonce }

def initialDeltaRequest : DeltaDiscoveryRequest :=
  { node := some s.node, resourceNamesSubscribe := [s.resourceName], typeUrl := secretTypeUrl }

def ackDeltaRequest (response : DeltaDiscoveryResponse) : DeltaDiscoveryRequest :=
  { node := some s.node, typeUrl := secretTypeUrl, responseNonce := response.nonce }

end SdsSubscription

/-! ## Streams

The functions for the two shapes differ in the requests, in how a certificate is looked for and in
the texts of two errors. -/

structure SecretStream (Req Resp : Type) where
  initial : Req
  ack : Resp → Req
  extract : Resp → Except SdsError (Option SdsCertificate)
  /-- The error when the stream ends before a certificate came. -/
  closed : String
  /-- The error when the time is up. -/
  timedOut : String

/-- The stream of `fetch_sotw_sds_certificate_update` and `watch_sotw_sds_certificates_once`. -/
def sotwStream (w : SdsWorld) (s : SdsSubscription) :
    SecretStream DiscoveryRequest DiscoveryResponse where
  initial := s.initialSotwRequest
  ack := s.ackSotwRequest
  extract response := tryExtractCertificateFromSotwResponse w response s.resourceName
  closed := "SDS stream closed before sending the requested Secret"
  timedOut := "timed out after " ++ decimal s.timeoutSecs ++ "s waiting for SDS resource \"" ++
    s.resourceName ++ "\""

/-- The stream of `fetch_delta_sds_certificate_update` and `watch_delta_sds_certificates_once`. -/
def deltaStream (w : SdsWorld) (s : SdsSubscription) :
    SecretStream DeltaDiscoveryRequest DeltaDiscoveryResponse where
  initial := s.initialDeltaRequest
  ack := s.ackDeltaRequest
  extract response := tryExtractCertificateFromDeltaResponse w response s.resourceName
  closed := "Delta SDS stream closed before sending the requested Secret"
  timedOut := "timed out after " ++ decimal s.timeoutSecs ++
    "s waiting for Delta SDS resource \"" ++ s.resourceName ++ "\""

/-- How a stream without a further response ends for the one who waits for a certificate: it is
    closed, it breaks (or was never opened), or the time is up. -/
inductive StreamEnd where
  | closed
  | failed (err : SdsError)
  | timedOut

/-- A response, and whether an acknowledgement of it can be sent. -/
abbrev Arrival (Resp : Type) := Resp × Bool

variable {Req Resp : Type} (S : SecretStream Req Resp)

/-- The loop `wait_for_certificate`, with the requests that it has sent. -/
def waitForCertificate (ending : StreamEnd) :
    List (Arrival Resp) → List Req → Except SdsError SdsCertificate × List Req
  | [], sent =>
    match ending with
    | .closed => (.error (.text S.closed), sent)
    | .failed err => (.error err, sent)
    | .timedOut => (.error (.text S.timedOut), sent)
  | (response, canSend) :: arrivals, sent =>
    match S.extract response with
    | .error err => (.error err, sent)
    | .ok (some certificate) => (.ok certificate, sent)
    | .ok none =>
      if canSend then waitForCertificate ending arrivals (sent ++ [S.ack response])
      else (.error (.text "channel closed"), sent)

/-- `fetch_sds_certificate_update`. -/
def fetchSdsCertificateUpdate (arrivals : List (Arrival Resp)) (ending : StreamEnd) :
    Except SdsError SdsCertificate × List Req :=
  waitForCertificate S ending arrivals [S.initial]

/-! ## The server -/

/-- A running server: the pair its resolver serves, and the requests it has sent on its stream, if
    one is open. -/
structure Process (Req : Type) where
  served : String × String
  stream : Option (List Req)
  deriving DecidableEq

/-- A server and its cache; the files stay when the process is gone. -/
structure Site (Req : Type) where
  files : CertFiles
  process : Option (Process Req)
  deriving DecidableEq

inductive WatchEvent (Resp : Type) where
  /-- The server starts, at `now` seconds since the epoch, and fetches its certificate. -/
  | start (now : ℕ) (arrivals : List (Arrival Resp)) (ending : StreamEnd) (writes : Write × Write)
  /-- The process is gone. -/
  | stop
  /-- The watcher has connected and opened a stream, or failed to. -/
  | connect (opened : Bool)
  | message (arrival : Arrival Resp) (writes : Write × Write)
  /-- The stream is closed, or breaks. -/
  | ended

/-- What stays fixed in a run: the parsers, the texts of errors, the settings. -/
structure Setting where
  pem : PemWorld
  errorText : SdsError → String
  renewBeforeDays : ℕ
  resourceName : String

variable (C : Setting)

/-- `fetch_sds_certificate`, as `load_sds_certificate` sees it. -/
def fetched (arrivals : List (Arrival Resp)) (ending : StreamEnd) :
    Except String (String × String) :=
  match (fetchSdsCertificateUpdate S arrivals ending).1 with
  | .ok certificate => .ok (certificate.certPem, certificate.keyPem)
  | .error err => .error (C.errorText err)

/-- `load_dynamic_sds_certificate_config`. -/
def loadDynamic (files : CertFiles) (now : ℕ) (arrivals : List (Arrival Resp)) (ending : StreamEnd)
    (writes : Write × Write) : Site Req :=
  match loadSdsCertificate C.pem C.renewBeforeDays C.resourceName files now
    (fetched S C arrivals ending) writes with
  | (files, some (.ok pair)) =>
    if C.pem.accepts .tlsWatcher pair.1 pair.2 then ⟨files, some ⟨pair, none⟩⟩ else ⟨files, none⟩
  | (files, _) => ⟨files, none⟩

/-- `DynamicCertResolver::update_from_pem`: a pair that is not accepted changes nothing. -/
def updateFromPem (served : String × String) (certificate : SdsCertificate) : String × String :=
  if C.pem.accepts .tlsWatcher certificate.certPem certificate.keyPem then
    (certificate.certPem, certificate.keyPem)
  else served

/-- The end of a round of the watcher's loop: the response is acknowledged. -/
def acknowledge (arrival : Arrival Resp) (sent : List Req) : Option (List Req) :=
  if arrival.2 then some (sent ++ [S.ack arrival.1]) else none

/-- A round of the loop of `watch_sotw_sds_certificates_once` and
    `watch_delta_sds_certificates_once`, with the `on_update` of `start_sds_tls_watcher`. -/
def watchRound (files : CertFiles) (served : String × String) (sent : List Req)
    (arrival : Arrival Resp) (writes : Write × Write) : Site Req :=
  match S.extract arrival.1 with
  | .error _ => ⟨files, some ⟨served, none⟩⟩
  | .ok none => ⟨files, some ⟨served, acknowledge S arrival sent⟩⟩
  | .ok (some certificate) =>
    let served := updateFromPem C served certificate
    match onUpdate C.pem .tlsWatcher files certificate writes with
    | (files, none) => ⟨files, none⟩
    | (files, some (.error _)) => ⟨files, some ⟨served, none⟩⟩
    | (files, some (.ok ())) => ⟨files, some ⟨served, acknowledge S arrival sent⟩⟩

/-- What can happen next, and what it leads to. -/
inductive WatchStep : Site Req → WatchEvent Resp → Site Req → Prop where
  | start {files : CertFiles} (now : ℕ) (arrivals : List (Arrival Resp)) (ending : StreamEnd)
      (writes : Write × Write) :
      WatchStep ⟨files, none⟩ (.start now arrivals ending writes)
        (loadDynamic S C files now arrivals ending writes)
  | stop {files : CertFiles} {p : Process Req} : WatchStep ⟨files, some p⟩ .stop ⟨files, none⟩
  | connect {files : CertFiles} {served : String × String} (opened : Bool) :
      WatchStep ⟨files, some ⟨served, none⟩⟩ (.connect opened)
        ⟨files, some ⟨served, if opened then some [S.initial] else none⟩⟩
  | message {files : CertFiles} {served : String × String} {sent : List Req}
      (arrival : Arrival Resp) (writes : Write × Write) :
      WatchStep ⟨files, some ⟨served, some sent⟩⟩ (.message arrival writes)
        (watchRound S C files served sent arrival writes)
  | ended {files : CertFiles} {served : String × String} {sent : List Req} :
      WatchStep ⟨files, some ⟨served, some sent⟩⟩ .ended ⟨files, some ⟨served, none⟩⟩

def WatchRun (site : Site Req) (events : List (WatchEvent Resp)) (site' : Site Req) : Prop :=
  Trace.Run (WatchStep S C) site events site'

/-- The same as a function. -/
def watchNext : Site Req → WatchEvent Resp → Option (Site Req)
  | ⟨files, none⟩, .start now arrivals ending writes =>
    some (loadDynamic S C files now arrivals ending writes)
  | ⟨files, some _⟩, .stop => some ⟨files, none⟩
  | ⟨files, some ⟨served, none⟩⟩, .connect opened =>
    some ⟨files, some ⟨served, if opened then some [S.initial] else none⟩⟩
  | ⟨files, some ⟨served, some sent⟩⟩, .message arrival writes =>
    some (watchRound S C files served sent arrival writes)
  | ⟨files, some ⟨served, some _⟩⟩, .ended => some ⟨files, some ⟨served, none⟩⟩
  | _, _ => none

/-! ## What one round does -/

variable {S C} {files files' : CertFiles} {served : String × String} {sent : List Req}
  {site site' : Site Req}

theorem WatchStep.of_next {e : WatchEvent Resp} (h : watchNext S C site e = some site') :
    WatchStep S C site e site' := by
  unfold watchNext at h
  split at h
  · obtain rfl := Option.some.inj h
    exact .start _ _ _ _
  · obtain rfl := Option.some.inj h
    exact .stop
  · obtain rfl := Option.some.inj h
    exact .connect _
  · obtain rfl := Option.some.inj h
    exact .message _ _
  · obtain rfl := Option.some.inj h
    exact .ended
  · exact absurd h (by simp)

theorem WatchRun.of_exec {events : List (WatchEvent Resp)}
    (h : Trace.exec (watchNext S C) site events = some site') :
    WatchRun S C site events site' := by
  obtain ⟨site₁, hrun, rfl⟩ : ∃ site₁, WatchRun S C site events site₁ ∧ site' = site₁ := by
    refine (Trace.Run.of_exec h).simulate (R := Eq) (L := Eq) ?_ rfl (List.forall₂_refl events)
    rintro s e s₁ _ _ hstep rfl rfl
    exact ⟨s₁, .of_next hstep, rfl⟩
  exact hrun

/-- The files that hold a pair. -/
def filesOf (pair : String × String) : CertFiles :=
  ⟨some (strBytes pair.1), some (strBytes pair.2)⟩

def pairOf (certificate : SdsCertificate) : String × String :=
  (certificate.certPem, certificate.keyPem)

/-- Does the server accept the certificate? -/
def accepted (C : Setting) (certificate : SdsCertificate) : Bool :=
  C.pem.accepts .tlsWatcher certificate.certPem certificate.keyPem

theorem writeCachedCertificate_ok {certPem keyPem : String} {writes : Write × Write}
    (h : writeCachedCertificate files certPem keyPem writes = (files', .ok)) :
    files' = filesOf (certPem, keyPem) := by
  obtain ⟨first, second⟩ := writes
  cases first with
  | failed written => exact absurd (congrArg Prod.snd h) (by simp [writeCachedCertificate])
  | crash written => exact absurd (congrArg Prod.snd h) (by simp [writeCachedCertificate])
  | done =>
      cases second with
      | failed written => exact absurd (congrArg Prod.snd h) (by simp [writeCachedCertificate])
      | crash written => exact absurd (congrArg Prod.snd h) (by simp [writeCachedCertificate])
      | done => exact (congrArg Prod.fst h).symm

/-- An update that returns `Ok` was accepted, and is in the files. -/
theorem onUpdate_ok {certificate : SdsCertificate} {writes : Write × Write}
    (h : onUpdate C.pem .tlsWatcher files certificate writes = (files', some (.ok ()))) :
    accepted C certificate = true ∧ files' = filesOf (pairOf certificate) := by
  unfold onUpdate at h
  split at h
  · rename_i haccepts
    refine ⟨haccepts, ?_⟩
    cases hwrite : writeCachedCertificate files certificate.certPem certificate.keyPem writes with
    | mk written ended =>
        rw [hwrite] at h
        cases ended with
        | ok =>
            obtain rfl : written = files' := (Prod.ext_iff.1 h).1
            exact writeCachedCertificate_ok hwrite
        | err => exact absurd (Prod.ext_iff.1 h).2 (by simp)
        | crashed => exact absurd (Prod.ext_iff.1 h).2 (by simp)
  · exact absurd (Prod.ext_iff.1 h).2 (by simp)

/-- The ways in which a process goes through a round. -/
inductive Round (S : SecretStream Req Resp) (C : Setting) (files : CertFiles)
    (served : String × String) (sent : List Req) (arrival : Arrival Resp) : Site Req → Prop where
  /-- The process crashes in a write. -/
  | crashed (files' : CertFiles) : Round S C files served sent arrival ⟨files', none⟩
  /-- The response cannot be read; the stream is dropped. -/
  | unreadable (err : SdsError) (hextract : S.extract arrival.1 = .error err) :
      Round S C files served sent arrival ⟨files, some ⟨served, none⟩⟩
  /-- It has no certificate for this server. -/
  | nothing (hextract : S.extract arrival.1 = .ok none) :
      Round S C files served sent arrival ⟨files, some ⟨served, acknowledge S arrival sent⟩⟩
  /-- It has one, which is refused or not written; the stream is dropped. -/
  | failed (certificate : SdsCertificate) (files' : CertFiles)
      (hextract : S.extract arrival.1 = .ok (some certificate)) :
      Round S C files served sent arrival
        ⟨files', some ⟨updateFromPem C served certificate, none⟩⟩
  /-- It has one, which is installed and written. -/
  | installed (certificate : SdsCertificate)
      (hextract : S.extract arrival.1 = .ok (some certificate))
      (haccepted : accepted C certificate = true) :
      Round S C files served sent arrival
        ⟨filesOf (pairOf certificate), some ⟨updateFromPem C served certificate,
          acknowledge S arrival sent⟩⟩

theorem watchRound_cases (S : SecretStream Req Resp) (C : Setting) (files : CertFiles)
    (served : String × String) (sent : List Req) (arrival : Arrival Resp)
    (writes : Write × Write) :
    Round S C files served sent arrival (watchRound S C files served sent arrival writes) := by
  unfold watchRound
  cases hextract : S.extract arrival.1 with
  | error err => exact .unreadable err hextract
  | ok found =>
      cases found with
      | none => exact .nothing hextract
      | some certificate =>
          dsimp only
          cases hupdate : onUpdate C.pem .tlsWatcher files certificate writes with
          | mk files' ended =>
              match ended, hupdate with
              | none, _ => exact .crashed files'
              | some (.error _), _ => exact .failed certificate files' hextract
              | some (.ok ()), hupdate =>
                  obtain ⟨haccepted, rfl⟩ := onUpdate_ok hupdate
                  exact .installed certificate hextract haccepted

theorem updateFromPem_of_accepted {certificate : SdsCertificate}
    (h : accepted C certificate = true) :
    updateFromPem C served certificate = pairOf certificate :=
  if_pos h

theorem acknowledge_eq_some {arrival : Arrival Resp} {sent' : List Req}
    (h : acknowledge S arrival sent = some sent') : sent' = sent ++ [S.ack arrival.1] := by
  unfold acknowledge at h
  split at h
  · exact (Option.some.inj h).symm
  · exact absurd h (by simp)

/-! ## What was acknowledged -/

/-- The responses since the stream was opened, from the responses until an event and the event. -/
def opened (responses : List Resp) : WatchEvent Resp → List Resp
  | .message arrival _ => responses ++ [arrival.1]
  | _ => []

/-- The responses that have come since the last event that is not a response. -/
def sinceOpened (events : List (WatchEvent Resp)) : List Resp := events.foldl opened []

/-- The certificates for this server among responses. -/
def certificates (S : SecretStream Req Resp) (responses : List Resp) : List SdsCertificate :=
  responses.filterMap (fun response =>
    match S.extract response with
    | .ok found => found
    | .error _ => none)

theorem sinceOpened_snoc (events : List (WatchEvent Resp)) (e : WatchEvent Resp) :
    sinceOpened (events ++ [e]) = opened (sinceOpened events) e := by
  rw [sinceOpened, List.foldl_append]
  rfl

theorem certificates_snoc_some {responses : List Resp} {response : Resp}
    {certificate : SdsCertificate} (h : S.extract response = .ok (some certificate)) :
    certificates S (responses ++ [response]) = certificates S responses ++ [certificate] := by
  simp [certificates, h]

theorem certificates_snoc_none {responses : List Resp} {response : Resp}
    (h : S.extract response = .ok none) :
    certificates S (responses ++ [response]) = certificates S responses := by
  simp [certificates, h]

/-- What the control plane has been told on the open stream, and that it is so. -/
structure InUse (S : SecretStream Req Resp) (C : Setting) (responses : List Resp)
    (files : CertFiles) (served : String × String) (sent : List Req) : Prop where
  sent_eq : sent = S.initial :: responses.map S.ack
  certificate : ∀ c, (certificates S responses).getLast? = some c →
    accepted C c = true ∧ served = pairOf c ∧ files = filesOf (pairOf c)

/-- A round that ends with the stream open keeps to it. -/
theorem Round.inUse {responses : List Resp} {arrival : Arrival Resp} {sent' : List Req}
    {served' : String × String} (h : Round S C files served sent arrival site)
    (hinUse : InUse S C responses files served sent)
    (hsite : site = ⟨files', some ⟨served', some sent'⟩⟩) :
    InUse S C (responses ++ [arrival.1]) files' served' sent' := by
  have hmap : S.initial :: (responses ++ [arrival.1]).map S.ack
      = sent ++ [S.ack arrival.1] := by
    rw [List.map_append, hinUse.sent_eq]
    rfl
  cases h with
  | crashed files₁ => exact absurd (congrArg Site.process hsite) (by simp)
  | unreadable err hextract => exact absurd (congrArg Site.process hsite) (by simp)
  | failed certificate files₁ hextract => exact absurd (congrArg Site.process hsite) (by simp)
  | nothing hextract =>
      simp only [Site.mk.injEq, Option.some.injEq, Process.mk.injEq] at hsite
      obtain ⟨rfl, rfl, hsent⟩ := hsite
      refine ⟨(acknowledge_eq_some hsent).trans hmap.symm, ?_⟩
      rw [certificates_snoc_none hextract]
      exact hinUse.certificate
  | installed certificate hextract haccepted =>
      simp only [Site.mk.injEq, Option.some.injEq, Process.mk.injEq] at hsite
      obtain ⟨rfl, rfl, hsent⟩ := hsite
      refine ⟨(acknowledge_eq_some hsent).trans hmap.symm, fun c hc => ?_⟩
      rw [certificates_snoc_some hextract, List.getLast?_concat] at hc
      obtain rfl := Option.some.inj hc
      exact ⟨haccepted, updateFromPem_of_accepted haccepted, rfl⟩

/-- Over a whole run. -/
theorem WatchRun.inUse {events : List (WatchEvent Resp)} (hrun : WatchRun S C ⟨files, none⟩ events
    site) : ∀ files' served' sent', site = ⟨files', some ⟨served', some sent'⟩⟩ →
      InUse S C (sinceOpened events) files' served' sent' := by
  refine Trace.Run.invariant (P := fun events site => ∀ files' served' sent',
    site = ⟨files', some ⟨served', some sent'⟩⟩ →
      InUse S C (sinceOpened events) files' served' sent') hrun ?_ ?_
  · intro files' served' sent' hsite
    exact absurd (congrArg Site.process hsite) (by simp)
  · intro events site e site' _ ih hstep files' served' sent' hsite
    rw [sinceOpened_snoc]
    cases hstep with
    | start now arrivals ending writes =>
        -- a server that has just started has no stream
        unfold loadDynamic at hsite
        split at hsite
        · split at hsite
          · exact absurd (congrArg Site.process hsite) (by simp)
          · exact absurd (congrArg Site.process hsite) (by simp)
        · exact absurd (congrArg Site.process hsite) (by simp)
    | stop => exact absurd (congrArg Site.process hsite) (by simp)
    | ended => exact absurd (congrArg Site.process hsite) (by simp)
    | connect isOpen =>
        cases isOpen with
        | false => exact absurd (congrArg Site.process hsite) (by simp)
        | true =>
            simp only [if_true, Site.mk.injEq, Option.some.injEq, Process.mk.injEq] at hsite
            obtain ⟨rfl, rfl, rfl⟩ := hsite
            exact ⟨rfl, fun c hc => absurd hc (by simp [opened, certificates])⟩
    | message arrival writes =>
        exact (watchRound_cases S C _ _ _ arrival writes).inUse (ih _ _ _ rfl) hsite

/-- Whatever the control plane has sent and however streams, writes and processes have ended: what
    has been sent on an open stream is the first request and an acknowledgement of each response
    since then, in order; and the last certificate among these responses was accepted, is served,
    and is in the files. -/
theorem acknowledged_in_use {events : List (WatchEvent Resp)}
    (hrun : WatchRun S C ⟨files, none⟩ events ⟨files', some ⟨served, some sent⟩⟩) :
    sent = S.initial :: (sinceOpened events).map S.ack ∧
      ∀ c, (certificates S (sinceOpened events)).getLast? = some c →
        accepted C c = true ∧ served = pairOf c ∧ files' = filesOf (pairOf c) := by
  have hinUse := hrun.inUse files' served sent rfl
  exact ⟨hinUse.sent_eq, hinUse.certificate⟩

/-! ### A control plane that renews a certificate -/

/-- Two certificates for the server, and a third that it does not accept. -/
def renewingSds : SdsWorld where
  decode
    | [1] => some ⟨"turn-cert", some ⟨some ⟨some (.inlineString "CERT1")⟩,
        some ⟨some (.inlineString "KEY1")⟩⟩⟩
    | [2] => some ⟨"turn-cert", some ⟨some ⟨some (.inlineString "CERT2")⟩,
        some ⟨some (.inlineString "KEY2")⟩⟩⟩
    | [3] => some ⟨"turn-cert", some ⟨some ⟨some (.inlineString "CERT3")⟩,
        some ⟨some (.inlineString "KEY3")⟩⟩⟩
    | _ => none
  read _ := none

def renewingSetting : Setting where
  pem := ⟨fun _ certPem _ => certPem != "CERT3", fun _ => some 4102444800⟩
  errorText _ := "unavailable"
  renewBeforeDays := 30
  resourceName := "turn-cert"

def renewingSubscription : SdsSubscription :=
  ⟨"turn-cert", ⟨"turn-1", "edge"⟩, 10⟩

def renewingStream : SecretStream DiscoveryRequest DiscoveryResponse :=
  sotwStream renewingSds renewingSubscription

/-- The response with one of the certificates. -/
def renewal (value : UInt8) (version nonce : String) : DiscoveryResponse :=
  ⟨version, [⟨secretTypeUrl, [value]⟩], secretTypeUrl, nonce⟩

/-- The server starts with the first certificate; on the stream comes a response without any secret,
    and then the second. -/
def renewingEvents : List (WatchEvent DiscoveryResponse) :=
  [.start 1700000000 [(renewal 1 "v1" "n1", true)] .closed (.done, .done), .connect true,
    .message (⟨"v1", [], secretTypeUrl, "n1"⟩, true) (.done, .done),
    .message (renewal 2 "v2" "n2", true) (.done, .done)]

def renewed : Site DiscoveryRequest :=
  ⟨filesOf ("CERT2", "KEY2"), some ⟨("CERT2", "KEY2"), some
    [renewingSubscription.initialSotwRequest,
      renewingSubscription.ackSotwRequest ⟨"v1", [], secretTypeUrl, "n1"⟩,
      renewingSubscription.ackSotwRequest (renewal 2 "v2" "n2")]⟩⟩

theorem renewingRun :
    WatchRun renewingStream renewingSetting ⟨⟨none, none⟩, none⟩ renewingEvents renewed :=
  .of_exec (by decide +kernel)

/-- Both responses are acknowledged, and the second certificate is served and cached. -/
theorem acknowledged_in_use_renewed :
    renewed.process.bind Process.stream
        = some (renewingStream.initial :: (sinceOpened renewingEvents).map renewingStream.ack) ∧
      (certificates renewingStream (sinceOpened renewingEvents)).getLast?
        = some ⟨"CERT2", "KEY2", "v2", "n2"⟩ ∧
      renewed.files = filesOf ("CERT2", "KEY2") := by
  have h := acknowledged_in_use renewingRun
  have hlast : (certificates renewingStream (sinceOpened renewingEvents)).getLast?
      = some ⟨"CERT2", "KEY2", "v2", "n2"⟩ := by decide +kernel
  exact ⟨congrArg some h.1, hlast, (h.2 _ hlast).2.2⟩

/-! ## What is served -/

/-- The responses of a run. -/
def responses (events : List (WatchEvent Resp)) : List Resp :=
  events.filterMap (fun e =>
    match e with
    | .message arrival _ => some arrival.1
    | _ => none)

def isStart : WatchEvent Resp → Bool
  | .start _ _ _ _ => true
  | _ => false

/-- The last of the certificates that is accepted, or else the pair from before. -/
def lastAccepted (C : Setting) (pair : String × String) (cs : List SdsCertificate) :
    String × String :=
  ((cs.filter (accepted C)).getLast?.map pairOf).getD pair

theorem lastAccepted_snoc (pair : String × String) (cs : List SdsCertificate)
    (c : SdsCertificate) :
    lastAccepted C pair (cs ++ [c]) = updateFromPem C (lastAccepted C pair cs) c := by
  unfold lastAccepted updateFromPem
  rw [List.filter_append]
  by_cases h : accepted C c = true
  · rw [List.filter_cons_of_pos h, List.filter_nil, List.getLast?_concat]
    exact (if_pos h).symm
  · rw [List.filter_cons_of_neg h, List.filter_nil, List.append_nil]
    exact (if_neg h).symm

/-- A round serves the certificate of its response, if it has one that is accepted. -/
theorem Round.served_eq {arrival : Arrival Resp} {p : Process Req}
    (h : Round S C files served sent arrival site) (hp : site.process = some p)
    (pair : String × String) (rs : List Resp)
    (hserved : served = lastAccepted C pair (certificates S rs)) :
    p.served = lastAccepted C pair (certificates S (rs ++ [arrival.1])) := by
  cases h with
  | crashed files₁ => exact absurd hp (by simp)
  | unreadable err hextract =>
      obtain rfl := Option.some.inj hp
      rw [hserved]
      simp [certificates, hextract]
  | nothing hextract =>
      obtain rfl := Option.some.inj hp
      rw [certificates_snoc_none hextract]
      exact hserved
  | failed certificate files₁ hextract =>
      obtain rfl := Option.some.inj hp
      rw [certificates_snoc_some hextract, lastAccepted_snoc, ← hserved]
  | installed certificate hextract haccepted =>
      obtain rfl := Option.some.inj hp
      rw [certificates_snoc_some hextract, lastAccepted_snoc, ← hserved]

theorem responses_snoc (events : List (WatchEvent Resp)) (e : WatchEvent Resp) :
    responses (events ++ [e]) = responses events ++ responses [e] :=
  List.filterMap_append ..

/-- From the start of a process on, whatever comes: it serves the last certificate of the responses
    so far that it accepts, acknowledged or not, and the pair it started with until there is one.
    In particular a certificate is never served with the key of another. -/
theorem served_is_last_accepted {pair : String × String} {events : List (WatchEvent Resp)}
    {p : Process Req} (hrun : WatchRun S C ⟨files, some ⟨pair, none⟩⟩ events site)
    (hsame : ∀ e ∈ events, isStart e = false) (hp : site.process = some p) :
    p.served = lastAccepted C pair (certificates S (responses events)) := by
  refine Trace.Run.invariant (P := fun events site => (∀ e ∈ events, isStart e = false) →
    ∀ p, site.process = some p → p.served = lastAccepted C pair (certificates S (responses events)))
    hrun ?_ ?_ hsame p hp
  · intro _ p hp
    obtain rfl := Option.some.inj hp
    rfl
  · intro events site e site' _ ih hstep hsame p hp
    have hserved := ih (fun e' he' => hsame e' (List.mem_append_left _ he'))
    rw [responses_snoc]
    cases hstep with
    | start now arrivals ending writes =>
        exact absurd (hsame (.start now arrivals ending writes) (by simp)) (by simp [isStart])
    | stop => exact absurd hp (by simp)
    | @connect _ served isOpen =>
        obtain rfl := Option.some.inj hp
        rw [show responses [WatchEvent.connect isOpen] = ([] : List Resp) from rfl, List.append_nil]
        exact hserved ⟨served, none⟩ rfl
    | @ended _ served sent =>
        obtain rfl := Option.some.inj hp
        rw [show responses [WatchEvent.ended] = ([] : List Resp) from rfl, List.append_nil]
        exact hserved ⟨served, some sent⟩ rfl
    | message arrival writes =>
        exact (watchRound_cases S C _ _ _ arrival writes).served_eq hp pair _ (hserved _ rfl)

/-- The second certificate comes and its key cannot be written, so that it is not acknowledged; on
    a new stream comes the third, which is refused. -/
def unwrittenEvents : List (WatchEvent DiscoveryResponse) :=
  [.connect true, .message (renewal 2 "v2" "n2", true) (.done, .failed none), .connect true,
    .message (renewal 3 "v3" "n3", true) (.done, .done)]

/-- The second is served although it was never acknowledged. -/
theorem served_is_last_accepted_unwritten :
    ∃ site p, WatchRun renewingStream renewingSetting
        ⟨filesOf ("CERT1", "KEY1"), some ⟨("CERT1", "KEY1"), none⟩⟩ unwrittenEvents site ∧
      site.process = some p ∧ p.stream = none ∧ p.served = ("CERT2", "KEY2") := by
  have hrun : WatchRun renewingStream renewingSetting
      ⟨filesOf ("CERT1", "KEY1"), some ⟨("CERT1", "KEY1"), none⟩⟩ unwrittenEvents
      ⟨⟨some (strBytes "CERT2"), some (strBytes "KEY1")⟩, some ⟨("CERT2", "KEY2"), none⟩⟩ :=
    .of_exec (by decide +kernel)
  refine ⟨_, _, hrun, rfl, rfl, ?_⟩
  exact (served_is_last_accepted hrun (by decide +kernel) rfl).trans (by decide +kernel)

/-! ## Fetching -/

/-- The loop returns a certificate exactly if one response has it, each before that had none and was
    acknowledged; the response with the certificate is not. -/
theorem waitForCertificate_eq_ok_iff {ending : StreamEnd} {c : SdsCertificate}
    {arrivals : List (Arrival Resp)} {sent sent' : List Req} :
    waitForCertificate S ending arrivals sent = (.ok c, sent') ↔
      ∃ before arrival after, arrivals = before ++ arrival :: after ∧
        (∀ x ∈ before, S.extract x.1 = .ok none ∧ x.2 = true) ∧
        S.extract arrival.1 = .ok (some c) ∧ sent' = sent ++ before.map (fun x => S.ack x.1) := by
  induction arrivals generalizing sent with
  | nil =>
      constructor
      · intro h
        exact absurd (congrArg Prod.fst h) (by cases ending <;> simp [waitForCertificate])
      · rintro ⟨before, arrival, after, heq, -⟩
        exact absurd heq (by simp)
  | cons first arrivals ih =>
      obtain ⟨response, canSend⟩ := first
      rw [waitForCertificate]
      constructor
      · intro h
        cases hextract : S.extract response with
        | error err =>
            rw [hextract] at h
            exact absurd (Prod.ext_iff.1 h).1 (by simp)
        | ok found =>
            rw [hextract] at h
            cases found with
            | some c' =>
                obtain ⟨hc, hsent⟩ : Except.ok c' = Except.ok c ∧ sent = sent' := Prod.ext_iff.1 h
                obtain rfl := Except.ok.inj hc
                obtain rfl := hsent
                exact ⟨[], (response, canSend), arrivals, rfl, by simp, hextract, by simp⟩
            | none =>
                cases canSend with
                | false => exact absurd (Prod.ext_iff.1 h).1 (by simp)
                | true =>
                    obtain ⟨before, arrival, after, rfl, hbefore, hfound, rfl⟩ := ih.1 h
                    refine ⟨(response, true) :: before, arrival, after, rfl, ?_, hfound, by simp⟩
                    rintro x (_ | ⟨_, hx⟩)
                    · exact ⟨hextract, rfl⟩
                    · exact hbefore x hx
      · rintro ⟨before, arrival, after, heq, hbefore, hfound, rfl⟩
        cases before with
        | nil =>
            obtain ⟨rfl, rfl⟩ := List.cons.inj heq
            rw [hfound]
            simp
        | cons x before =>
            obtain ⟨rfl, rfl⟩ := List.cons.inj heq
            obtain ⟨hextract, hsend⟩ := hbefore _ (List.mem_cons_self ..)
            obtain rfl : canSend = true := hsend
            rw [hextract]
            exact ih.2 ⟨before, arrival, after, rfl,
              fun y hy => hbefore y (List.mem_cons_of_mem _ hy), hfound, by simp⟩

/-- The fetch of a start returns the first certificate for this server that comes, provided that
    every response before it could be read and acknowledged. It has acknowledged exactly these
    responses, and not the one with the certificate. -/
theorem fetch_returns_first_certificate {ending : StreamEnd} {c : SdsCertificate}
    {arrivals : List (Arrival Resp)} {requests : List Req} :
    fetchSdsCertificateUpdate S arrivals ending = (.ok c, requests) ↔
      ∃ before arrival after, arrivals = before ++ arrival :: after ∧
        (∀ x ∈ before, S.extract x.1 = .ok none ∧ x.2 = true) ∧
        S.extract arrival.1 = .ok (some c) ∧
        requests = S.initial :: before.map (fun x => S.ack x.1) :=
  waitForCertificate_eq_ok_iff

/-! ## After an acknowledgement -/

theorem readText_strBytes (s : String) : readText (some (strBytes s)) = .ok s := by
  have hdecode : fromUtf8 (strBytes s) = some s := fromUtf8_eq_some.2 rfl
  simp only [readText, hdecode]

theorem loadFromCache_filesOf {P : PemWorld} {days now : ℕ} (name err : String)
    {pair : String × String} (h : cachedCertificateIsUsable P days (filesOf pair) now = .ok true) :
    loadFromCache P days name (filesOf pair) now err = .ok pair := by
  have hcert : readText (filesOf pair).cert = .ok pair.1 := readText_strBytes pair.1
  have hkey : readText (filesOf pair).key = .ok pair.2 := readText_strBytes pair.2
  simp only [loadFromCache, h, hcert, hkey, bind, Except.bind, pure, Except.pure, if_true]

/-- The responses of an event. -/
def received : WatchEvent Resp → List Resp
  | .start _ arrivals _ _ => arrivals.map Prod.fst
  | .message arrival _ => [arrival.1]
  | .stop => []
  | .connect _ => []
  | .ended => []

theorem fetched_of_no_certificate {arrivals : List (Arrival Resp)} (ending : StreamEnd)
    (hnone : certificates S (arrivals.map Prod.fst) = []) :
    ∃ err, fetched S C arrivals ending = .error err := by
  unfold fetched
  cases hfetch : (fetchSdsCertificateUpdate S arrivals ending).1 with
  | error err => exact ⟨_, rfl⟩
  | ok c =>
      obtain ⟨before, arrival, after, rfl, -, hfound, -⟩ :=
        waitForCertificate_eq_ok_iff.1 (Prod.ext hfetch rfl)
      exact absurd hnone (by simp [certificates, hfound])

/-- The server after a start, from the files and the pair it has loaded. -/
def startedWith (Req : Type) (C : Setting) (files : CertFiles) (pair : Option (String × String)) :
    Site Req :=
  match pair with
  | some pair =>
    if C.pem.accepts .tlsWatcher pair.1 pair.2 then ⟨files, some ⟨pair, none⟩⟩ else ⟨files, none⟩
  | none => ⟨files, none⟩

theorem loadDynamic_eq (S : SecretStream Req Resp) (now : ℕ) (arrivals : List (Arrival Resp))
    (ending : StreamEnd) (writes : Write × Write) :
    loadDynamic S C files now arrivals ending writes
      = startedWith Req C
          (loadSdsCertificate C.pem C.renewBeforeDays C.resourceName files now
            (fetched S C arrivals ending) writes).1
          ((loadSdsCertificate C.pem C.renewBeforeDays C.resourceName files now
            (fetched S C arrivals ending) writes).2.bind Except.toOption) := by
  unfold loadDynamic
  rcases loadSdsCertificate C.pem C.renewBeforeDays C.resourceName files now
    (fetched S C arrivals ending) writes with ⟨files', _ | _ | pair⟩ <;> rfl

theorem loadDynamic_of_error {arrivals : List (Arrival Resp)} {ending : StreamEnd} {err : String}
    (hfetched : fetched S C arrivals ending = .error err) (now : ℕ) (writes : Write × Write) :
    loadDynamic S C files now arrivals ending writes
      = startedWith Req C files
          (loadFromCache C.pem C.renewBeforeDays C.resourceName files now err).toOption := by
  rw [loadDynamic_eq, hfetched]
  rfl

/-- The files hold the pair, and it is served while there is a process. -/
structure Keeps (pair : String × String) (site : Site Req) : Prop where
  files : site.files = filesOf pair
  served : ∀ p, site.process = some p → p.served = pair

theorem Keeps.running {pair : String × String} (hfiles : files = filesOf pair)
    (stream : Option (List Req)) : Keeps pair ⟨files, some ⟨pair, stream⟩⟩ := by
  refine ⟨hfiles, fun p hp => ?_⟩
  obtain rfl := Option.some.inj hp
  rfl

theorem Keeps.stopped {pair : String × String} (hfiles : files = filesOf pair) :
    Keeps pair (⟨files, none⟩ : Site Req) :=
  ⟨hfiles, fun p hp => absurd hp (by simp)⟩

/-- A start that gets no certificate serves what is in the files, or nothing. -/
theorem Keeps.load (pair : String × String) {arrivals : List (Arrival Resp)}
    (hnone : certificates S (arrivals.map Prod.fst) = []) (now : ℕ) (ending : StreamEnd)
    (writes : Write × Write) :
    Keeps pair (loadDynamic S C (filesOf pair) now arrivals ending writes) := by
  obtain ⟨err, hfetched⟩ := fetched_of_no_certificate (C := C) ending hnone
  rw [loadDynamic_of_error hfetched]
  cases hcache : loadFromCache C.pem C.renewBeforeDays C.resourceName (filesOf pair) now err with
  | error e => exact .stopped rfl
  | ok pair' =>
      obtain rfl : pair = pair' := by
        have hsame := files_of_loadFromCache hcache
        simp only [filesOf, CertFiles.mk.injEq, Option.some.injEq] at hsame
        exact Prod.ext (strBytes_injective hsame.1) (strBytes_injective hsame.2)
      unfold startedWith
      dsimp only [Except.toOption]
      split
      · exact .running rfl none
      · exact .stopped rfl

/-- Without a further certificate nothing changes. -/
theorem Keeps.step {pair : String × String} {e : WatchEvent Resp} (h : Keeps pair site)
    (hnone : certificates S (received e) = []) (hstep : WatchStep S C site e site') :
    Keeps pair site' := by
  obtain ⟨hfiles, hserved⟩ := h
  cases hstep with
  | stop => exact .stopped hfiles
  | @connect _ served isOpen =>
      obtain rfl : served = pair := hserved ⟨served, none⟩ rfl
      exact .running hfiles _
  | @ended _ served sent =>
      obtain rfl : served = pair := hserved ⟨served, some sent⟩ rfl
      exact .running hfiles _
  | @message files served sent arrival writes =>
      obtain rfl : served = pair := hserved ⟨served, some sent⟩ rfl
      unfold watchRound
      cases hextract : S.extract arrival.1 with
      | error err => exact .running hfiles _
      | ok found =>
          cases found with
          | some certificate => exact absurd hnone (by simp [received, certificates, hextract])
          | none => exact .running hfiles _
  | @start files now arrivals ending writes =>
      obtain rfl : files = filesOf pair := hfiles
      exact .load pair hnone now ending writes

theorem Keeps.run {pair : String × String} {later : List (WatchEvent Resp)} (h : Keeps pair site)
    (hrun : WatchRun S C site later site')
    (hnone : ∀ e ∈ later, certificates S (received e) = []) : Keeps pair site' := by
  refine Trace.Run.invariant_while (P := Keeps pair) hrun hnone h ?_
  intro _ site₁ e site₂ _ he hkeeps hstep
  exact hkeeps.step he hstep

/-- The last certificate that was acknowledged on an open stream outlives the stream and the
    process. Whatever comes later, as long as no response has a further certificate for this server:
    the files hold it with its key, it is served while there is a process, and a start without the
    control plane serves it again unless it is about to expire. -/
theorem acknowledged_survives_restart {events later : List (WatchEvent Resp)} {c : SdsCertificate}
    (hrun : WatchRun S C ⟨files, none⟩ events ⟨files', some ⟨served, some sent⟩⟩)
    (hc : (certificates S (sinceOpened events)).getLast? = some c)
    (hlater : WatchRun S C ⟨files', some ⟨served, some sent⟩⟩ later site)
    (hnone : ∀ e ∈ later, certificates S (received e) = []) :
    Keeps (pairOf c) site ∧
      ∀ now arrivals ending writes, site.process = none →
        certificates S (arrivals.map Prod.fst) = [] →
        cachedCertificateIsUsable C.pem C.renewBeforeDays site.files now = .ok true →
        WatchStep S C site (.start now arrivals ending writes)
          ⟨site.files, some ⟨pairOf c, none⟩⟩ := by
  obtain ⟨haccepted, hserved, hfiles⟩ := (hrun.inUse files' served sent rfl).certificate c hc
  have hkeeps : Keeps (pairOf c) (⟨files', some ⟨served, some sent⟩⟩ : Site Req) := by
    rw [hserved]
    exact .running hfiles _
  have hend := hkeeps.run hlater hnone
  refine ⟨hend, fun now arrivals ending writes hprocess harrivals husable => ?_⟩
  obtain ⟨files₁, process⟩ := site
  obtain rfl : process = none := hprocess
  obtain rfl : files₁ = filesOf (pairOf c) := hend.files
  obtain ⟨err, hfetched⟩ := fetched_of_no_certificate (C := C) ending harrivals
  have hload : loadDynamic S C (filesOf (pairOf c)) now arrivals ending writes
      = ⟨filesOf (pairOf c), some ⟨pairOf c, none⟩⟩ := by
    rw [loadDynamic_of_error hfetched, loadFromCache_filesOf C.resourceName err husable]
    exact if_pos haccepted
  rw [← hload]
  exact .start now arrivals ending writes

/-- The stream with the renewed certificate breaks, another brings a response without a secret, and
    the process stops; a minute later it starts without the control plane. -/
theorem acknowledged_survives_restart_renewed :
    WatchStep renewingStream renewingSetting ⟨filesOf ("CERT2", "KEY2"), none⟩
      (.start 1700000060 [] (.failed (.text "unavailable")) (.done, .done))
      ⟨filesOf ("CERT2", "KEY2"), some ⟨("CERT2", "KEY2"), none⟩⟩ := by
  have hlast : (certificates renewingStream (sinceOpened renewingEvents)).getLast?
      = some ⟨"CERT2", "KEY2", "v2", "n2"⟩ := by decide +kernel
  have hlater : WatchRun renewingStream renewingSetting renewed
      [.ended, .connect true, .message (⟨"v2", [], secretTypeUrl, "n3"⟩, true) (.done, .done),
        .stop]
      ⟨filesOf ("CERT2", "KEY2"), none⟩ := .of_exec (by decide +kernel)
  exact (acknowledged_survives_restart renewingRun hlast hlater (by decide +kernel)).2 1700000060 []
    (.failed (.text "unavailable")) (.done, .done) rfl rfl (by decide +kernel)

/-! ## The two shapes of responses

One stream follows another if related responses have the same certificates and are acknowledged by
related requests. -/

section Following

variable {Req' Resp' : Type} {S' : SecretStream Req' Resp'} {R : Resp → Resp' → Prop}
  {Q : Req → Req' → Prop}

structure Follows (S : SecretStream Req Resp) (S' : SecretStream Req' Resp')
    (R : Resp → Resp' → Prop) (Q : Req → Req' → Prop) : Prop where
  initial : Q S.initial S'.initial
  ack : ∀ r r', R r r' → Q (S.ack r) (S'.ack r')
  extract : ∀ r r', R r r' → SameOutcome (S.extract r) (S'.extract r')

def SameArrival (R : Resp → Resp' → Prop) (x : Arrival Resp) (y : Arrival Resp') : Prop :=
  R x.1 y.1 ∧ x.2 = y.2

inductive SameEvent (R : Resp → Resp' → Prop) : WatchEvent Resp → WatchEvent Resp' → Prop where
  | start (now : ℕ) {xs : List (Arrival Resp)} {ys : List (Arrival Resp')}
      (h : List.Forall₂ (SameArrival R) xs ys) (ending : StreamEnd) (writes : Write × Write) :
      SameEvent R (.start now xs ending writes) (.start now ys ending writes)
  | stop : SameEvent R .stop .stop
  | connect (opened : Bool) : SameEvent R (.connect opened) (.connect opened)
  | message {x : Arrival Resp} {y : Arrival Resp'} (h : SameArrival R x y)
      (writes : Write × Write) : SameEvent R (.message x writes) (.message y writes)
  | ended : SameEvent R .ended .ended

/-- The same pair is served, and related requests have been sent. -/
structure SameProcess (Q : Req → Req' → Prop) (p : Process Req) (p' : Process Req') : Prop where
  served : p.served = p'.served
  stream : Option.Rel (List.Forall₂ Q) p.stream p'.stream

structure SameSite (Q : Req → Req' → Prop) (site : Site Req) (site' : Site Req') : Prop where
  files : site.files = site'.files
  process : Option.Rel (SameProcess Q) site.process site'.process

theorem waitForCertificate_same (h : Follows S S' R Q) (ending : StreamEnd)
    {xs : List (Arrival Resp)} {ys : List (Arrival Resp')}
    (hsame : List.Forall₂ (SameArrival R) xs ys) (sent : List Req) (sent' : List Req') :
    SameOutcome (waitForCertificate S ending xs sent).1
      (waitForCertificate S' ending ys sent').1 := by
  induction hsame generalizing sent sent' with
  | nil => cases ending <;> exact .fail _ _
  | @cons x y xs ys hxy _ ih =>
      obtain ⟨response, canSend⟩ := x
      obtain ⟨response', canSend'⟩ := y
      obtain ⟨hR, hsend⟩ := hxy
      obtain rfl : canSend = canSend' := hsend
      have hextract := h.extract response response' hR
      rw [waitForCertificate, waitForCertificate]
      generalize S.extract response = found, S'.extract response' = found' at hextract
      cases hextract with
      | fail e e' => exact .fail e e'
      | same found =>
          cases found with
          | some c => exact .same c
          | none =>
              cases canSend with
              | false => exact .fail _ _
              | true => exact ih _ _

/-- What is left of a start when it is not asked why it failed. -/
theorem loadFromCache_same (P : PemWorld) (days : ℕ) (name : String) (files : CertFiles) (now : ℕ)
    (err err' : String) :
    (loadFromCache P days name files now err).toOption
      = (loadFromCache P days name files now err').toOption := by
  unfold loadFromCache
  cases cachedCertificateIsUsable P days files now with
  | error e => rfl
  | ok usable => cases usable <;> rfl

theorem startedWith_same (Q : Req → Req' → Prop) (files : CertFiles)
    (pair : Option (String × String)) :
    SameSite Q (startedWith Req C files pair) (startedWith Req' C files pair) := by
  unfold startedWith
  cases pair with
  | none => exact ⟨rfl, .none⟩
  | some pair =>
      dsimp only
      split
      · exact ⟨rfl, .some ⟨rfl, .none⟩⟩
      · exact ⟨rfl, .none⟩

/-- Both starts end with the same pair, or both fail. -/
theorem loadDynamic_same (h : Follows S S' R Q) (now : ℕ) (ending : StreamEnd)
    (writes : Write × Write) {xs : List (Arrival Resp)} {ys : List (Arrival Resp')}
    (hsame : List.Forall₂ (SameArrival R) xs ys) :
    SameSite Q (loadDynamic S C files now xs ending writes)
      (loadDynamic S' C files now ys ending writes) := by
  have hfetched := waitForCertificate_same h ending hsame [S.initial] [S'.initial]
  rw [loadDynamic_eq, loadDynamic_eq, fetched, fetched, fetchSdsCertificateUpdate,
    fetchSdsCertificateUpdate]
  generalize (waitForCertificate S ending xs [S.initial]).1 = a,
    (waitForCertificate S' ending ys [S'.initial]).1 = b at hfetched
  cases hfetched with
  | same certificate => exact startedWith_same Q _ _
  | fail e e' =>
      -- both fall back on the cache, with other texts for the same failures
      have hcache := loadFromCache_same C.pem C.renewBeforeDays C.resourceName files now
        (C.errorText e) (C.errorText e')
      simp only [loadSdsCertificate, Option.bind_some, hcache]
      exact startedWith_same Q _ _

theorem acknowledge_same (h : Follows S S' R Q) {x : Arrival Resp} {y : Arrival Resp'}
    (hxy : SameArrival R x y) {sent : List Req} {sent' : List Req'}
    (hsent : List.Forall₂ Q sent sent') :
    Option.Rel (List.Forall₂ Q) (acknowledge S x sent) (acknowledge S' y sent') := by
  unfold acknowledge
  rw [hxy.2]
  split
  · exact .some (List.rel_append hsent (.cons (h.ack _ _ hxy.1) .nil))
  · exact .none

/-- The two take the same way through a round. -/
theorem watchRound_same (h : Follows S S' R Q) (files : CertFiles) (served : String × String)
    {x : Arrival Resp} {y : Arrival Resp'} (hxy : SameArrival R x y) {sent : List Req}
    {sent' : List Req'} (hsent : List.Forall₂ Q sent sent') (writes : Write × Write) :
    SameSite Q (watchRound S C files served sent x writes)
      (watchRound S' C files served sent' y writes) := by
  have hextract := h.extract x.1 y.1 hxy.1
  have hack := acknowledge_same h hxy hsent
  unfold watchRound
  generalize S.extract x.1 = found, S'.extract y.1 = found' at hextract
  cases hextract with
  | fail e e' => exact ⟨rfl, .some ⟨rfl, .none⟩⟩
  | same found =>
      cases found with
      | none => exact ⟨rfl, .some ⟨rfl, hack⟩⟩
      | some certificate =>
          dsimp only
          rcases onUpdate C.pem .tlsWatcher files certificate writes with ⟨files', _ | _ | _⟩
          · exact ⟨rfl, .none⟩
          · exact ⟨rfl, .some ⟨rfl, .none⟩⟩
          · exact ⟨rfl, .some ⟨rfl, hack⟩⟩

theorem SameSite.step (h : Follows S S' R Q) (site : Site Req) (e : WatchEvent Resp)
    (site₁ : Site Req) (site' : Site Req') (e' : WatchEvent Resp')
    (hstep : WatchStep S C site e site₁) (hsite : SameSite Q site site') (he : SameEvent R e e') :
    ∃ site₁', WatchStep S' C site' e' site₁' ∧ SameSite Q site₁ site₁' := by
  obtain ⟨files', process'⟩ := site'
  obtain ⟨hfiles, hprocess⟩ := hsite
  cases hstep with
  | start now arrivals ending writes =>
      obtain rfl := hfiles
      cases hprocess
      cases he with
      | start _ hsame _ _ =>
          exact ⟨_, .start now _ ending writes, loadDynamic_same h now ending writes hsame⟩
  | stop =>
      obtain rfl := hfiles
      cases he
      cases hprocess with
      | some hp => exact ⟨_, .stop, rfl, .none⟩
  | connect isOpen =>
      obtain rfl := hfiles
      cases he
      cases hprocess with
      | @some _ p' hp =>
          obtain ⟨served', stream'⟩ := p'
          obtain ⟨rfl, hstream⟩ := hp
          cases hstream
          refine ⟨_, .connect isOpen, rfl, .some ⟨rfl, ?_⟩⟩
          cases isOpen with
          | false => exact .none
          | true => exact .some (.cons h.initial .nil)
  | message arrival writes =>
      obtain rfl := hfiles
      cases hprocess with
      | @some _ p' hp =>
          obtain ⟨served', stream'⟩ := p'
          obtain ⟨rfl, hstream⟩ := hp
          cases hstream with
          | some hsent =>
              cases he with
              | message hxy _ =>
                  exact ⟨_, .message _ writes, watchRound_same h _ _ hxy hsent writes⟩
  | ended =>
      obtain rfl := hfiles
      cases he
      cases hprocess with
      | @some _ p' hp =>
          obtain ⟨served', stream'⟩ := p'
          obtain ⟨rfl, hstream⟩ := hp
          cases hstream with
          | some hsent => exact ⟨_, .ended, rfl, .some ⟨rfl, .none⟩⟩

end Following

/-- A response of the one shape and its counterpart of the other. -/
structure Rewraps (w : SdsWorld) (sotw : DiscoveryResponse) (delta : DeltaDiscoveryResponse) :
    Prop where
  resources : List.Forall₂ (Wraps w) sotw.resources delta.resources
  version : delta.systemVersionInfo = sotw.versionInfo
  typeUrl : delta.typeUrl = sotw.typeUrl
  nonce : delta.nonce = sotw.nonce
  removed : delta.removedResources = []

/-- A request of the one shape and its counterpart of the other: they acknowledge the same. -/
structure SameRequest (sotw : DiscoveryRequest) (delta : DeltaDiscoveryRequest) : Prop where
  node : delta.node = sotw.node
  typeUrl : delta.typeUrl = sotw.typeUrl
  nonce : delta.responseNonce = sotw.responseNonce

theorem follows_delta (w : SdsWorld) (s : SdsSubscription) :
    Follows (sotwStream w s) (deltaStream w s) (Rewraps w) SameRequest where
  initial := ⟨rfl, rfl, rfl⟩
  ack _ _ h := ⟨rfl, rfl, h.nonce⟩
  extract sotw delta h := by
    show SameOutcome (tryExtractCertificateFromSotwResponse w sotw s.resourceName)
      (tryExtractCertificateFromDeltaResponse w delta s.resourceName)
    unfold tryExtractCertificateFromSotwResponse tryExtractCertificateFromDeltaResponse
    rw [h.typeUrl, h.removed, List.any_nil,
      deltaLoop_eq_sotwLoop h.resources sotw delta h.version h.nonce s.resourceName]
    split
    · exact .fail _ _
    · exact .refl _

/-- Which of the two shapes is configured does not matter to the server: when the control plane
    sends the same secrets either way, with the same streams, writes and restarts, the server with
    delta streams can do what the one with plain streams does. It then has the same files, serves
    the same pair, and has acknowledged the same responses on its stream. -/
theorem delta_follows_sotw (w : SdsWorld) (s : SdsSubscription) (C : Setting) {files : CertFiles}
    {events : List (WatchEvent DiscoveryResponse)}
    {events' : List (WatchEvent DeltaDiscoveryResponse)} {site : Site DiscoveryRequest}
    (hrun : WatchRun (sotwStream w s) C ⟨files, none⟩ events site)
    (hevents : List.Forall₂ (SameEvent (Rewraps w)) events events') :
    ∃ site' : Site DeltaDiscoveryRequest,
      WatchRun (deltaStream w s) C ⟨files, none⟩ events' site' ∧
        SameSite SameRequest site site' :=
  Trace.Run.simulate (SameSite.step (follows_delta w s)) hrun ⟨rfl, .none⟩ hevents

/-- The response with one of the certificates, of the other shape. -/
def renewalDelta (value : UInt8) (version nonce : String) : DeltaDiscoveryResponse :=
  ⟨version, [⟨"", some ⟨secretTypeUrl, [value]⟩, "turn-cert"⟩], secretTypeUrl, nonce, []⟩

def renewingDeltaEvents : List (WatchEvent DeltaDiscoveryResponse) :=
  [.start 1700000000 [(renewalDelta 1 "v1" "n1", true)] .closed (.done, .done), .connect true,
    .message (⟨"v1", [], secretTypeUrl, "n1", []⟩, true) (.done, .done),
    .message (renewalDelta 2 "v2" "n2", true) (.done, .done)]

theorem rewraps_renewal {value : UInt8} (version nonce : String)
    (hname : ∀ secret, renewingSds.decode [value] = some secret → "turn-cert" = secret.name) :
    Rewraps renewingSds (renewal value version nonce) (renewalDelta value version nonce) :=
  ⟨.cons ⟨rfl, hname, rfl⟩ .nil, rfl, rfl, rfl, rfl⟩

/-- The renewal over delta streams. -/
theorem delta_follows_sotw_renewed :
    ∃ site', WatchRun (deltaStream renewingSds renewingSubscription) renewingSetting
        ⟨⟨none, none⟩, none⟩ renewingDeltaEvents site' ∧ SameSite SameRequest renewed site' := by
  have h₁ : SameArrival (Rewraps renewingSds) (renewal 1 "v1" "n1", true)
      (renewalDelta 1 "v1" "n1", true) :=
    ⟨rewraps_renewal _ _ (fun secret h => by obtain rfl := Option.some.inj h; rfl), rfl⟩
  have h₂ : SameArrival (Rewraps renewingSds) (⟨"v1", [], secretTypeUrl, "n1"⟩, true)
      (⟨"v1", [], secretTypeUrl, "n1", []⟩, true) :=
    ⟨⟨.nil, rfl, rfl, rfl, rfl⟩, rfl⟩
  have h₃ : SameArrival (Rewraps renewingSds) (renewal 2 "v2" "n2", true)
      (renewalDelta 2 "v2" "n2", true) :=
    ⟨rewraps_renewal _ _ (fun secret h => by obtain rfl := Option.some.inj h; rfl), rfl⟩
  exact delta_follows_sotw renewingSds renewingSubscription renewingSetting renewingRun
    (.cons (.start _ (.cons h₁ .nil) _ _) (.cons (.connect true)
      (.cons (.message h₂ _) (.cons (.message h₃ _) .nil))))

end Miuturn.SdsWatch
