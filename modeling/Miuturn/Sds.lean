import Miuturn.RustStd.Utf8

set_option autoImplicit false

/-! # Certificates from the control plane (`sds.rs`)

A control plane sends secrets in one of two shapes: the whole state in a `DiscoveryResponse`, or a
change of it in a `DeltaDiscoveryResponse`. Each has a loop of its own that looks for the secret
that was asked for. The loops skip, fail and match in slightly different places; for the same
secrets they come to the same end (`sotw_delta_agree`).

Decoding a protobuf message is any partial function, and so is reading a file. -/

open RustStd

namespace Miuturn

/-! ## Messages -/

def secretTypeUrl : String := "type.googleapis.com/envoy.extensions.transport_sockets.tls.v3.Secret"

/-- `google.protobuf.Any`. -/
structure Any where
  typeUrl : String
  value : Bytes
  deriving DecidableEq

/-- The `oneof` of a `DataSource`. -/
inductive Specifier where
  | filename (path : String)
  | inlineBytes (value : Bytes)
  | inlineString (value : String)
  deriving DecidableEq

structure DataSource where
  specifier : Option Specifier
  deriving DecidableEq

structure TlsCertificate where
  certificateChain : Option DataSource
  privateKey : Option DataSource
  deriving DecidableEq

/-- A secret; a TLS certificate is the only type it can have. -/
structure Secret where
  name : String
  type : Option TlsCertificate
  deriving DecidableEq

structure DiscoveryResponse where
  versionInfo : String
  resources : List Any
  typeUrl : String
  nonce : String
  deriving DecidableEq

structure Resource where
  version : String
  resource : Option Any
  name : String
  deriving DecidableEq

structure DeltaDiscoveryResponse where
  systemVersionInfo : String
  resources : List Resource
  typeUrl : String
  nonce : String
  removedResources : List String
  deriving DecidableEq

structure SdsCertificate where
  certPem : String
  keyPem : String
  versionInfo : String
  nonce : String
  deriving DecidableEq

/-- The boxed errors: a text of `sds.rs`, or the error of a call. -/
inductive SdsError where
  | text (message : String)
  | decode
  | utf8
  | io
  deriving DecidableEq

/-! ## The secret that was asked for -/

/-- What the program takes from outside: `Secret::decode` and `fs::read`. -/
structure SdsWorld where
  decode : Bytes → Option Secret
  read : String → Option Bytes

variable (w : SdsWorld)

/-- `String::from_utf8(value)?`. -/
def utf8OrError (value : Bytes) : Except SdsError String :=
  match fromUtf8 value with
  | some s => .ok s
  | none => .error .utf8

/-- `data_source_to_string`. -/
def dataSourceToString (dataSource : Option DataSource) (fieldName : String) :
    Except SdsError String :=
  match dataSource with
  | none => .error (.text ("SDS " ++ fieldName ++ " is missing"))
  | some source =>
    match source.specifier with
    | some (.inlineString value) => .ok value
    | some (.inlineBytes value) => utf8OrError value
    | some (.filename path) =>
      match w.read path with
      | some value => utf8OrError value
      | none => .error .io
    | none => .error (.text ("SDS " ++ fieldName ++ " has no data source specifier"))

/-- `extract_certificate_from_secret`: the certificate and its key. -/
def extractCertificateFromSecret (secret : Secret) : Except SdsError (String × String) :=
  match secret.type with
  | none => .error (.text ("SDS secret \"" ++ secret.name ++ "\" is not a TLS certificate"))
  | some tlsCertificate => do
    let certChain ← dataSourceToString w tlsCertificate.certificateChain
      "tls_certificate.certificate_chain"
    let privateKey ← dataSourceToString w tlsCertificate.privateKey "tls_certificate.private_key"
    pure (certChain, privateKey)

/-- The loop of `try_extract_certificate_from_sotw_response` over the resources that are left. -/
def sotwLoop (response : DiscoveryResponse) (resourceName : String) :
    List Any → Except SdsError (Option SdsCertificate)
  | [] => .ok none
  | resource :: resources =>
    if resource.typeUrl ≠ secretTypeUrl then sotwLoop response resourceName resources
    else
      match w.decode resource.value with
      | none => .error .decode
      | some secret =>
        if secret.name ≠ resourceName then sotwLoop response resourceName resources
        else do
          let (certPem, keyPem) ← extractCertificateFromSecret w secret
          pure (some ⟨certPem, keyPem, response.versionInfo, response.nonce⟩)

/-- `try_extract_certificate_from_sotw_response`. -/
def tryExtractCertificateFromSotwResponse (response : DiscoveryResponse) (resourceName : String) :
    Except SdsError (Option SdsCertificate) :=
  if response.typeUrl ≠ secretTypeUrl then
    .error (.text ("unexpected SDS DiscoveryResponse type_url \"" ++ response.typeUrl ++ "\""))
  else sotwLoop w response resourceName response.resources

/-- The loop of `try_extract_certificate_from_delta_response` over the resources that are left. -/
def deltaLoop (response : DeltaDiscoveryResponse) (resourceName : String) :
    List Resource → Except SdsError (Option SdsCertificate)
  | [] => .ok none
  | resource :: resources =>
    match resource.resource with
    | none => deltaLoop response resourceName resources
    | some any =>
      if any.typeUrl ≠ secretTypeUrl then deltaLoop response resourceName resources
      else
        match w.decode any.value with
        | none => .error .decode
        | some secret =>
          if resource.name ≠ resourceName ∧ secret.name ≠ resourceName then
            deltaLoop response resourceName resources
          else do
            let (certPem, keyPem) ← extractCertificateFromSecret w secret
            let versionInfo :=
              if resource.version.isEmpty then response.systemVersionInfo else resource.version
            pure (some ⟨certPem, keyPem, versionInfo, response.nonce⟩)

/-- `try_extract_certificate_from_delta_response`. -/
def tryExtractCertificateFromDeltaResponse (response : DeltaDiscoveryResponse)
    (resourceName : String) : Except SdsError (Option SdsCertificate) :=
  if response.typeUrl ≠ secretTypeUrl then
    .error
      (.text ("unexpected Delta SDS DiscoveryResponse type_url \"" ++ response.typeUrl ++ "\""))
  else if response.removedResources.any (fun name => name == resourceName) then .ok none
  else deltaLoop w response resourceName response.resources

/-! ## The two shapes agree -/

/-- The delta resource is the secret resource under the name of its secret, and under any name if
    it does not decode, without a version of its own. -/
structure Wraps (w : SdsWorld) (any : Any) (resource : Resource) : Prop where
  payload : resource.resource = some any
  name : ∀ secret, w.decode any.value = some secret → resource.name = secret.name
  version : resource.version = ""

/-- Both fail, or both return the same. -/
inductive SameOutcome {α : Type} : Except SdsError α → Except SdsError α → Prop
  | fail (e e' : SdsError) : SameOutcome (.error e) (.error e')
  | same (a : α) : SameOutcome (.ok a) (.ok a)

theorem SameOutcome.refl {α : Type} (x : Except SdsError α) : SameOutcome x x := by
  cases x with
  | error e => exact .fail e e
  | ok a => exact .same a

variable {w}

/-- The loops take the same way through resources that wrap each other. -/
theorem deltaLoop_eq_sotwLoop {resources : List Any} {wrapped : List Resource}
    (h : List.Forall₂ (Wraps w) resources wrapped) (sotw : DiscoveryResponse)
    (delta : DeltaDiscoveryResponse) (hversion : delta.systemVersionInfo = sotw.versionInfo)
    (hnonce : delta.nonce = sotw.nonce) (resourceName : String) :
    deltaLoop w delta resourceName wrapped = sotwLoop w sotw resourceName resources := by
  induction h with
  | nil => rfl
  | @cons any resource resources wrapped hwraps _ ih =>
      rw [deltaLoop, hwraps.payload, sotwLoop]
      dsimp only
      by_cases htype : any.typeUrl ≠ secretTypeUrl
      · rw [if_pos htype, if_pos htype, ih]
      · rw [if_neg htype, if_neg htype]
        cases hsecret : w.decode any.value with
        | none => rfl
        | some secret =>
            -- the two tests of the name are one, as the resource has the name of its secret
            rw [hwraps.name secret hsecret, hwraps.version, hversion, hnonce]
            by_cases hname : secret.name ≠ resourceName
            · simp only [hname, ne_eq, not_false_eq_true, and_self, if_true, ih]
            · simp only [hname, and_self, if_false]
              rfl

/-- The same secrets in a `DiscoveryResponse` and, wrapped under their names, in a
    `DeltaDiscoveryResponse` with the same type, nonce and version and with nothing removed: for
    every name that is asked for both fail, both find nothing, or both find the same certificate and
    key with the same version and nonce. -/
theorem sotw_delta_agree (resourceName typeUrl nonce version : String) {resources : List Any}
    {wrapped : List Resource} (hwrapped : List.Forall₂ (Wraps w) resources wrapped) :
    SameOutcome
      (tryExtractCertificateFromSotwResponse w ⟨version, resources, typeUrl, nonce⟩ resourceName)
      (tryExtractCertificateFromDeltaResponse w ⟨version, wrapped, typeUrl, nonce, []⟩
        resourceName) := by
  unfold tryExtractCertificateFromSotwResponse tryExtractCertificateFromDeltaResponse
  by_cases htype : typeUrl ≠ secretTypeUrl
  · rw [if_pos htype, if_pos htype]
    exact .fail _ _
  · rw [if_neg htype, if_neg htype, List.any_nil, if_neg (by decide),
      deltaLoop_eq_sotwLoop hwrapped ⟨version, resources, typeUrl, nonce⟩ _ rfl rfl resourceName]
    exact .refl _

/-! ## A control plane -/

/-- It knows two secrets: one for the server, and one for somebody else that is no certificate. -/
def sampleSds : SdsWorld where
  decode
    | [1] => some ⟨"turn-cert", some ⟨some ⟨some (.inlineString "CERT")⟩,
        some ⟨some (.inlineBytes (strBytes "KEY"))⟩⟩⟩
    | [2] => some ⟨"other", none⟩
    | _ => none
  read _ := none

def sampleSecrets : List Any :=
  [⟨"type.googleapis.com/other", [3]⟩, ⟨secretTypeUrl, [2]⟩, ⟨secretTypeUrl, [1]⟩,
    ⟨secretTypeUrl, [3]⟩]

def sampleResources : List Resource :=
  [⟨"", some ⟨"type.googleapis.com/other", [3]⟩, "turn-cert"⟩,
    ⟨"", some ⟨secretTypeUrl, [2]⟩, "other"⟩, ⟨"", some ⟨secretTypeUrl, [1]⟩, "turn-cert"⟩,
    ⟨"", some ⟨secretTypeUrl, [3]⟩, "broken"⟩]

/-- Both skip two resources, find the certificate in the third and do not come to the one that does
    not decode. -/
theorem sotw_delta_agree_third :
    SameOutcome
      (tryExtractCertificateFromSotwResponse sampleSds ⟨"v1", sampleSecrets, secretTypeUrl, "n1"⟩
        "turn-cert")
      (tryExtractCertificateFromDeltaResponse sampleSds
        ⟨"v1", sampleResources, secretTypeUrl, "n1", []⟩ "turn-cert") ∧
    tryExtractCertificateFromSotwResponse sampleSds ⟨"v1", sampleSecrets, secretTypeUrl, "n1"⟩
      "turn-cert" = .ok (some ⟨"CERT", "KEY", "v1", "n1"⟩) := by
  refine ⟨sotw_delta_agree "turn-cert" secretTypeUrl "n1" "v1"
    (.cons ⟨rfl, ?_, rfl⟩ (.cons ⟨rfl, ?_, rfl⟩
      (.cons ⟨rfl, ?_, rfl⟩ (.cons ⟨rfl, ?_, rfl⟩ .nil)))),
    by decide +kernel⟩
  · intro secret hsecret
    exact absurd hsecret (by simp [sampleSds])
  · intro secret hsecret
    obtain rfl := Option.some.inj hsecret
    rfl
  · intro secret hsecret
    obtain rfl := Option.some.inj hsecret
    rfl
  · intro secret hsecret
    exact absurd hsecret (by simp [sampleSds])

end Miuturn
