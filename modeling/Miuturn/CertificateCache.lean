import Mathlib.Data.List.Induction
import Miuturn.Sds

set_option autoImplicit false

/-! # The certificate cache (`tls.rs`)

Every certificate from the control plane is kept in two files, so that a server can start while the
control plane is down. Three places write them, all by `write_cached_certificate`:
`load_sds_certificate` at the start of a listener, and the two watchers for every update. Only
`load_sds_certificate` reads them, when it cannot fetch a certificate.

The files are written one after the other, and each `fs::write` first truncates its file. So a write
can fail, or the process can crash in it, with the file untouched or with any number of the new
bytes in it. What is on the disk is all that survives a crash. A pair stays together if the write
that does not get through leaves its file alone, and if the key's finds its certificate in place.

PEM and X.509 parsing is any fixed function; reading a file that is there does not fail. -/

open RustStd

namespace Miuturn

/-! ## Files -/

/-- The two files of a cache; `none` for one that does not exist. -/
structure CertFiles where
  cert : Option Bytes
  key : Option Bytes
  deriving DecidableEq

/-- How an `fs::write` ends. One that fails or that the process crashes in left the file as it was
    (`none`) or truncated it and wrote so many bytes. -/
inductive Write where
  | done
  | failed (written : Option ℕ)
  | crash (written : Option ℕ)
  deriving DecidableEq

/-- The file after a write that did not get through. -/
def cutWrite (old : Option Bytes) (data : Bytes) : Option ℕ → Option Bytes
  | none => old
  | some n => some (data.take n)

/-- How a call ends: it returns `Ok` or `Err`, or the process is gone. -/
inductive Ended where
  | ok
  | err
  | crashed
  deriving DecidableEq

/-- `write_cached_certificate`. -/
def writeCachedCertificate (files : CertFiles) (certPem keyPem : String) :
    Write × Write → CertFiles × Ended
  | (.failed written, _) =>
    ({ files with cert := cutWrite files.cert (strBytes certPem) written }, .err)
  | (.crash written, _) =>
    ({ files with cert := cutWrite files.cert (strBytes certPem) written }, .crashed)
  | (.done, .failed written) =>
    (⟨some (strBytes certPem), cutWrite files.key (strBytes keyPem) written⟩, .err)
  | (.done, .crash written) =>
    (⟨some (strBytes certPem), cutWrite files.key (strBytes keyPem) written⟩, .crashed)
  | (.done, .done) => (⟨some (strBytes certPem), some (strBytes keyPem)⟩, .ok)

/-! ## Loading and updating -/

/-- Where an accepted pair is written from. -/
inductive UpdatePath where
  | load
  | tlsWatcher
  | cacheWatcher
  deriving DecidableEq

/-- What the program takes from outside: whether it accepts a pair (`from_pem`, for the TLS watcher
    with a key that can sign), and the end of validity of the first certificate of a chain, in
    seconds since the epoch. -/
structure PemWorld where
  accepts : UpdatePath → String → String → Bool
  notAfter : Bytes → Option ℤ

/-- The boxed errors of `load_sds_certificate`. -/
inductive LoadError where
  | pem
  | write
  | certificate
  | io
  | utf8
  | text (message : String)
  deriving DecidableEq

/-- `n as i64` for a `u64`. -/
def asI64 (n : ℕ) : ℤ := if n < 2 ^ 63 then n else n - 2 ^ 64

/-- `i64::saturating_sub`. -/
def saturatingSubI64 (x y : ℤ) : ℤ := max (-2 ^ 63) (min (x - y) (2 ^ 63 - 1))

variable (P : PemWorld) (renewBeforeDays : ℕ) (resourceName : String)

/-- `cached_certificate_is_usable`, at `now` seconds since the epoch. It does not look into the key
    file. -/
def cachedCertificateIsUsable (files : CertFiles) (now : ℕ) : Except LoadError Bool :=
  match files.cert, files.key with
  | some certData, some _ =>
    match P.notAfter certData with
    | none => .error .certificate
    | some notAfter =>
      let renewBefore := min (renewBeforeDays * (24 * 60 * 60)) (2 ^ 64 - 1)
      .ok (decide (asI64 now < saturatingSubI64 notAfter (asI64 renewBefore)))
  | _, _ => .ok false

/-- `String::from_utf8(fs::read(path)?)?`. -/
def readText : Option Bytes → Except LoadError String
  | none => .error .io
  | some data =>
    match fromUtf8 data with
    | some s => .ok s
    | none => .error .utf8

/-- The second half of `load_sds_certificate`, after the control plane gave `err`. -/
def loadFromCache (files : CertFiles) (now : ℕ) (err : String) :
    Except LoadError (String × String) := do
  if ← cachedCertificateIsUsable P renewBeforeDays files now then
    let certPem ← readText files.cert
    let keyPem ← readText files.key
    pure (certPem, keyPem)
  else
    .error (.text ("failed to fetch SDS certificate for resource \"" ++ resourceName ++
      "\" and no usable cache was found: " ++ err))

/-- `load_sds_certificate`, with what the control plane gave; no result if the process crashed. -/
def loadSdsCertificate (files : CertFiles) (now : ℕ) (fetched : Except String (String × String))
    (writes : Write × Write) : CertFiles × Option (Except LoadError (String × String)) :=
  match fetched with
  | .ok (certPem, keyPem) =>
    if P.accepts .load certPem keyPem then
      match writeCachedCertificate files certPem keyPem writes with
      | (files, .ok) => (files, some (.ok (certPem, keyPem)))
      | (files, .err) => (files, some (.error .write))
      | (files, .crashed) => (files, none)
    else (files, some (.error .pem))
  | .error err => (files, some (loadFromCache P renewBeforeDays resourceName files now err))

/-- The `on_update` of a watcher. -/
def onUpdate (path : UpdatePath) (files : CertFiles) (certificate : SdsCertificate)
    (writes : Write × Write) : CertFiles × Option (Except LoadError Unit) :=
  if P.accepts path certificate.certPem certificate.keyPem then
    match writeCachedCertificate files certificate.certPem certificate.keyPem writes with
    | (files, .ok) => (files, some (.ok ()))
    | (files, .err) => (files, some (.error .write))
    | (files, .crashed) => (files, none)
  else (files, some (.error .pem))

/-! ## Runs -/

/-- What happens to a cache: a listener starts, as after every restart, or a watcher gets an update;
    with how the writes end, if it comes to them. -/
inductive CacheEvent where
  | start (now : ℕ) (fetched : Except String (String × String)) (writes : Write × Write)
  | update (path : UpdatePath) (certificate : SdsCertificate) (writes : Write × Write)

namespace CacheEvent

/-- The pair that the control plane delivered. -/
def delivered : CacheEvent → List (String × String)
  | start _ (.ok pair) _ => [pair]
  | start _ (.error _) _ => []
  | update _ certificate _ => [(certificate.certPem, certificate.keyPem)]

/-- The files afterwards. -/
def apply (files : CertFiles) : CacheEvent → CertFiles
  | start now fetched writes =>
    (loadSdsCertificate P renewBeforeDays resourceName files now fetched writes).1
  | update path certificate writes => (onUpdate P path files certificate writes).1

/-- The pair it writes, and how: nothing without a delivery or for a pair that is not accepted. -/
def saves : CacheEvent → Option ((String × String) × (Write × Write))
  | start _ (.ok pair) writes =>
    if P.accepts .load pair.1 pair.2 then some (pair, writes) else none
  | start _ (.error _) _ => none
  | update path certificate writes =>
    if P.accepts path certificate.certPem certificate.keyPem then
      some ((certificate.certPem, certificate.keyPem), writes)
    else none

end CacheEvent

/-- The files after a run that starts without a cache. -/
def filesAfter (events : List CacheEvent) : CertFiles :=
  events.foldl (CacheEvent.apply P renewBeforeDays resourceName) ⟨none, none⟩

/-- The pairs that the control plane delivered in a run. -/
def deliveredIn (events : List CacheEvent) : List (String × String) :=
  events.flatMap CacheEvent.delivered

/-! ## What one event does -/

variable {P renewBeforeDays resourceName} {files : CertFiles}

/-- A pair from the cache is what the two files hold. -/
theorem files_of_loadFromCache {now : ℕ} {err : String} {pair : String × String}
    (h : loadFromCache P renewBeforeDays resourceName files now err = .ok pair) :
    files = ⟨some (strBytes pair.1), some (strBytes pair.2)⟩ := by
  have hread : ∀ {file : Option Bytes} {s : String}, readText file = .ok s →
      file = some (strBytes s) := by
    intro file s hs
    cases file with
    | none => exact absurd hs (by simp [readText])
    | some data =>
        rw [readText] at hs
        cases hdata : fromUtf8 data with
        | none => exact absurd hs (by simp [hdata])
        | some s' =>
            rw [hdata] at hs
            obtain rfl := Except.ok.inj hs
            rw [fromUtf8_eq_some.1 hdata]
  unfold loadFromCache at h
  cases husable : cachedCertificateIsUsable P renewBeforeDays files now with
  | error e => exact absurd h (by simp [husable, bind, Except.bind])
  | ok usable =>
      cases usable with
      | false => exact absurd h (by simp [husable, bind, Except.bind])
      | true =>
          cases hcert : readText files.cert with
          | error e => exact absurd h (by simp [husable, hcert, bind, Except.bind])
          | ok certPem =>
              cases hkey : readText files.key with
              | error e => exact absurd h (by simp [husable, hcert, hkey, bind, Except.bind])
              | ok keyPem =>
                  simp only [husable, hcert, hkey, bind, Except.bind, if_true, pure,
                    Except.pure, Except.ok.injEq] at h
                  obtain rfl := h
                  rw [← hread hcert, ← hread hkey]

/-- An event changes the files by what it saves. -/
theorem CacheEvent.apply_eq (event : CacheEvent) :
    event.apply P renewBeforeDays resourceName files
      = match event.saves P with
        | none => files
        | some (pair, writes) => (writeCachedCertificate files pair.1 pair.2 writes).1 := by
  cases event with
  | start now fetched writes =>
      cases fetched with
      | error err => rfl
      | ok pair =>
          unfold apply loadSdsCertificate saves
          dsimp only
          split
          · show _ = (writeCachedCertificate files pair.1 pair.2 writes).1
            rcases writeCachedCertificate files pair.1 pair.2 writes with ⟨files', ended⟩
            cases ended <;> rfl
          · rfl
  | update path certificate writes =>
      unfold apply onUpdate saves
      dsimp only
      split
      · show _ = (writeCachedCertificate files certificate.certPem certificate.keyPem writes).1
        rcases writeCachedCertificate files certificate.certPem certificate.keyPem writes with
          ⟨files', ended⟩
        cases ended <;> rfl
      · rfl

/-- What is saved was delivered. -/
theorem CacheEvent.mem_delivered {event : CacheEvent} {pair : String × String}
    {writes : Write × Write} (h : event.saves P = some (pair, writes)) :
    pair ∈ event.delivered := by
  cases event with
  | start now fetched writes' =>
      cases fetched with
      | error err => exact absurd h (by simp [saves])
      | ok pair' =>
          rw [saves] at h
          split at h
          · injection h with h
            injection h with hpair _
            rw [← hpair]
            exact List.mem_singleton_self _
          · exact absurd h (by simp)
  | update path certificate writes' =>
      rw [saves] at h
      split at h
      · injection h with h
        injection h with hpair _
        rw [← hpair]
        exact List.mem_singleton_self _
      · exact absurd h (by simp)

/-! ## When the cache is safe -/

section Safety

variable (P renewBeforeDays resourceName)

/-- Whenever a start falls back to the cache and gets a pair, it is one of the delivered. -/
def Fits (files : CertFiles) (delivered : List (String × String)) : Prop :=
  ∀ now err writes pair,
    (loadSdsCertificate P renewBeforeDays resourceName files now (.error err) writes).2
      = some (.ok pair) → pair ∈ delivered

/-- At every point of the run the cache fits what was delivered until then, and a save that fails
    leaves the files as they were. -/
structure NeverForeign (events : List CacheEvent) : Prop where
  fallback : ∀ before after, events = before ++ after →
    Fits P renewBeforeDays resourceName (filesAfter P renewBeforeDays resourceName before)
      (deliveredIn before)
  failedSave : ∀ before event after pair writes, events = before ++ event :: after →
    event.saves P = some (pair, writes) →
    (writeCachedCertificate (filesAfter P renewBeforeDays resourceName before) pair.1 pair.2
      writes).2 = .err →
    filesAfter P renewBeforeDays resourceName (before ++ [event])
      = filesAfter P renewBeforeDays resourceName before

end Safety

/-- A save is harmless for the files that it finds: both writes get through; or the one that does
    not leaves its file as it was and, if it is that of the key, has found the certificate in the
    cache already. A crash is harmless, too, while there is no key to go with the certificate, and
    when all of the key was written. -/
def Harmless (files : CertFiles) (pair : String × String) : Write × Write → Prop
  | (.done, .done) => True
  | (.failed written, _) => written = none
  | (.crash written, _) => written = none ∨ files.key = none
  | (.done, .failed written) => written = none ∧ files.cert = some (strBytes pair.1)
  | (.done, .crash none) => files.cert = some (strBytes pair.1) ∨ files.key = none
  | (.done, .crash (some n)) => (strBytes pair.2).length ≤ n

/-- The files hold a delivered pair, or one of them is missing. -/
def Together (files : CertFiles) (delivered : List (String × String)) : Prop :=
  ∀ certData keyData, files = ⟨some certData, some keyData⟩ →
    ∃ pair ∈ delivered, certData = strBytes pair.1 ∧ keyData = strBytes pair.2

theorem Together.mono {delivered delivered' : List (String × String)}
    (h : Together files delivered) (hsub : delivered ⊆ delivered') :
    Together files delivered' := by
  intro certData keyData hfiles
  obtain ⟨pair, hpair, hdata⟩ := h certData keyData hfiles
  exact ⟨pair, hsub hpair, hdata⟩

theorem together_pair {pair : String × String} {delivered : List (String × String)}
    (hpair : pair ∈ delivered) :
    Together ⟨some (strBytes pair.1), some (strBytes pair.2)⟩ delivered := by
  rintro certData keyData ⟨⟩
  exact ⟨pair, hpair, rfl, rfl⟩

theorem together_of_key (cert : Option Bytes) (delivered : List (String × String)) :
    Together ⟨cert, none⟩ delivered := by
  rintro certData keyData ⟨⟩

theorem strBytes_injective : Function.Injective strBytes := by
  intro s t h
  rw [← fromUtf8Lossy_strBytes s, h, fromUtf8Lossy_strBytes]

/-- What is read back from such files was delivered. -/
theorem Together.fits {delivered : List (String × String)} (h : Together files delivered) :
    Fits P renewBeforeDays resourceName files delivered := by
  intro now err writes pair hpair
  obtain ⟨pair', hdelivered, hcert, hkey⟩ :=
    h _ _ (files_of_loadFromCache (Option.some.inj hpair))
  rw [Prod.ext (strBytes_injective hcert) (strBytes_injective hkey)]
  exact hdelivered

/-- One save: if it is harmless, the files still hold a delivered pair, and a save that fails leaves
    them as they were. -/
theorem Together.save {delivered : List (String × String)} {pair : String × String}
    {writes : Write × Write} (h : Together files delivered) (hpair : pair ∈ delivered)
    (hharmless : Harmless files pair writes) :
    Together (writeCachedCertificate files pair.1 pair.2 writes).1 delivered ∧
      ((writeCachedCertificate files pair.1 pair.2 writes).2 = .err →
        (writeCachedCertificate files pair.1 pair.2 writes).1 = files) := by
  obtain ⟨first, second⟩ := writes
  cases first with
  | failed written =>
      obtain rfl : written = none := hharmless
      exact ⟨h, fun _ => rfl⟩
  | crash written =>
      refine ⟨?_, fun herr => absurd herr (by simp [writeCachedCertificate])⟩
      rcases hharmless with rfl | hkey
      · exact h
      · simp only [writeCachedCertificate, hkey]
        exact together_of_key _ _
  | done =>
      cases second with
      | done =>
          exact ⟨together_pair hpair, fun herr => absurd herr (by simp [writeCachedCertificate])⟩
      | failed written =>
          obtain ⟨rfl, hcert⟩ := hharmless
          have hsame : (⟨some (strBytes pair.1), files.key⟩ : CertFiles) = files := by rw [← hcert]
          exact ⟨hsame ▸ h, fun _ => hsame⟩
      | crash written =>
          refine ⟨?_, fun herr => absurd herr (by simp [writeCachedCertificate])⟩
          cases written with
          | none =>
              simp only [writeCachedCertificate, cutWrite]
              rcases hharmless with hcert | hkey
              · rw [← hcert]
                exact h
              · rw [hkey]
                exact together_of_key _ _
          | some n =>
              simp only [writeCachedCertificate, cutWrite]
              rw [List.take_of_length_le hharmless]
              exact together_pair hpair

/-! ## Whole runs -/

theorem filesAfter_snoc (events : List CacheEvent) (event : CacheEvent) :
    filesAfter P renewBeforeDays resourceName (events ++ [event])
      = event.apply P renewBeforeDays resourceName
          (filesAfter P renewBeforeDays resourceName events) := by
  rw [filesAfter, List.foldl_append]
  rfl

theorem deliveredIn_snoc (events : List CacheEvent) (event : CacheEvent) :
    deliveredIn (events ++ [event]) = deliveredIn events ++ event.delivered := by
  simp [deliveredIn]

/-- What an event saves is harmless for the files it finds. -/
def CacheEvent.Harmless (P : PemWorld) (files : CertFiles) (event : CacheEvent) : Prop :=
  match event.saves P with
  | none => True
  | some (pair, writes) => Miuturn.Harmless files pair writes

/-- So is every event of a run that begins with these files. -/
def AllHarmless (P : PemWorld) (renewBeforeDays : ℕ) (resourceName : String) :
    CertFiles → List CacheEvent → Prop
  | _, [] => True
  | files, event :: events => event.Harmless P files ∧
    AllHarmless P renewBeforeDays resourceName
      (event.apply P renewBeforeDays resourceName files) events

theorem AllHarmless.event {event : CacheEvent} {before after : List CacheEvent}
    (h : AllHarmless P renewBeforeDays resourceName files (before ++ event :: after)) :
    event.Harmless P
      (before.foldl (CacheEvent.apply P renewBeforeDays resourceName) files) := by
  induction before generalizing files with
  | nil => exact h.1
  | cons first before ih => exact ih h.2

/-- One event of a run. -/
theorem Together.event {before : List CacheEvent} {event : CacheEvent}
    (h : Together (filesAfter P renewBeforeDays resourceName before) (deliveredIn before))
    (hharmless : event.Harmless P (filesAfter P renewBeforeDays resourceName before)) :
    Together (filesAfter P renewBeforeDays resourceName (before ++ [event]))
        (deliveredIn (before ++ [event])) ∧
      ∀ pair writes, event.saves P = some (pair, writes) →
        (writeCachedCertificate (filesAfter P renewBeforeDays resourceName before) pair.1 pair.2
          writes).2 = .err →
        filesAfter P renewBeforeDays resourceName (before ++ [event])
          = filesAfter P renewBeforeDays resourceName before := by
  have hdelivered : Together (filesAfter P renewBeforeDays resourceName before)
      (deliveredIn (before ++ [event])) := by
    rw [deliveredIn_snoc]
    exact h.mono (List.subset_append_left _ _)
  rw [filesAfter_snoc, CacheEvent.apply_eq]
  unfold CacheEvent.Harmless at hharmless
  cases hsaves : event.saves P with
  | none => exact ⟨hdelivered, fun pair writes hsome => absurd hsome (by simp)⟩
  | some save =>
      rw [hsaves] at hharmless
      have hpair : save.1 ∈ deliveredIn (before ++ [event]) := by
        rw [deliveredIn_snoc]
        exact List.mem_append_right _ (CacheEvent.mem_delivered hsaves)
      obtain ⟨htogether, hfailed⟩ := hdelivered.save hpair hharmless
      refine ⟨htogether, ?_⟩
      rintro pair writes ⟨⟩ herr
      exact hfailed herr

theorem together_of_allHarmless {events : List CacheEvent}
    (h : AllHarmless P renewBeforeDays resourceName ⟨none, none⟩ events)
    (before after : List CacheEvent) (heq : events = before ++ after) :
    Together (filesAfter P renewBeforeDays resourceName before) (deliveredIn before) := by
  induction before using List.reverseRecOn generalizing after with
  | nil => exact together_of_key _ _
  | append_singleton before event ih =>
      have heq' : events = before ++ event :: after := by
        rw [heq, List.append_assoc, List.singleton_append]
      exact ((ih (event :: after) heq').event (heq' ▸ h).event).1

/-- If every save of a run is harmless, the cache never pairs a certificate with a foreign key, and
    never changes in a save that fails. A start may find the control plane up or down. -/
theorem neverForeign_of_allHarmless (P : PemWorld) (renewBeforeDays : ℕ) (resourceName : String)
    {events : List CacheEvent}
    (h : AllHarmless P renewBeforeDays resourceName ⟨none, none⟩ events) :
    NeverForeign P renewBeforeDays resourceName events := by
  refine ⟨fun before after heq => (together_of_allHarmless h before after heq).fits,
    fun before event after pair writes heq => ?_⟩
  have hbefore := together_of_allHarmless h before (event :: after) heq
  exact (hbefore.event (heq ▸ h).event).2 pair writes

/-! ## A key that is not written -/

/-- Certificates that are valid for a long time. -/
def samplePem : PemWorld where
  accepts _ _ _ := true
  notAfter _ := some 4102444800

/-- A first save that a crash cuts short, before there is a key; then a pair that is kept, an update
    whose first write fails, one with the same certificate in which the key is not written, and one
    with a crash after its last byte. -/
theorem neverForeign_of_allHarmless_cuts : NeverForeign samplePem 30 "turn-cert"
    [.start 1700000000 (.ok ("CERT1", "KEY1")) (.crash (some 2), .done),
      .start 1700000000 (.ok ("CERT1", "KEY1")) (.done, .done),
      .update .tlsWatcher ⟨"CERT2", "KEY2", "v2", "n2"⟩ (.failed none, .done),
      .update .tlsWatcher ⟨"CERT1", "KEY3", "v3", "n3"⟩ (.done, .failed none),
      .update .cacheWatcher ⟨"CERT4", "KEY4", "v4", "n4"⟩ (.done, .crash (some 4))] :=
  neverForeign_of_allHarmless samplePem 30 "turn-cert"
    ⟨Or.inr rfl, trivial, rfl, ⟨rfl, rfl⟩, Nat.le_refl 4, trivial⟩

/-- A listener starts and gets a first pair; then the watcher gets a second one and the write of its
    key fails. -/
def sampleUpdates : List CacheEvent :=
  [.start 1700000000 (.ok ("CERT1", "KEY1")) (.done, .done),
    .update .tlsWatcher ⟨"CERT2", "KEY2", "v2", "n2"⟩ (.done, .failed none)]

/-- The second save fails and the cache has changed, and a start without the control plane gets the
    new certificate with the old key, which were never delivered together. -/
theorem foreign_key_served :
    (onUpdate samplePem .tlsWatcher (filesAfter samplePem 30 "turn-cert" (sampleUpdates.take 1))
        ⟨"CERT2", "KEY2", "v2", "n2"⟩ (.done, .failed none)).2 = some (.error .write) ∧
      filesAfter samplePem 30 "turn-cert" sampleUpdates
        ≠ filesAfter samplePem 30 "turn-cert" (sampleUpdates.take 1) ∧
      (loadSdsCertificate samplePem 30 "turn-cert" (filesAfter samplePem 30 "turn-cert"
        sampleUpdates) 1700000100 (.error "unavailable") (.done, .done)).2
        = some (.ok ("CERT2", "KEY1")) ∧
      ("CERT2", "KEY1") ∉ deliveredIn sampleUpdates ∧
      ¬ NeverForeign samplePem 30 "turn-cert" sampleUpdates := by
  have hloads : (loadSdsCertificate samplePem 30 "turn-cert" (filesAfter samplePem 30 "turn-cert"
      sampleUpdates) 1700000100 (.error "unavailable") (.done, .done)).2
      = some (.ok ("CERT2", "KEY1")) := by decide +kernel
  have hforeign : ("CERT2", "KEY1") ∉ deliveredIn sampleUpdates := by decide +kernel
  refine ⟨by decide +kernel, by decide +kernel, hloads, hforeign, fun h => hforeign ?_⟩
  exact h.fallback sampleUpdates [] (List.append_nil _).symm _ _ _ _ hloads

end Miuturn
