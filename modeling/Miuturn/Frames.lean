import Miuturn.System

set_option autoImplicit false

/-! # Datagrams and stream frames

Every byte string is ChannelData, or is read as one message, or is dropped, and reading never
panics. So the handlers of datagrams and stream frames do what `System.lean` takes as their steps,
and they panic only where `process_message` does: on an attribute that is shorter than the bytes a
handler reads from it (`Crashes`). The reader of datagrams depends on the build only for more bytes
than a datagram has. -/

open RustStd

namespace Miuturn

variable {D : Digests} {env : Env} {server : TurnServer} {msg : Message} {client : SocketAddr}
  {u : String}

/-! ## Reading never panics -/

theorem exists_isChannelDataFrame (data : Bytes) : ∃ b, isChannelDataFrame data = .ok b := by
  unfold isChannelDataFrame
  split
  · exact ⟨false, rfl⟩
  · obtain ⟨n, hn⟩ := exists_u16At (show 0 + 1 < data.length by omega)
    rw [hn]
    exact ⟨_, rfl⟩

/-- The padding is that of the length, unless adding the header to the length leaves `u16`. -/
theorem fallbackPadding_cases (build : Build) (attrLen : UInt16) :
    fallbackPadding build attrLen = .ok ((4 - (attrLen + 4) % 4) % 4) ∨
      build = .debug ∧ 65532 ≤ attrLen.toNat ∧
        fallbackPadding build attrLen = .error .arithmeticOverflow := by
  have hmod : ((attrLen + 4) % 4).toNat ≤ (4 : UInt16).toNat := by
    rw [UInt16.toNat_mod]
    exact (Nat.mod_lt _ (by decide)).le
  have hrest : (build.sub16 4 ((attrLen + 4) % 4) >>= fun rest => (pure (rest % 4) : Rust UInt16))
      = .ok ((4 - (attrLen + 4) % 4) % 4) := by
    rw [build.sub16_of_le hmod]
    rfl
  unfold fallbackPadding
  by_cases hfits : attrLen.toNat + (4 : UInt16).toNat < 65536
  · left
    rw [build.add16_of_lt hfits]
    exact hrest
  · cases build with
    | release =>
        left
        rw [Build.add16, if_neg hfits]
        exact hrest
    | debug =>
        right
        have hfour : (4 : UInt16).toNat = 4 := rfl
        refine ⟨rfl, by omega, ?_⟩
        rw [Build.add16, if_neg hfits]
        rfl

theorem fallbackPadding_release (attrLen : UInt16) :
    fallbackPadding .release attrLen = .ok ((4 - (attrLen + 4) % 4) % 4) := by
  rcases fallbackPadding_cases .release attrLen with h | ⟨h, -⟩
  · exact h
  · exact absurd h (by decide)

theorem exists_fallbackAttributes (data : Bytes) (endOffset offset : ℕ)
    (attributes : List Attribute) :
    ∃ as, fallbackAttributesIn .release data endOffset offset attributes = .ok as := by
  fun_induction fallbackAttributesIn .release data endOffset offset attributes with
  | case1 offset attributes h ih =>
      obtain ⟨b0, h0⟩ := exists_byteAt (show offset < data.length by omega)
      obtain ⟨b1, h1⟩ := exists_byteAt (show offset + 1 < data.length by omega)
      obtain ⟨b2, h2⟩ := exists_byteAt (show offset + 2 < data.length by omega)
      obtain ⟨b3, h3⟩ := exists_byteAt (show offset + 3 < data.length by omega)
      simp only [h0, h1, h2, h3, Rust.ok_bind]
      split
      · next hfits =>
          rw [slice_eq_ok (by omega) hfits, Rust.ok_bind, fallbackPadding_release, Rust.ok_bind]
          exact ih _ _ _ _ _ _
      · exact ⟨_, rfl⟩
  | case2 offset attributes h => exact ⟨attributes, rfl⟩

/-- Up to 65555 bytes, no value behind the header of the message is long enough for the overflow. -/
theorem fallbackAttributesIn_eq (build : Build) {data : Bytes} (hlen : data.length ≤ 65555)
    (endOffset offset : ℕ) (hoffset : 20 ≤ offset) (attributes : List Attribute) :
    fallbackAttributesIn build data endOffset offset attributes
      = fallbackAttributesIn .release data endOffset offset attributes := by
  fun_induction fallbackAttributesIn build data endOffset offset attributes with
  | case1 offset attributes h ih =>
      obtain ⟨b0, h0⟩ := exists_byteAt (show offset < data.length by omega)
      obtain ⟨b1, h1⟩ := exists_byteAt (show offset + 1 < data.length by omega)
      obtain ⟨b2, h2⟩ := exists_byteAt (show offset + 2 < data.length by omega)
      obtain ⟨b3, h3⟩ := exists_byteAt (show offset + 3 < data.length by omega)
      rw [fallbackAttributesIn, if_pos h]
      simp only [h0, h1, h2, h3, Rust.ok_bind]
      split
      · next hfits =>
          have hpadding : fallbackPadding build (shiftOr16 b2 b3)
              = fallbackPadding .release (shiftOr16 b2 b3) := by
            rw [fallbackPadding_release]
            rcases fallbackPadding_cases build (shiftOr16 b2 b3) with hok | ⟨-, hlong, -⟩
            · exact hok
            · omega
          rw [slice_eq_ok (by omega) hfits, Rust.ok_bind, Rust.ok_bind, hpadding,
            fallbackPadding_release, Rust.ok_bind, Rust.ok_bind]
          exact ih _ _ _ _ _ _ (by omega)
      · rfl
  | case2 offset attributes h => rw [fallbackAttributesIn, if_neg h]

theorem exists_fallbackParse (data : Bytes) : ∃ m, fallbackParse data = .ok m := by
  unfold fallbackParse fallbackParseIn
  split
  · exact ⟨none, rfl⟩
  · next hlen =>
      have hbyte : ∀ i, i < 20 → ∃ b, byteAt data i = .ok b := fun i hi => exists_byteAt (by omega)
      obtain ⟨b0, h0⟩ := hbyte 0 (by omega)
      obtain ⟨b1, h1⟩ := hbyte 1 (by omega)
      obtain ⟨b2, h2⟩ := hbyte 2 (by omega)
      obtain ⟨b3, h3⟩ := hbyte 3 (by omega)
      obtain ⟨b4, h4⟩ := hbyte 4 (by omega)
      obtain ⟨b5, h5⟩ := hbyte 5 (by omega)
      obtain ⟨b6, h6⟩ := hbyte 6 (by omega)
      obtain ⟨b7, h7⟩ := hbyte 7 (by omega)
      simp only [h0, h1, h2, h3, h4, h5, h6, h7, Rust.ok_bind]
      split
      · have hsize : ((data.drop 8).take (20 - 8)).length = 12 := by
          simp only [List.length_take, List.length_drop]
          omega
        obtain ⟨tid, htid, -⟩ := exists_copyFromSlice hsize
        rw [slice_eq_ok (by omega) (by omega), Rust.ok_bind, htid, Rust.ok_bind]
        split
        · obtain ⟨as, has⟩ := exists_fallbackAttributes data (20 + (shiftOr16 b2 b3).toNat) 20 []
          rw [has]
          exact ⟨_, rfl⟩
        · exact ⟨none, rfl⟩
      · exact ⟨none, rfl⟩

/-- On what can be a datagram the two builds read the same. -/
theorem fallbackParseIn_eq (build : Build) {data : Bytes} (hlen : data.length ≤ 65555) :
    fallbackParseIn build data = fallbackParse data := by
  unfold fallbackParse fallbackParseIn
  simp only [fallbackAttributesIn_eq build hlen _ 20 le_rfl]

theorem handleUdpWith_eq {α : Type} (build : Build) (onChannelData : Rust α)
    (onMessage : Message → Rust α) (dropped : α) {data : Bytes} (hlen : data.length ≤ 65555) :
    handleUdpWith build onChannelData onMessage dropped data
      = handleUdpWith .release onChannelData onMessage dropped data := by
  unfold handleUdpWith
  rw [fallbackParseIn_eq build hlen]
  rfl

/-- The message a stream frame is read as. -/
def TcpReads (data : Bytes) (msg : Message) : Prop :=
  isChannelDataFrame data = .ok false ∧ Message.parse data = .ok (some msg)

/-- The message a datagram is read as, by `Message::parse` or by the fallback reader. -/
def UdpReads (data : Bytes) (msg : Message) : Prop :=
  4 ≤ data.length ∧ isChannelDataFrame data = .ok false ∧
    (Message.parse data = .ok (some msg) ∨
      (Message.parse data = .ok none ∧ fallbackParse data = .ok (some msg)))

section Cases

variable {α : Type} (onChannelData : Rust α) (onMessage : Message → Rust α) (dropped : α)
  (data : Bytes)

/-- A stream frame is ChannelData, or read as one message, or dropped. -/
theorem handleTcpWith_cases :
    (handleTcpWith onChannelData onMessage dropped data = onChannelData ∧
      isChannelDataFrame data = .ok true) ∨
    (∃ msg, TcpReads data msg ∧
      handleTcpWith onChannelData onMessage dropped data = onMessage msg) ∨
    (handleTcpWith onChannelData onMessage dropped data = .ok dropped ∧
      ∀ msg, ¬ TcpReads data msg) := by
  obtain ⟨isData, hdata⟩ := exists_isChannelDataFrame data
  obtain ⟨parsed, hparsed⟩ := Message.exists_parse data
  unfold handleTcpWith TcpReads
  simp only [hdata, hparsed, Rust.ok_bind]
  cases isData with
  | true => exact Or.inl ⟨rfl, rfl⟩
  | false =>
      right
      cases parsed with
      | some msg => exact Or.inl ⟨msg, ⟨rfl, rfl⟩, rfl⟩
      | none => exact Or.inr ⟨rfl, fun msg h => absurd h.2 (by simp)⟩

/-- And so is a datagram. -/
theorem handleUdpWith_cases :
    (handleUdpWith .release onChannelData onMessage dropped data = onChannelData ∧
      isChannelDataFrame data = .ok true) ∨
    (∃ msg, UdpReads data msg ∧
      handleUdpWith .release onChannelData onMessage dropped data = onMessage msg) ∨
    (handleUdpWith .release onChannelData onMessage dropped data = .ok dropped ∧
      ∀ msg, ¬ UdpReads data msg) := by
  obtain ⟨isData, hdata⟩ := exists_isChannelDataFrame data
  obtain ⟨parsed, hparsed⟩ := Message.exists_parse data
  obtain ⟨fallback, hfallback⟩ := exists_fallbackParse data
  unfold UdpReads
  rw [fallbackParse] at hfallback
  rw [handleUdpWith, fallbackParse]
  split
  · next hshort => exact Or.inr (Or.inr ⟨rfl, fun msg h => absurd h.1 (by omega)⟩)
  · next hlen =>
      simp only [hdata, hparsed, hfallback, Rust.ok_bind]
      cases isData with
      | true => exact Or.inl ⟨rfl, rfl⟩
      | false =>
          right
          cases parsed with
          | some msg => exact Or.inl ⟨msg, ⟨by omega, rfl, Or.inl rfl⟩, rfl⟩
          | none =>
              cases fallback with
              | some msg => exact Or.inl ⟨msg, ⟨by omega, rfl, Or.inr ⟨rfl, rfl⟩⟩, rfl⟩
              | none => exact Or.inr ⟨rfl, fun msg h => absurd h (by simp)⟩

variable {β : Type} {onChannelData onMessage dropped data} {onChannelData' : Rust β}
  {onMessage' : Message → Rust β} {dropped' : β} {R : Rust α → Rust β → Prop}
  (hdata : R onChannelData onChannelData') (hmessage : ∀ msg, R (onMessage msg) (onMessage' msg))
  (hdropped : R (.ok dropped) (.ok dropped'))

include hdata hmessage hdropped

/-- What holds of the three steps holds of the handler. -/
theorem handleTcpWith_rel : R (handleTcpWith onChannelData onMessage dropped data)
    (handleTcpWith onChannelData' onMessage' dropped' data) := by
  obtain ⟨isData, hframe⟩ := exists_isChannelDataFrame data
  obtain ⟨parsed, hparsed⟩ := Message.exists_parse data
  unfold handleTcpWith
  simp only [hframe, hparsed, Rust.ok_bind]
  cases isData with
  | true => exact hdata
  | false =>
      cases parsed with
      | some msg => exact hmessage msg
      | none => exact hdropped

theorem handleUdpWith_rel : R (handleUdpWith .release onChannelData onMessage dropped data)
    (handleUdpWith .release onChannelData' onMessage' dropped' data) := by
  obtain ⟨isData, hframe⟩ := exists_isChannelDataFrame data
  obtain ⟨parsed, hparsed⟩ := Message.exists_parse data
  obtain ⟨fallback, hfallback⟩ := exists_fallbackParse data
  rw [fallbackParse] at hfallback
  unfold handleUdpWith
  split
  · exact hdropped
  · simp only [hframe, hparsed, hfallback, Rust.ok_bind]
    cases isData with
    | true => exact hdata
    | false =>
        cases parsed with
        | some msg => exact hmessage msg
        | none =>
            cases fallback with
            | some msg => exact hmessage msg
            | none => exact hdropped

end Cases

/-- A stream frame makes a step of the system: ChannelData, the message it is read as, or
    nothing. -/
theorem handleTcpMessage_cases (D : Digests) (env : Env) (server : TurnServer) (data : Bytes)
    (client : SocketAddr) :
    (handleTcpMessage D env server data client = perform D env server (.channelData data client) ∧
      isChannelDataFrame data = .ok true) ∨
    (∃ msg, TcpReads data msg ∧
      handleTcpMessage D env server data client = perform D env server (.message msg client)) ∨
    (handleTcpMessage D env server data client = .ok (.unchanged server none) ∧
      ∀ msg, ¬ TcpReads data msg) :=
  handleTcpWith_cases _ _ _ data

/-- And so does a datagram. -/
theorem handleUdpMessage_cases (D : Digests) (env : Env) (server : TurnServer) (data : Bytes)
    (client : SocketAddr) :
    (handleUdpMessage D env server data client = perform D env server (.channelData data client) ∧
      isChannelDataFrame data = .ok true) ∨
    (∃ msg, UdpReads data msg ∧
      handleUdpMessage D env server data client = perform D env server (.message msg client)) ∨
    (handleUdpMessage D env server data client = .ok (.unchanged server none) ∧
      ∀ msg, ¬ UdpReads data msg) :=
  handleUdpWith_cases _ _ _ data

/-! ## Where a message panics -/

/-- The first attribute of a type is there and shorter than `n` bytes. -/
def Message.Short (msg : Message) (attrType : UInt16) (n : ℕ) : Prop :=
  ∃ attr, msg.getAttribute attrType = some attr ∧ attr.value.length < n

/-- The request is let in: auth is off, or it authenticates. -/
def Admitted (D : Digests) (env : Env) (server : TurnServer) (msg : Message) (client : SocketAddr) :
    Prop :=
  server.authDisabled = true ∨
    (server.authDisabled = false ∧ ∃ u pw, Authenticates D env server msg client u pw)

/-- The requests that panic, with TURN enabled: one that gets as far as the integrity check and has
    a MESSAGE-INTEGRITY of fewer than 20 bytes; an admitted Allocate or Refresh with a LIFETIME of
    fewer than 4 bytes; an admitted ChannelBind of a client with an allocation, with a PEER-ADDRESS
    and with a CHANNEL-NUMBER of fewer than 2 bytes. -/
inductive Crashes (D : Digests) (env : Env) (server : TurnServer) (msg : Message)
    (client : SocketAddr) : Prop where
  | integrity {u pw : String} (hmethod : msg.header.method ∈ authenticatedMethods)
      (hauth : server.authDisabled = false) (hclaims : Claims env server msg client u pw)
      (hshort : msg.Short Attribute.messageIntegrity 20)
  | lifetime (hmethod : msg.header.method = .allocate ∨ msg.header.method = .refresh)
      (hadmitted : Admitted D env server msg client) (hshort : msg.Short Attribute.lifetime 4)
  | channelNumber (hmethod : msg.header.method = .channelBind)
      (hadmitted : Admitted D env server msg client)
      (hentry : server.allocationTable.entryOfClient client ≠ none)
      (hpeer : msg.getAttribute Attribute.peerAddress ≠ none)
      (hshort : msg.Short Attribute.channelNumber 2)

theorem admitted_iff : Admitted D env server msg client ↔
    ∃ u, verifyTurnAuth D env server msg client = .ok (.ok u) := by
  unfold Admitted
  cases hauth : server.authDisabled with
  | true => simp [verifyTurnAuth_disabled hauth]
  | false => simp [verifyTurnAuth_eq_ok hauth]

theorem getLifetime_fault : (∃ f, getLifetime msg = .error f) ↔ msg.Short Attribute.lifetime 4 := by
  unfold getLifetime Message.Short
  cases hattr : msg.getAttribute Attribute.lifetime with
  | none => simp
  | some attr =>
      obtain ⟨attrType, value⟩ := attr
      -- by the number of bytes, up to the four that are read
      rcases value with _ | ⟨a, _ | ⟨b, _ | ⟨c, _ | ⟨d, rest⟩⟩⟩⟩ <;> simp

theorem bindFor_fault : (∃ f, bindFor D env server msg client u = .error f) ↔
    server.allocationTable.entryOfClient client ≠ none ∧
      msg.getAttribute Attribute.peerAddress ≠ none ∧ msg.Short Attribute.channelNumber 2 := by
  unfold bindFor Message.Short
  cases server.allocationTable.entryOfClient client with
  | none => simp
  | some e =>
      cases msg.getAttribute Attribute.peerAddress with
      | none => simp
      | some peerAttr =>
          cases msg.getAttribute Attribute.channelNumber with
          | none => simp
          | some channelAttr =>
              obtain ⟨attrType, value⟩ := channelAttr
              rcases value with _ | ⟨hi, _ | ⟨lo, rest⟩⟩
              · simp [channelNumberOf]
              · simp [channelNumberOf]
              · simp only [channelNumberOf]
                split <;> simp

theorem requestBody_fault : (∃ f, requestBody D env server msg client u = .error f) ↔
    ((msg.header.method = .allocate ∨ msg.header.method = .refresh) ∧
        msg.Short Attribute.lifetime 4) ∨
      (msg.header.method = .channelBind ∧ server.allocationTable.entryOfClient client ≠ none ∧
        msg.getAttribute Attribute.peerAddress ≠ none ∧ msg.Short Attribute.channelNumber 2) := by
  -- after the lifetime is read nothing faults any more
  have hread : ∀ g : UInt32 → Outcome,
      (∃ f, (getLifetime msg >>= fun l => .ok (g l)) = .error f) ↔
        msg.Short Attribute.lifetime 4 := by
    intro g
    rw [← getLifetime_fault]
    cases getLifetime msg <;> simp
  unfold requestBody
  cases hm : msg.header.method with
  | allocate => simp [hread]
  | refresh => simp [hread]
  | channelBind =>
      rw [bindFor_fault]
      simp
  | createPermission => simp
  | binding => simp
  | send => simp
  | data => simp

theorem Crashes.method_mem (h : Crashes D env server msg client) :
    msg.header.method ∈ authenticatedMethods := by
  cases h with
  | integrity hmethod _ _ _ => exact hmethod
  | lifetime hmethod _ _ =>
      rcases hmethod with hm | hm
      · rw [hm]
        decide
      · rw [hm]
        decide
  | channelNumber hmethod _ _ _ _ =>
      rw [hmethod]
      decide

/-- A request crashes where it is authenticated, or in its handler once it has passed. -/
theorem crashes_iff (hmethod : msg.header.method ∈ authenticatedMethods) :
    Crashes D env server msg client ↔
      (∃ f, verifyTurnAuth D env server msg client = .error f) ∨
        ∃ u, verifyTurnAuth D env server msg client = .ok (.ok u) ∧
          ∃ f, requestBody D env server msg client u = .error f := by
  constructor
  · intro hcrash
    cases hcrash with
    | integrity _ hauth hclaims hshort =>
        exact Or.inl (verifyTurnAuth_fault.2 ⟨hauth, ⟨_, _, hclaims⟩, hshort⟩)
    | lifetime hm hadmitted hshort =>
        obtain ⟨u, hu⟩ := admitted_iff.1 hadmitted
        exact Or.inr ⟨u, hu, requestBody_fault.2 (Or.inl ⟨hm, hshort⟩)⟩
    | channelNumber hm hadmitted hentry hpeer hshort =>
        obtain ⟨u, hu⟩ := admitted_iff.1 hadmitted
        exact Or.inr ⟨u, hu, requestBody_fault.2 (Or.inr ⟨hm, hentry, hpeer, hshort⟩)⟩
  · rintro (hfault | ⟨u, hu, hfault⟩)
    · obtain ⟨hauth, ⟨u, pw, hclaims⟩, hshort⟩ := verifyTurnAuth_fault.1 hfault
      exact .integrity hmethod hauth hclaims hshort
    · have hadmitted : Admitted D env server msg client := admitted_iff.2 ⟨u, hu⟩
      rcases requestBody_fault.1 hfault with ⟨hm, hshort⟩ | ⟨hm, hentry, hpeer, hshort⟩
      · exact .lifetime hm hadmitted hshort
      · exact .channelNumber hm hadmitted hentry hpeer hshort

theorem withAuth_fault_iff {body : String → Rust Outcome} :
    (∃ f, withAuth D env server msg client body = .error f) ↔
      (∃ f, verifyTurnAuth D env server msg client = .error f) ∨
        ∃ u, verifyTurnAuth D env server msg client = .ok (.ok u) ∧ ∃ f, body u = .error f := by
  cases hv : verifyTurnAuth D env server msg client with
  | error f => simp [withAuth_fault hv]
  | ok result =>
      cases result with
      | error answer => simp [withAuth_error hv]
      | ok u => simp [withAuth_ok hv]

/-- `process_message` panics exactly on the requests of `Crashes`, with TURN enabled. -/
theorem processMessage_fault : (∃ f, processMessage D env server msg client = .error f) ↔
    server.turnEnabled = true ∧ Crashes D env server msg client := by
  by_cases hmethod : msg.header.method ∈ authenticatedMethods
  · cases hturn : server.turnEnabled with
    | false => simp [processMessage_turnDisabled hmethod hturn]
    | true =>
        rw [processMessage_authenticated hmethod hturn, withAuth_fault_iff, crashes_iff hmethod]
        exact (and_iff_right rfl).symm
  · obtain ⟨o, heq, -⟩ : ∃ o, processMessage D env server msg client = .ok o ∧
        Effect D env server msg client o := processMessage_other hmethod
    refine ⟨fun ⟨f, hf⟩ => absurd (heq.symm.trans hf) (by simp), ?_⟩
    exact fun h => absurd h.2.method_mem hmethod

theorem TcpReads.unique {data : Bytes} {m m' : Message} (h : TcpReads data m)
    (h' : TcpReads data m') : m = m' :=
  Option.some.inj (Except.ok.inj (h.2.symm.trans h'.2))

theorem UdpReads.unique {data : Bytes} {m m' : Message} (h : UdpReads data m)
    (h' : UdpReads data m') : m = m' := by
  rcases h.2.2 with hparse | ⟨hparse, hfallback⟩
  · rcases h'.2.2 with hparse' | ⟨hparse', -⟩
    · exact Option.some.inj (Except.ok.inj (hparse.symm.trans hparse'))
    · exact absurd (hparse.symm.trans hparse') (by simp)
  · rcases h'.2.2 with hparse' | ⟨-, hfallback'⟩
    · exact absurd (hparse.symm.trans hparse') (by simp)
    · exact Option.some.inj (Except.ok.inj (hfallback.symm.trans hfallback'))

/-- A handler that makes one of the three steps returns unless it comes to a message that
    panics. -/
theorem returns_iff {α : Type} {r onChannelData : Rust α} {onMessage : Message → Rust α}
    {dropped : α} {isData : Prop} {Reads Panics : Message → Prop}
    (hunique : ∀ {m m'}, Reads m → Reads m' → m = m') (hexclusive : isData → ∀ m, ¬ Reads m)
    (hdata : ∃ o, onChannelData = .ok o)
    (hpanics : ∀ m, (∃ f, onMessage m = .error f) ↔ Panics m)
    (hcases : (r = onChannelData ∧ isData) ∨ (∃ m, Reads m ∧ r = onMessage m) ∨
      (r = .ok dropped ∧ ∀ m, ¬ Reads m)) :
    (∃ o, r = .ok o) ↔ ¬ ∃ m, Reads m ∧ Panics m := by
  rcases hcases with ⟨rfl, hframe⟩ | ⟨m, hm, rfl⟩ | ⟨rfl, hno⟩
  · exact iff_of_true hdata fun ⟨m, hm, _⟩ => hexclusive hframe m hm
  · have hreturns : (∃ o, onMessage m = .ok o) ↔ ¬ ∃ f, onMessage m = .error f := by
      cases onMessage m <;> simp
    rw [hreturns, hpanics, not_iff_not]
    constructor
    · intro hpanic
      exact ⟨m, hm, hpanic⟩
    · rintro ⟨m', hm', hpanic⟩
      rwa [hunique hm hm']
  · exact iff_of_true ⟨_, rfl⟩ fun ⟨m, hm, _⟩ => hno m hm

theorem exists_handleChannelData (env : Env) (server : TurnServer) (data : Bytes)
    (client : SocketAddr) : ∃ o, handleChannelData env server data client = .ok o := by
  rcases handleChannelData_cases env server data client with h | ⟨_, _, _, _, _, -, -, -, h⟩
  · exact ⟨_, h⟩
  · exact ⟨_, h⟩

theorem not_udpReads_of_channelData {data : Bytes} (h : isChannelDataFrame data = .ok true)
    (m : Message) : ¬ UdpReads data m :=
  fun hm => absurd (h.symm.trans hm.2.1) (by simp)

theorem not_tcpReads_of_channelData {data : Bytes} (h : isChannelDataFrame data = .ok true)
    (m : Message) : ¬ TcpReads data m :=
  fun hm => absurd (h.symm.trans hm.1) (by simp)

/-- A datagram is handled without a panic exactly when TURN is disabled or the datagram is not read
    as a message of `Crashes`. -/
theorem handleUdpMessage_returns_iff (D : Digests) (env : Env) (server : TurnServer) (data : Bytes)
    (client : SocketAddr) :
    (∃ o, handleUdpMessage D env server data client = .ok o) ↔
      ¬ (server.turnEnabled = true ∧
        ∃ msg, UdpReads data msg ∧ Crashes D env server msg client) := by
  rw [handleUdpMessage, returns_iff UdpReads.unique not_udpReads_of_channelData
    (exists_handleChannelData env server data client) (fun _ => processMessage_fault)
    (handleUdpWith_cases _ _ _ data)]
  simp only [and_left_comm, exists_and_left]

/-- A datagram with a nonce of the server, any user name and four bytes of MESSAGE-INTEGRITY. -/
def shortIntegrity : Bytes :=
  (sampleRequest .refresh [⟨Attribute.username, strBytes "anyone"⟩,
    ⟨Attribute.nonce, strBytes (generateNonce (sampleEnv 0))⟩,
    ⟨Attribute.messageIntegrity, [1, 2, 3, 4]⟩]).encode

/-- Did a handler panic? -/
def panics : Rust Outcome → Bool
  | .ok _ => false
  | .error _ => true

theorem not_returns_of_panics {r : Rust Outcome} (h : panics r = true) : ¬ ∃ o, r = .ok o := by
  rintro ⟨o, rfl⟩
  exact absurd h (by simp [panics])

/-- A client that never authenticated is challenged, and its next datagram or frame panics. -/
theorem short_integrity_panics :
    let w := (play sampleDigests ⟨sampleServer false (some sampleUsers), 0⟩
      [(sampleEnv 0, .message (sampleRequest .refresh []) sampleClient)]).2
    (¬ ∃ o, handleUdpMessage sampleDigests (sampleEnv 1) w.server shortIntegrity sampleClient
        = .ok o) ∧
      ¬ ∃ o, handleTcpMessage sampleDigests (sampleEnv 1) w.server shortIntegrity sampleClient
        = .ok o :=
  ⟨not_returns_of_panics (by decide +kernel), not_returns_of_panics (by decide +kernel)⟩

end Miuturn
