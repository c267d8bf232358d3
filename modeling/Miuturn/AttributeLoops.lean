import Miuturn.Frames
import Miuturn.Wire

set_option autoImplicit false

/-! # The two attribute loops

`Message::parse` and the fallback reader of `handle_udp_message` both walk over the attributes of a
datagram by lengths that the sender chose. Their bounds differ (the declared end of the body, the
end of the datagram) and so do their integers: the fallback reader computes the padding on `u16`.

A loop is given here by what one round does at an offset: it leaves the loop, it panics, or it reads
an attribute and goes on at a further offset. What holds of the attributes of a loop follows from
what one round does (`Rounds`). -/

open RustStd

namespace Miuturn

/-! ## Rounds -/

/-- The end of a round: out of the loop, or on to the next round with one more attribute. -/
inductive Round (α : Type) where
  | leave (result : α)
  | next (attr : Attribute) (offset : ℕ)

section Rounds

variable {α : Type} {round : ℕ → Rust (Round α)}

/-- The loop that starts at the offset reads the attributes, and then it is left or it panics. -/
inductive Rounds (round : ℕ → Rust (Round α)) : ℕ → List Attribute → Rust α → Prop
  | leave {offset : ℕ} {result : α} :
      round offset = .ok (.leave result) → Rounds round offset [] (.ok result)
  | fault {offset : ℕ} {f : Fault} : round offset = .error f → Rounds round offset [] (.error f)
  | next {offset further : ℕ} {attr : Attribute} {as : List Attribute} {out : Rust α} :
      round offset = .ok (.next attr further) → Rounds round further as out →
      Rounds round offset (attr :: as) out

/-- A round that goes on has read a value behind a header of four bytes, all of it before `stop`,
    and the next round starts behind the value. -/
def Advances (data : Bytes) (stop : ℕ) (round : ℕ → Rust (Round α)) : Prop :=
  ∀ offset attr further, round offset = .ok (.next attr further) →
    offset + 4 + attr.value.length ≤ stop ∧ offset + 4 + attr.value.length ≤ further ∧
      attr.value = (data.drop (offset + 4)).take attr.value.length

/-- A loop with such rounds ends. -/
theorem Advances.exists_rounds {data : Bytes} {stop : ℕ} (h : Advances data stop round)
    (offset : ℕ) : ∃ as out, Rounds round offset as out := by
  -- the bytes that are left get fewer
  induction hleft : stop - offset using Nat.strongRecOn generalizing offset with
  | ind left ih =>
      cases hround : round offset with
      | error f => exact ⟨[], .error f, .fault hround⟩
      | ok r =>
          cases r with
          | leave result => exact ⟨[], .ok result, .leave hround⟩
          | next attr further =>
              obtain ⟨hstop, hfurther, -⟩ := h offset attr further hround
              obtain ⟨as, out, hrest⟩ := ih (stop - further) (by omega) further rfl
              exact ⟨attr :: as, out, .next hround hrest⟩

/-- A loop panics where one of its rounds does. -/
theorem Rounds.exists_fault {offset : ℕ} {as : List Attribute} {out : Rust α} {f : Fault}
    (h : Rounds round offset as out) (hout : out = .error f) :
    ∃ at', round at' = .error f := by
  induction h with
  | leave hround => exact absurd hout (by simp)
  | fault hround =>
      obtain rfl := Except.error.inj hout
      exact ⟨_, hround⟩
  | next hround _ ih => exact ih hout

/-! ## Slices -/

/-- The values of the attributes are, in order, the slices of the bytes at the spans, which lie
    between `start` and `stop` and do not overlap. -/
structure Slices (data : Bytes) (start stop : ℕ) (as : List Attribute) (spans : List (ℕ × ℕ)) :
    Prop where
  values : as.map Attribute.value = spans.map (fun s => (data.drop s.1).take (s.2 - s.1))
  inside : ∀ s ∈ spans, start ≤ s.1 ∧ s.1 ≤ s.2 ∧ s.2 ≤ stop
  disjoint : spans.Pairwise (fun s t => s.2 ≤ t.1)

theorem Rounds.exists_slices {data : Bytes} {stop offset : ℕ} {as : List Attribute} {out : Rust α}
    (hadvances : Advances data stop round) (h : Rounds round offset as out) :
    ∃ spans, Slices data offset stop as spans := by
  induction h with
  | leave _ => exact ⟨[], rfl, by simp, .nil⟩
  | fault _ => exact ⟨[], rfl, by simp, .nil⟩
  | @next offset further attr as out hround _ ih =>
      obtain ⟨spans, hspans⟩ := ih
      obtain ⟨hstop, hfurther, hvalue⟩ := hadvances offset attr further hround
      refine ⟨(offset + 4, offset + 4 + attr.value.length) :: spans, ?_, ?_, ?_⟩
      · rw [List.map_cons, List.map_cons, hspans.values, Nat.add_sub_cancel_left, ← hvalue]
      · intro s hs
        rcases List.mem_cons.1 hs with rfl | hs
        · exact ⟨by omega, by omega, hstop⟩
        · obtain ⟨hstart, hspan, hend⟩ := hspans.inside s hs
          exact ⟨by omega, hspan, hend⟩
      · refine List.pairwise_cons.2 ⟨fun s hs => ?_, hspans.disjoint⟩
        exact hfurther.trans (hspans.inside s hs).1

end Rounds

/-! ## `Message::parse` -/

/-- One round of the loop of `Message::parse`. It is left with the attributes read so far, or with
    the message rejected. -/
def Message.parseRound (data : Bytes) (endOffset offset : ℕ) : Rust (Round Bool) :=
  if offset < endOffset then
    if offset + 4 > endOffset then pure (.leave false)
    else do
      match ← Attribute.decode (← slice data offset endOffset) with
      | none => pure (.leave true)
      | some attr =>
        let attrLen := attr.value.length + 4
        let padding := (4 - attrLen % 4) % 4
        if attrLen + padding = 0 ∨ offset + (attrLen + padding) > endOffset then
          pure (.leave false)
        else pure (.next attr (offset + (attrLen + padding)))
  else pure (.leave true)

theorem Message.parseAttributes_eq_round (data : Bytes) (endOffset offset : ℕ)
    (attributes : List Attribute) :
    Message.parseAttributes data endOffset offset attributes
      = Message.parseRound data endOffset offset >>= fun
        | .leave accepted => pure (if accepted then some attributes else none)
        | .next attr further =>
          Message.parseAttributes data endOffset further (attributes ++ [attr]) := by
  rw [Message.parseAttributes, Message.parseRound]
  split
  · split
    · rfl
    · cases slice data offset endOffset with
      | error f => rfl
      | ok window =>
          rw [Rust.ok_bind, Rust.ok_bind]
          cases Attribute.decode window with
          | error f => rfl
          | ok attr =>
              rw [Rust.ok_bind, Rust.ok_bind]
              cases attr with
              | none => rfl
              | some attr =>
                  dsimp only
                  split <;> rfl
  · rfl

/-- The loop reads what its rounds read. -/
theorem Message.parseAttributes_of_rounds {data : Bytes} {endOffset offset : ℕ}
    {as : List Attribute} {out : Rust Bool}
    (h : Rounds (Message.parseRound data endOffset) offset as out) (attributes : List Attribute) :
    Message.parseAttributes data endOffset offset attributes
      = out.map (fun accepted => if accepted then some (attributes ++ as) else none) := by
  induction h generalizing attributes with
  | leave hround =>
      rw [Message.parseAttributes_eq_round, hround, List.append_nil]
      rfl
  | fault hround =>
      rw [Message.parseAttributes_eq_round, hround]
      rfl
  | next hround _ ih =>
      rw [Message.parseAttributes_eq_round, hround]
      show Message.parseAttributes data endOffset _ _ = _
      rw [ih, List.append_assoc, List.singleton_append]

/-- What `decode` finds at the front of a window into the bytes is behind its header. -/
theorem Attribute.value_of_decode {data : Bytes} {endOffset offset : ℕ} {attr : Attribute}
    (hend : endOffset ≤ data.length) (hfits : offset + 4 ≤ endOffset)
    (h : Attribute.decode ((data.drop offset).take (endOffset - offset)) = .ok (some attr)) :
    offset + 4 + attr.value.length ≤ endOffset ∧
      attr.value = (data.drop (offset + 4)).take attr.value.length := by
  set window := (data.drop offset).take (endOffset - offset) with hwindow
  have hsize : window.length = endOffset - offset := by
    rw [hwindow, List.length_take, List.length_drop]
    omega
  rw [Attribute.decode_eq (by omega)] at h
  have h := Except.ok.inj h
  split at h
  · exact absurd h (by simp)
  · next hcut =>
      obtain rfl := Option.some.inj h
      have hlen : ((window.drop 4).take (wordAt window 2).toNat).length
          = (wordAt window 2).toNat := by
        rw [List.length_take, List.length_drop]
        omega
      dsimp only
      rw [hlen]
      refine ⟨by omega, ?_⟩
      rw [hwindow, List.drop_take, List.drop_drop, List.take_take, ← hwindow]
      congr 1
      omega

/-- Inside the bytes a round does not panic. -/
theorem Message.exists_parseRound {data : Bytes} {endOffset : ℕ} (hend : endOffset ≤ data.length)
    (offset : ℕ) : ∃ r, Message.parseRound data endOffset offset = .ok r := by
  unfold Message.parseRound
  split
  · split
    · exact ⟨_, rfl⟩
    · next hfits =>
        rw [slice_eq_ok (by omega) hend, Rust.ok_bind]
        obtain ⟨attr, hattr⟩ :=
          Attribute.exists_decode ((data.drop offset).take (endOffset - offset))
        rw [hattr, Rust.ok_bind]
        cases attr with
        | none => exact ⟨_, rfl⟩
        | some attr =>
            dsimp only
            split <;> exact ⟨_, rfl⟩
  · exact ⟨_, rfl⟩

theorem Message.advances_parseRound {data : Bytes} {endOffset : ℕ}
    (hend : endOffset ≤ data.length) :
    Advances data endOffset (Message.parseRound data endOffset) := by
  intro offset attr further h
  unfold Message.parseRound at h
  split at h
  · split at h
    · exact absurd h (by simp)
    · next hlt hfits =>
        rw [slice_eq_ok (by omega) hend, Rust.ok_bind] at h
        obtain ⟨found, hfound, h⟩ := Rust.bind_eq_ok.1 h
        cases found with
        | none => exact absurd h (by simp)
        | some found =>
            dsimp only at h
            split at h
            · exact absurd h (by simp)
            · injection h with h
              injection h with hattr hfurther
              subst hattr hfurther
              obtain ⟨hstop, hvalue⟩ :=
                Attribute.value_of_decode hend (not_lt.1 hfits) hfound
              exact ⟨hstop, by omega, hvalue⟩
  · exact absurd h (by simp)

/-! ## The fallback reader -/

/-- One round of the loop of the fallback reader. -/
def fallbackRound (build : Build) (data : Bytes) (endOffset offset : ℕ) : Rust (Round Unit) :=
  if offset < endOffset ∧ offset + 4 ≤ data.length then do
    let attrType := shiftOr16 (← byteAt data offset) (← byteAt data (offset + 1))
    let attrLen := shiftOr16 (← byteAt data (offset + 2)) (← byteAt data (offset + 3))
    if offset + 4 + attrLen.toNat ≤ data.length then
      let value ← slice data (offset + 4) (offset + 4 + attrLen.toNat)
      let padding ← fallbackPadding build attrLen
      pure (.next ⟨attrType, value⟩ (offset + (4 + attrLen.toNat + padding.toNat)))
    else pure (.leave ())
  else pure (.leave ())

theorem fallbackAttributesIn_eq_round (build : Build) (data : Bytes) (endOffset offset : ℕ)
    (attributes : List Attribute) :
    fallbackAttributesIn build data endOffset offset attributes
      = fallbackRound build data endOffset offset >>= fun
        | .leave () => pure attributes
        | .next attr further =>
          fallbackAttributesIn build data endOffset further (attributes ++ [attr]) := by
  rw [fallbackAttributesIn, fallbackRound]
  by_cases hguard : offset < endOffset ∧ offset + 4 ≤ data.length
  · obtain ⟨b0, h0⟩ := exists_byteAt (show offset < data.length by omega)
    obtain ⟨b1, h1⟩ := exists_byteAt (show offset + 1 < data.length by omega)
    obtain ⟨b2, h2⟩ := exists_byteAt (show offset + 2 < data.length by omega)
    obtain ⟨b3, h3⟩ := exists_byteAt (show offset + 3 < data.length by omega)
    rw [if_pos hguard, if_pos hguard]
    simp only [h0, h1, h2, h3, Rust.ok_bind]
    split
    · next hfits =>
        rw [slice_eq_ok (by omega) hfits, Rust.ok_bind, Rust.ok_bind]
        cases fallbackPadding build (shiftOr16 b2 b3) with
        | error f => rfl
        | ok padding => rfl
    · rfl
  · rw [if_neg hguard, if_neg hguard]
    rfl

theorem fallbackAttributesIn_of_rounds {build : Build} {data : Bytes} {endOffset offset : ℕ}
    {as : List Attribute} {out : Rust Unit}
    (h : Rounds (fallbackRound build data endOffset) offset as out) (attributes : List Attribute) :
    fallbackAttributesIn build data endOffset offset attributes
      = out.map (fun _ => attributes ++ as) := by
  induction h generalizing attributes with
  | leave hround =>
      rw [fallbackAttributesIn_eq_round, hround, List.append_nil]
      rfl
  | fault hround =>
      rw [fallbackAttributesIn_eq_round, hround]
      rfl
  | next hround _ ih =>
      rw [fallbackAttributesIn_eq_round, hround]
      show fallbackAttributesIn build data endOffset _ _ = _
      rw [ih, List.append_assoc, List.singleton_append]

/-- What one round of the fallback reader does. A value that makes the padding overflow is longer
    than a datagram. -/
theorem fallbackRound_cases (build : Build) (data : Bytes) (endOffset offset : ℕ) :
    fallbackRound build data endOffset offset = .ok (.leave ()) ∨
      (∃ attr further, fallbackRound build data endOffset offset = .ok (.next attr further) ∧
        offset + 4 + attr.value.length ≤ data.length ∧
        offset + 4 + attr.value.length ≤ further ∧
        attr.value = (data.drop (offset + 4)).take attr.value.length) ∨
      build = .debug ∧ 65536 ≤ data.length ∧
        fallbackRound build data endOffset offset = .error .arithmeticOverflow := by
  unfold fallbackRound
  by_cases hguard : offset < endOffset ∧ offset + 4 ≤ data.length
  · obtain ⟨b0, h0⟩ := exists_byteAt (show offset < data.length by omega)
    obtain ⟨b1, h1⟩ := exists_byteAt (show offset + 1 < data.length by omega)
    obtain ⟨b2, h2⟩ := exists_byteAt (show offset + 2 < data.length by omega)
    obtain ⟨b3, h3⟩ := exists_byteAt (show offset + 3 < data.length by omega)
    rw [if_pos hguard]
    simp only [h0, h1, h2, h3, Rust.ok_bind]
    split
    · next hfits =>
        have hlen : ((data.drop (offset + 4)).take (shiftOr16 b2 b3).toNat).length
            = (shiftOr16 b2 b3).toNat := by
          rw [List.length_take, List.length_drop]
          omega
        rw [slice_eq_ok (by omega) hfits, Rust.ok_bind, Nat.add_sub_cancel_left]
        rcases fallbackPadding_cases build (shiftOr16 b2 b3) with hpadding | ⟨hdebug, hlong, hpanic⟩
        · rw [hpadding, Rust.ok_bind]
          refine Or.inr (Or.inl ⟨_, _, rfl, ?_⟩)
          dsimp only
          rw [hlen]
          exact ⟨hfits, by omega, rfl⟩
        · rw [hpanic]
          exact Or.inr (Or.inr ⟨hdebug, by omega, rfl⟩)
    · exact Or.inl rfl
  · rw [if_neg hguard]
    exact Or.inl rfl

theorem advances_fallbackRound (build : Build) (data : Bytes) (endOffset : ℕ) :
    Advances data data.length (fallbackRound build data endOffset) := by
  intro offset attr further h
  rcases fallbackRound_cases build data endOffset offset with
    hleave | ⟨attr', further', hnext, hspec⟩ | ⟨-, -, hpanic⟩
  · exact absurd (hleave.symm.trans h) (by simp)
  · injection hnext.symm.trans h with hround
    injection hround with hattr hfurther
    subst hattr hfurther
    exact hspec
  · exact absurd (hpanic.symm.trans h) (by simp)

/-! ## Both loops -/

/-- Every round returns, and one that goes on is at least four bytes further. -/
def SafeRounds {α : Type} (round : ℕ → Rust (Round α)) : Prop :=
  ∀ offset, ∃ r, round offset = .ok r ∧ ∀ attr further, r = .next attr further →
    offset + 4 ≤ further

theorem Advances.safeRounds {α : Type} {round : ℕ → Rust (Round α)} {data : Bytes} {stop : ℕ}
    (h : Advances data stop round) (hok : ∀ offset, ∃ r, round offset = .ok r) :
    SafeRounds round := by
  intro offset
  obtain ⟨r, hr⟩ := hok offset
  refine ⟨r, hr, ?_⟩
  rintro attr further rfl
  obtain ⟨-, hfurther, -⟩ := h offset attr further hr
  omega

/-- A round of the fallback reader panics in a debug build only, and only for more bytes than a
    datagram has. -/
theorem fallbackRound_ok {build : Build} {data : Bytes}
    (hsafe : build = .release ∨ data.length ≤ 65507) (endOffset offset : ℕ) :
    ∃ r, fallbackRound build data endOffset offset = .ok r := by
  rcases fallbackRound_cases build data endOffset offset with
    hleave | ⟨attr, further, hnext, -⟩ | ⟨rfl, hlong, -⟩
  · exact ⟨_, hleave⟩
  · exact ⟨_, hnext⟩
  · rcases hsafe with hrelease | hshort
    · exact absurd hrelease (by decide)
    · omega

/-- Rounds that return make a loop that returns. -/
theorem Rounds.exists_ok {α : Type} {round : ℕ → Rust (Round α)} {offset : ℕ}
    {as : List Attribute} {out : Rust α} (h : Rounds round offset as out)
    (hok : ∀ offset, ∃ r, round offset = .ok r) : ∃ result, out = .ok result := by
  cases hout : out with
  | ok result => exact ⟨result, rfl⟩
  | error f =>
      obtain ⟨further, hfault⟩ := h.exists_fault hout
      obtain ⟨r, hr⟩ := hok further
      exact absurd (hfault.symm.trans hr) (by simp)

/-- The attributes of a message that is accepted are slices of its body. -/
theorem Message.exists_slices_of_parse {data : Bytes} {m : Message}
    (h : Message.parse data = .ok (some m)) :
    20 + m.header.messageLength.toNat ≤ data.length ∧
      ∃ spans, Slices data 20 (20 + m.header.messageLength.toNat) m.attributes spans := by
  unfold Message.parse at h
  split at h
  · exact absurd h (by simp)
  · obtain ⟨header, hheader, h⟩ := Rust.bind_eq_ok.1 h
    cases header with
    | none => exact absurd h (by simp)
    | some header =>
        dsimp only at h
        split at h
        · exact absurd h (by simp)
        · next hfits =>
            obtain ⟨found, hfound, h⟩ := Rust.bind_eq_ok.1 h
            cases found with
            | none => exact absurd h (by simp)
            | some attributes =>
                obtain rfl := Option.some.inj (Except.ok.inj h)
                have hend := not_lt.1 hfits
                have hadvances := Message.advances_parseRound hend
                obtain ⟨as, out, hrounds⟩ := hadvances.exists_rounds 20
                obtain ⟨accepted, rfl⟩ := hrounds.exists_ok (Message.exists_parseRound hend)
                obtain ⟨spans, hspans⟩ := hrounds.exists_slices hadvances
                rw [Message.parseAttributes_of_rounds hrounds] at hfound
                have hresult := Except.ok.inj hfound
                cases accepted with
                | false => exact absurd hresult (by simp)
                | true =>
                    obtain rfl := Option.some.inj hresult
                    exact ⟨hend, spans, hspans⟩

/-- Both loops are safe on any bytes. The rounds of `Message::parse` stay inside the bytes and go on
    by at least four; it returns, and the attributes of a message it accepts are slices of the
    declared body that do not overlap. The same holds for the loop of the fallback reader, with the
    end of the bytes for the end of the body, in a release build and for at most 65507 bytes in a
    debug build, which then has no overflow in the padding to panic on. It never panics on anything
    else. -/
theorem attribute_loops_safe (data : Bytes) :
    (∀ endOffset, endOffset ≤ data.length → SafeRounds (Message.parseRound data endOffset)) ∧
    (∃ result, Message.parse data = .ok result ∧ ∀ m, result = some m →
      20 + m.header.messageLength.toNat ≤ data.length ∧
      ∃ spans, Slices data 20 (20 + m.header.messageLength.toNat) m.attributes spans) ∧
    (∀ build endOffset, build = .release ∨ data.length ≤ 65507 →
      SafeRounds (fallbackRound build data endOffset) ∧
      ∃ as spans, fallbackAttributesIn build data endOffset 20 [] = .ok as ∧
        Slices data 20 data.length as spans) ∧
    ∀ build endOffset f, fallbackAttributesIn build data endOffset 20 [] = .error f →
      f = .arithmeticOverflow := by
  refine ⟨fun endOffset hend => ?_, ?_, fun build endOffset hsafe => ?_,
    fun build endOffset f hpanic => ?_⟩
  · exact (Message.advances_parseRound hend).safeRounds (Message.exists_parseRound hend)
  · obtain ⟨result, hresult⟩ := Message.exists_parse data
    refine ⟨result, hresult, ?_⟩
    rintro m rfl
    exact Message.exists_slices_of_parse hresult
  · have hadvances := advances_fallbackRound build data endOffset
    have hok := fallbackRound_ok hsafe endOffset
    obtain ⟨as, out, hrounds⟩ := hadvances.exists_rounds 20
    obtain ⟨spans, hspans⟩ := hrounds.exists_slices hadvances
    obtain ⟨result, rfl⟩ := hrounds.exists_ok hok
    exact ⟨hadvances.safeRounds hok, as, spans, fallbackAttributesIn_of_rounds hrounds [], hspans⟩
  · obtain ⟨as, out, hrounds⟩ := (advances_fallbackRound build data endOffset).exists_rounds 20
    rw [fallbackAttributesIn_of_rounds hrounds] at hpanic
    cases hout : out with
    | ok result => exact absurd hpanic (by simp [hout, Except.map])
    | error f' =>
        rw [hout] at hpanic
        obtain rfl := Except.error.inj hpanic
        obtain ⟨offset, hfault⟩ := hrounds.exists_fault hout
        rcases fallbackRound_cases build data endOffset offset with
          hleave | ⟨attr, further, hnext, -⟩ | ⟨-, -, hoverflow⟩
        · exact absurd (hleave.symm.trans hfault) (by simp)
        · exact absurd (hnext.symm.trans hfault) (by simp)
        · exact Except.error.inj (hfault.symm.trans hoverflow)

end Miuturn
