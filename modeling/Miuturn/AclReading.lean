import Miuturn.Acl

set_option autoImplicit false

/-! # How the access rules read a text

Addresses reach the rules as texts, and so do the ranges of the rules. `ip_in_range` never refuses
one: what is between dots and is not a number up to 255 counts as zero, and a prefix length that is
not a number counts as 32. Here every text gets the meaning it has for the rules, octet by octet. An
IPv4 address and its mapped form, which a dual-stack listener reports for the same client, are then
two different addresses: in `::ffff:a.b.c.d` the part before the first dot is not a number, so the
subnets see `0.b.c.d`. -/

open RustStd

namespace RustStd

/-! ## Mapped addresses -/

/-- `Ipv4Addr::octets`. -/
def Ipv4Addr.octets (ip : Ipv4Addr) : List UInt8 := [ip.a, ip.b, ip.c, ip.d]

/-- `Ipv4Addr::to_ipv6_mapped`. -/
def Ipv4Addr.toIpv6Mapped (ip : Ipv4Addr) : Ipv6Addr where
  segments := ⟨[0, 0, 0, 0, 0, 0xFFFF, UInt16.ofNat (ip.a.toNat * 256 + ip.b.toNat),
    UInt16.ofNat (ip.c.toNat * 256 + ip.d.toNat)], rfl⟩

theorem toNat_ofNat_octets (x y : UInt8) :
    (UInt16.ofNat (x.toNat * 256 + y.toNat)).toNat = x.toNat * 256 + y.toNat := by
  have hx := x.toNat_lt
  have hy := y.toNat_lt
  exact UInt16.toNat_ofNat_of_lt' (show x.toNat * 256 + y.toNat < 65536 by omega)

theorem ofNat_octets (x y : UInt8) :
    UInt8.ofNat ((x.toNat * 256 + y.toNat) / 256) = x ∧
      UInt8.ofNat (x.toNat * 256 + y.toNat) = y := by
  have hx := x.toNat_lt
  have hy := y.toNat_lt
  constructor
  · rw [← UInt8.toNat_inj, UInt8.toNat_ofNat']
    omega
  · rw [← UInt8.toNat_inj, UInt8.toNat_ofNat']
    omega

@[simp] theorem Ipv4Addr.toIpv4Mapped_toIpv6Mapped (ip : Ipv4Addr) :
    ip.toIpv6Mapped.toIpv4Mapped = some ip := by
  unfold Ipv4Addr.toIpv6Mapped Ipv6Addr.toIpv4Mapped
  simp only [toNat_ofNat_octets, ofNat_octets]

theorem Ipv4Addr.toString_toIpv6Mapped (ip : Ipv4Addr) :
    ip.toIpv6Mapped.toString = "::ffff:" ++ ip.toString := by
  unfold Ipv6Addr.toString
  rw [ip.toIpv4Mapped_toIpv6Mapped]

end RustStd

namespace Miuturn

open AuthManager

/-! ## Prefixes, octet by octet -/

/-- The octets agree in their first `n` bits. -/
def AgreeIn : ℕ → List UInt8 → List UInt8 → Prop
  | n, x :: xs, y :: ys =>
    x.toNat / 2 ^ (8 - n) = y.toNat / 2 ^ (8 - n) ∧ AgreeIn (n - 8) xs ys
  | _, _, _ => True

/-- The number that octets make, the first octet highest. -/
def octetsValue : List UInt8 → ℕ
  | [] => 0
  | x :: xs => x.toNat * 2 ^ (8 * xs.length) + octetsValue xs

theorem octetsValue_lt (xs : List UInt8) : octetsValue xs < 2 ^ (8 * xs.length) := by
  induction xs with
  | nil => exact Nat.one_pos
  | cons x xs ih =>
      have hx := x.toNat_lt
      have hpow : 2 ^ (8 * (x :: xs).length) = 256 * 2 ^ (8 * xs.length) := by
        rw [List.length_cons, Nat.mul_succ, Nat.pow_add, Nat.mul_comm]
      rw [octetsValue, hpow]
      calc x.toNat * 2 ^ (8 * xs.length) + octetsValue xs
          < x.toNat * 2 ^ (8 * xs.length) + 2 ^ (8 * xs.length) := by omega
        _ = (x.toNat + 1) * 2 ^ (8 * xs.length) := (Nat.succ_mul _ _).symm
        _ ≤ 256 * 2 ^ (8 * xs.length) := Nat.mul_le_mul_right _ (by omega)

/-- Whether two numbers of `m` bits and one more octet in front agree in their first `n` bits is
    decided by the octets and, from the ninth bit on, by the numbers. -/
theorem prefix_octet_iff {m n u v : ℕ} (x y : ℕ) (hu : u < 2 ^ m) (hv : v < 2 ^ m) :
    (x * 2 ^ m + u) / 2 ^ (m + 8 - n) = (y * 2 ^ m + v) / 2 ^ (m + 8 - n) ↔
      x / 2 ^ (8 - n) = y / 2 ^ (8 - n) ∧ u / 2 ^ (m - (n - 8)) = v / 2 ^ (m - (n - 8)) := by
  by_cases hn : n ≤ 8
  · have hexp : m + 8 - n = m + (8 - n) := by omega
    have hfront : ∀ x {u}, u < 2 ^ m → (x * 2 ^ m + u) / 2 ^ (m + (8 - n)) = x / 2 ^ (8 - n) := by
      intro x u hu
      rw [Nat.pow_add, ← Nat.div_div_eq_div_mul, Nat.mul_comm,
        Nat.mul_add_div (Nat.two_pow_pos m), Nat.div_eq_of_lt hu, Nat.add_zero]
    have hrest : n - 8 = 0 := by omega
    rw [hexp, hfront x hu, hfront y hv, hrest, Nat.sub_zero, Nat.div_eq_of_lt hu,
      Nat.div_eq_of_lt hv]
    exact (and_iff_left rfl).symm
  · have hexp : m + 8 - n = m - (n - 8) := by omega
    have hfront : 8 - n = 0 := by omega
    rw [hexp, hfront, Nat.pow_zero, Nat.div_one, Nat.div_one]
    -- the bits that are left out are bits of the two numbers
    obtain ⟨r, hr⟩ : ∃ r, 2 ^ m = 2 ^ (m - (n - 8)) * r :=
      Nat.pow_dvd_pow 2 (Nat.sub_le m (n - 8))
    generalize 2 ^ (m - (n - 8)) = q at *
    rw [hr] at hu hv ⊢
    have hq : 0 < q := Nat.pos_of_mul_pos_right (Nat.zero_lt_of_lt hu)
    have hdiv : ∀ x u, (x * (q * r) + u) / q = x * r + u / q := by
      intro x u
      rw [Nat.mul_left_comm, Nat.mul_add_div hq]
    rw [hdiv, hdiv]
    have hs := Nat.div_lt_of_lt_mul hu
    have ht := Nat.div_lt_of_lt_mul hv
    generalize u / q = s at *
    generalize v / q = t at *
    constructor
    · intro heq
      have hr0 : 0 < r := Nat.zero_lt_of_lt hs
      have hx : (x * r + s) / r = x := by
        rw [Nat.mul_comm, Nat.mul_add_div hr0, Nat.div_eq_of_lt hs, Nat.add_zero]
      have hy : (y * r + t) / r = y := by
        rw [Nat.mul_comm, Nat.mul_add_div hr0, Nat.div_eq_of_lt ht, Nat.add_zero]
      obtain rfl : x = y := by rw [← hx, heq, hy]
      exact ⟨rfl, Nat.add_left_cancel heq⟩
    · rintro ⟨rfl, rfl⟩
      rfl

/-- To agree in the first bits is to agree as numbers without the other bits. -/
theorem agreeIn_iff (n : ℕ) (xs ys : List UInt8) (hlen : xs.length = ys.length) :
    AgreeIn n xs ys ↔
      octetsValue xs / 2 ^ (8 * xs.length - n) = octetsValue ys / 2 ^ (8 * ys.length - n) := by
  induction xs generalizing n ys with
  | nil =>
      obtain rfl := List.length_eq_zero_iff.1 hlen.symm
      exact iff_of_true trivial rfl
  | cons x xs ih =>
      cases ys with
      | nil => exact absurd hlen (by simp)
      | cons y ys =>
          have hlen' : xs.length = ys.length := Nat.succ.inj hlen
          have hys := octetsValue_lt ys
          rw [← hlen'] at hys
          rw [AgreeIn, ih (n - 8) ys hlen', octetsValue, octetsValue, List.length_cons,
            List.length_cons, ← hlen', Nat.mul_succ,
            prefix_octet_iff x.toNat y.toNat (octetsValue_lt xs) hys]

/-! ## What a rule names -/

/-- The prefix length after the slash. -/
def maskLength (mask : List Char) : ℕ := (parseUnsigned 4294967295 mask).getD 32

/-- The octets that the subnets take a text for: one for each part between dots. -/
def octetsOf (s : List Char) : List UInt8 := (s.splitOn '.').map octetReading

theorem quadReading_eq_some {s : List Char} {ip : Ipv4Addr} :
    quadReading s = some ip ↔ octetsOf s = ip.octets := by
  obtain ⟨a, b, c, d⟩ := ip
  unfold quadReading octetsOf Ipv4Addr.octets
  rcases s.splitOn '.' with _ | ⟨p, _ | ⟨q, _ | ⟨r, _ | ⟨t, _ | ⟨u, rest⟩⟩⟩⟩⟩ <;> simp

theorem octetsValue_octets (ip : Ipv4Addr) : octetsValue ip.octets = ip.word := by
  unfold Ipv4Addr.octets Ipv4Addr.word
  simp only [octetsValue, List.length_cons, List.length_nil]
  omega

theorem agreeIn_octets (n : ℕ) (a b : Ipv4Addr) :
    AgreeIn n a.octets b.octets ↔ a.word / 2 ^ (32 - n) = b.word / 2 ^ (32 - n) := by
  rw [agreeIn_iff n a.octets b.octets rfl, octetsValue_octets, octetsValue_octets]
  rfl

/-- The subnet test compares texts of four parts octet by octet; a prefix length of zero holds every
    text. -/
theorem ipMatchesSubnet_iff_octets (ip base : List Char) (len : ℕ) :
    ipMatchesSubnet ip base len = true ↔ len = 0 ∨ ((octetsOf ip).length = 4 ∧
      (octetsOf base).length = 4 ∧ AgreeIn len (octetsOf ip) (octetsOf base)) := by
  have hquad : ∀ s : List Char, (octetsOf s).length = 4 ↔ ∃ a, quadReading s = some a := by
    intro s
    simp only [quadReading_eq_some]
    constructor
    · intro hlen
      match octetsOf s, hlen with
      | [a, b, c, d], _ => exact ⟨⟨a, b, c, d⟩, rfl⟩
    · rintro ⟨a, ha⟩
      rw [ha]
      rfl
  rw [ipMatchesSubnet_iff_reading, hquad, hquad]
  refine or_congr_right ⟨?_, ?_⟩
  · rintro ⟨a, b, ha, hb, hbits⟩
    refine ⟨⟨a, ha⟩, ⟨b, hb⟩, ?_⟩
    rw [quadReading_eq_some.1 ha, quadReading_eq_some.1 hb, agreeIn_octets]
    exact hbits
  · rintro ⟨⟨a, ha⟩, ⟨b, hb⟩, hagree⟩
    rw [quadReading_eq_some.1 ha, quadReading_eq_some.1 hb, agreeIn_octets] at hagree
    exact ⟨a, b, ha, hb, hagree⟩

theorem contains_slash_of_splitOn {range : String} {base mask : List Char}
    (hsplit : range.toList.splitOn '/' = [base, mask]) : '/' ∈ range.toList := by
  by_contra hslash
  rw [List.splitOn_eq_singleton hslash] at hsplit
  exact absurd hsplit (by simp)

/-- What a rule with one slash holds. -/
theorem ipInRange_split {range : String} {base mask : List Char}
    (hsplit : range.toList.splitOn '/' = [base, mask]) (ip : String) :
    ipInRange ip range = true ↔ maskLength mask = 0 ∨ ((octetsOf ip.toList).length = 4 ∧
      (octetsOf base).length = 4 ∧ AgreeIn (maskLength mask) (octetsOf ip.toList)
        (octetsOf base)) := by
  have hslash := List.contains_iff_mem.2 (contains_slash_of_splitOn hsplit)
  unfold ipInRange
  rw [if_pos hslash, hsplit]
  exact ipMatchesSubnet_iff_octets _ _ _

/-- How the range of a rule names a text that the subnets take for the octets `seen`: it is that
    text; or it has a prefix length of zero; or its base has four parts that agree with the octets
    in the prefix. -/
inductive Names (range text : String) (seen : List UInt8) : Prop where
  | text (heq : range = text)
  | everything {base mask : List Char} (hsplit : range.toList.splitOn '/' = [base, mask])
      (hzero : maskLength mask = 0)
  | subnet {base mask : List Char} (hsplit : range.toList.splitOn '/' = [base, mask])
      (hparts : (octetsOf base).length = 4)
      (hagree : AgreeIn (maskLength mask) seen (octetsOf base))

theorem ipInRange_iff_names {text : String} {seen : List UInt8} (hslash : '/' ∉ text.toList)
    (hseen : octetsOf text.toList = seen) (hfour : seen.length = 4) (range : String) :
    ipInRange text range = true ↔ Names range text seen := by
  subst hseen
  constructor
  · intro h
    by_cases hrange : '/' ∈ range.toList
    · rcases hsplit : range.toList.splitOn '/' with _ | ⟨base, _ | ⟨mask, _ | ⟨third, rest⟩⟩⟩
      case cons.cons.nil =>
        rcases (ipInRange_split hsplit text).1 h with hzero | ⟨-, hparts, hagree⟩
        · exact .everything hsplit hzero
        · exact .subnet hsplit hparts hagree
      all_goals
        unfold ipInRange at h
        rw [if_pos (List.contains_iff_mem.2 hrange), hsplit] at h
        exact absurd h (by simp)
    · unfold ipInRange at h
      rw [if_neg (by rwa [List.contains_iff_mem])] at h
      exact .text (eq_of_beq h).symm
  · intro h
    cases h with
    | text heq =>
        subst heq
        unfold ipInRange
        rw [if_neg (by rwa [List.contains_iff_mem])]
        exact beq_self_eq_true _
    | everything hsplit hzero => exact (ipInRange_split hsplit text).2 (Or.inl hzero)
    | subnet hsplit hparts hagree =>
        exact (ipInRange_split hsplit text).2 (Or.inr ⟨hfour, hparts, hagree⟩)

/-! ## Mapped addresses -/

/-- What the subnets take the mapped form of an address for. -/
def seenMapped (ip : Ipv4Addr) : Ipv4Addr := { ip with a := 0 }

theorem quadReading_mapped (ip : Ipv4Addr) :
    quadReading ip.toIpv6Mapped.toString.toList = some (seenMapped ip) := by
  have htext : ip.toIpv6Mapped.toString.toList = ['.'].intercalate
      (("::ffff:".toList ++ (decimal ip.a.toNat).toList) :: ip.parts.tail) := by
    rw [ip.toString_toIpv6Mapped, String.toList_append, ip.toList_toString]
    simp [Ipv4Addr.parts, List.intercalate]
  have hdots : ∀ part ∈ ("::ffff:".toList ++ (decimal ip.a.toNat).toList) :: ip.parts.tail,
      '.' ∉ part := by
    intro part hpart
    rcases List.mem_cons.1 hpart with rfl | hpart
    · rw [List.mem_append, not_or]
      exact ⟨by decide, (digits_decimal ip.a.toNat).notMem (by decide)⟩
    · exact ip.notMem_parts (by decide) part (List.mem_of_mem_tail hpart)
  have hzero : octetReading ("::ffff:".toList ++ (decimal ip.a.toNat).toList) = 0 := rfl
  unfold quadReading
  rw [htext, List.splitOn_intercalate '.' hdots (by simp)]
  simp only [Ipv4Addr.parts, List.map_cons, List.map_nil, List.tail_cons, octetReading_decimal,
    hzero]
  rfl

theorem ne_toString_of_colon {s : String} (h : ':' ∈ s.toList) (a : Ipv4Addr) : s ≠ a.toString := by
  rintro rfl
  exact a.notMem_toString (by decide) (by decide) h

/-- The range names the address `a.b.c.d`. -/
def NamesAddr (a : Ipv4Addr) (rule : AclRule) : Prop :=
  Names rule.ipRange a.toString [a.a, a.b, a.c, a.d]

/-- The range names its mapped form, which the subnets take for `0.b.c.d`. -/
def NamesMapped (a : Ipv4Addr) (rule : AclRule) : Prop :=
  Names rule.ipRange ("::ffff:" ++ a.toString) [0, a.b, a.c, a.d]

/-- A subnet that takes both forms of the address for the same: its prefix length is zero, or the
    first octet has no bit set in the prefix. -/
def SeesAlike (a : Ipv4Addr) (rule : AclRule) : Prop :=
  ∃ base mask, rule.ipRange.toList.splitOn '/' = [base, mask] ∧
    (maskLength mask = 0 ∨ a.a.toNat / 2 ^ (8 - maskLength mask) = 0)

theorem slash_notMem (a : Ipv4Addr) : '/' ∉ a.toString.toList :=
  a.notMem_toString (by decide) (by decide)

theorem slash_notMem_mapped (a : Ipv4Addr) : '/' ∉ ("::ffff:" ++ a.toString).toList := by
  rw [String.toList_append, List.mem_append, not_or]
  exact ⟨by decide, slash_notMem a⟩

theorem ipInRange_addr_iff (a : Ipv4Addr) (rule : AclRule) :
    ipInRange a.toString rule.ipRange = true ↔ NamesAddr a rule :=
  ipInRange_iff_names (slash_notMem a) (quadReading_eq_some.1 (quadReading_toString a)) rfl _

theorem ipInRange_mapped_iff (a : Ipv4Addr) (rule : AclRule) :
    ipInRange ("::ffff:" ++ a.toString) rule.ipRange = true ↔ NamesMapped a rule := by
  have hseen := quadReading_mapped a
  rw [a.toString_toIpv6Mapped] at hseen
  exact ipInRange_iff_names (slash_notMem_mapped a) (quadReading_eq_some.1 hseen) rfl _

theorem names_split {range text : String} {seen : List UInt8} {base mask : List Char}
    (hsplit : range.toList.splitOn '/' = [base, mask]) (hslash : '/' ∉ text.toList) :
    Names range text seen ↔ maskLength mask = 0 ∨
      ((octetsOf base).length = 4 ∧ AgreeIn (maskLength mask) seen (octetsOf base)) := by
  constructor
  · intro h
    cases h with
    | text heq =>
        subst heq
        exact absurd (contains_slash_of_splitOn hsplit) hslash
    | everything hsplit' hzero =>
        obtain ⟨rfl, rfl⟩ : base = _ ∧ mask = _ := by simpa using hsplit.symm.trans hsplit'
        exact Or.inl hzero
    | subnet hsplit' hparts hagree =>
        obtain ⟨rfl, rfl⟩ : base = _ ∧ mask = _ := by simpa using hsplit.symm.trans hsplit'
        exact Or.inr ⟨hparts, hagree⟩
  · rintro (hzero | ⟨hparts, hagree⟩)
    · exact .everything hsplit hzero
    · exact .subnet hsplit hparts hagree

theorem names_text {range text : String} {seen : List UInt8}
    (hsplit : ∀ base mask, range.toList.splitOn '/' ≠ [base, mask]) :
    Names range text seen ↔ range = text := by
  refine ⟨fun h => ?_, .text⟩
  cases h with
  | text heq => exact heq
  | everything hsplit' _ => exact absurd hsplit' (hsplit _ _)
  | subnet hsplit' _ _ => exact absurd hsplit' (hsplit _ _)

theorem seesAlike_split {a : Ipv4Addr} {rule : AclRule} {base mask : List Char}
    (hsplit : rule.ipRange.toList.splitOn '/' = [base, mask]) :
    SeesAlike a rule ↔ maskLength mask = 0 ∨ a.a.toNat / 2 ^ (8 - maskLength mask) = 0 := by
  constructor
  · rintro ⟨base', mask', hsplit', hsees⟩
    obtain ⟨-, rfl⟩ : base = base' ∧ mask = mask' := by simpa using hsplit.symm.trans hsplit'
    exact hsees
  · exact fun hsees => ⟨base, mask, hsplit, hsees⟩

/-- A rule names both forms exactly if it names one of them and sees them alike. -/
theorem names_both_iff (a : Ipv4Addr) (rule : AclRule) :
    NamesAddr a rule ∧ NamesMapped a rule ↔
      (NamesAddr a rule ∨ NamesMapped a rule) ∧ SeesAlike a rule := by
  by_cases hsubnet : ∃ base mask, rule.ipRange.toList.splitOn '/' = [base, mask]
  · obtain ⟨base, mask, hsplit⟩ := hsubnet
    unfold NamesAddr NamesMapped
    rw [names_split hsplit (slash_notMem a), names_split hsplit (slash_notMem_mapped a),
      seesAlike_split hsplit]
    by_cases hzero : maskLength mask = 0
    · simp [hzero]
    by_cases hparts : (octetsOf base).length = 4
    · -- the two forms differ in the first octet only
      match octetsOf base, hparts with
      | y :: ys, hfour =>
          have hnone : (0 : UInt8).toNat / 2 ^ (8 - maskLength mask) = 0 := Nat.zero_div _
          simp only [hzero, hfour, AgreeIn, hnone, false_or, true_and]
          constructor
          · rintro ⟨⟨hx, hrest⟩, hy, -⟩
            exact ⟨Or.inl ⟨hx, hrest⟩, hx.trans hy.symm⟩
          · rintro ⟨⟨hx, hrest⟩ | ⟨hy, hrest⟩, hsame⟩
            · exact ⟨⟨hx, hrest⟩, hsame.symm.trans hx, hrest⟩
            · exact ⟨⟨hsame.trans hy, hrest⟩, hy, hrest⟩
    · simp [hzero, hparts]
  · have hnone : ∀ base mask, rule.ipRange.toList.splitOn '/' ≠ [base, mask] :=
      fun base mask hsplit => hsubnet ⟨base, mask, hsplit⟩
    unfold NamesAddr NamesMapped
    rw [names_text hnone, names_text hnone]
    refine iff_of_false ?_ ?_
    · rintro ⟨haddr, hmapped⟩
      refine ne_toString_of_colon ?_ a (hmapped.symm.trans haddr)
      rw [String.toList_append]
      exact List.mem_append_left _ (by decide)
    · rintro ⟨-, base, mask, hsplit, -⟩
      exact hnone base mask hsplit

/-! ## Decisions -/

section First

variable {N P : AclRule → Prop} {C : AclRule → List AclRule → Prop} {rule : AclRule}
  {rules : List AclRule} {action : AclAction}

/-- What holds of the first rule of `N`, if there is one, and of the rules behind it. -/
def OfFirst (N : AclRule → Prop) (C : AclRule → List AclRule → Prop) (rules : List AclRule) :
    Prop :=
  ∀ pre rule post, rules = pre ++ rule :: post → (∀ r ∈ pre, ¬ N r) → N rule → C rule post

theorem ofFirst_nil : OfFirst N C [] := by
  intro pre rule post heq
  exact absurd heq (by simp)

theorem ofFirst_cons (h : N rule) : OfFirst N C (rule :: rules) ↔ C rule rules := by
  constructor
  · intro hfirst
    exact hfirst [] rule rules rfl (by simp) h
  · rintro hC (_ | ⟨x, pre⟩) r post heq hpre -
    · obtain ⟨rfl, rfl⟩ := List.cons.inj heq
      exact hC
    · obtain ⟨rfl, -⟩ := List.cons.inj heq
      exact absurd h (hpre _ List.mem_cons_self)

theorem ofFirst_cons_of_not (h : ¬ N rule) : OfFirst N C (rule :: rules) ↔ OfFirst N C rules := by
  constructor
  · rintro hfirst pre r post rfl hpre
    exact hfirst (rule :: pre) r post rfl (List.forall_mem_cons.2 ⟨h, hpre⟩)
  · rintro hfirst (_ | ⟨x, pre⟩) r post heq hpre hr
    · obtain ⟨rfl, -⟩ := List.cons.inj heq
      exact absurd hr h
    · obtain ⟨-, rfl⟩ := List.cons.inj heq
      exact hfirst pre r post rfl (fun r' hr' => hpre r' (List.mem_cons_of_mem _ hr')) hr

/-- The rules decide so about what `P` names: the first of them that does acts so, and if there is
    none the decision is to allow. -/
structure Decides (P : AclRule → Prop) (rules : List AclRule) (action : AclAction) : Prop where
  first : OfFirst P (fun rule _ => rule.action = action) rules
  default : (∀ r ∈ rules, ¬ P r) → action = .allow

theorem decides_nil : Decides P [] action ↔ action = .allow :=
  ⟨fun h => h.default (by simp), fun h => ⟨ofFirst_nil, fun _ => h⟩⟩

theorem decides_cons (h : P rule) : Decides P (rule :: rules) action ↔ rule.action = action := by
  refine ⟨fun hd => (ofFirst_cons h).1 hd.first, fun hact => ⟨(ofFirst_cons h).2 hact, ?_⟩⟩
  exact fun hnone => absurd h (hnone rule List.mem_cons_self)

theorem decides_cons_of_not (h : ¬ P rule) :
    Decides P (rule :: rules) action ↔ Decides P rules action := by
  have hnone : (∀ r ∈ rule :: rules, ¬ P r) ↔ ∀ r ∈ rules, ¬ P r := by simp [h]
  constructor
  · rintro ⟨hfirst, hdefault⟩
    exact ⟨(ofFirst_cons_of_not h).1 hfirst, fun hn => hdefault (hnone.2 hn)⟩
  · rintro ⟨hfirst, hdefault⟩
    exact ⟨(ofFirst_cons_of_not h).2 hfirst, fun hn => hdefault (hnone.1 hn)⟩

/-- `check_acl` allows exactly what the rules decide to allow. -/
theorem checkAcl_iff_decides (am : AuthManager) {ip : String}
    (hnames : ∀ rule, ipInRange ip rule.ipRange = true ↔ P rule) :
    ∃ action, am.checkAcl ip = (action == .allow) ∧
      ∀ action', Decides P am.aclRules action' ↔ action = action' := by
  obtain ⟨users, rules⟩ := am
  unfold checkAcl
  induction rules with
  | nil => exact ⟨.allow, rfl, fun action' => decides_nil.trans eq_comm⟩
  | cons rule rules ih =>
      dsimp only at ih ⊢
      rw [List.find?_cons]
      by_cases hrule : P rule
      · rw [(hnames rule).2 hrule]
        exact ⟨rule.action, rfl, fun action' => decides_cons hrule⟩
      · rw [Bool.eq_false_of_not_eq_true fun h => hrule ((hnames rule).1 h)]
        obtain ⟨action, hcheck, hdecides⟩ := ih
        exact ⟨action, hcheck, fun action' => (decides_cons_of_not hrule).trans (hdecides action')⟩

end First

/-- The first rule that names one of the two forms of an address sees them alike, or what the rules
    behind it decide about the other form is what it does. -/
def DecideAlike (a : Ipv4Addr) : List AclRule → Prop :=
  OfFirst (fun rule => NamesAddr a rule ∨ NamesMapped a rule) fun rule post =>
    SeesAlike a rule ∨ (NamesAddr a rule ∧ Decides (NamesMapped a) post rule.action) ∨
      (NamesMapped a rule ∧ Decides (NamesAddr a) post rule.action)

theorem decideAlike_iff (a : Ipv4Addr) (rules : List AclRule) :
    DecideAlike a rules ↔
      ∃ action, Decides (NamesAddr a) rules action ∧ Decides (NamesMapped a) rules action := by
  induction rules with
  | nil =>
      exact iff_of_true ofFirst_nil ⟨.allow, decides_nil.2 rfl, decides_nil.2 rfl⟩
  | cons rule rules ih =>
      have hboth := names_both_iff a rule
      unfold DecideAlike at ih ⊢
      by_cases haddr : NamesAddr a rule
      · rw [ofFirst_cons (Or.inl haddr)]
        simp only [decides_cons haddr, exists_eq_left']
        by_cases hmapped : NamesMapped a rule
        · exact iff_of_true (Or.inl (hboth.1 ⟨haddr, hmapped⟩).2) ((decides_cons hmapped).2 rfl)
        · have hsees : ¬ SeesAlike a rule := fun h => hmapped (hboth.2 ⟨Or.inl haddr, h⟩).2
          rw [decides_cons_of_not hmapped]
          simp [hsees, haddr, hmapped]
      · by_cases hmapped : NamesMapped a rule
        · have hsees : ¬ SeesAlike a rule := fun h => haddr (hboth.2 ⟨Or.inr hmapped, h⟩).1
          rw [ofFirst_cons (Or.inr hmapped)]
          simp only [decides_cons_of_not haddr, decides_cons hmapped, exists_eq_right']
          simp [hsees, haddr, hmapped]
        · rw [ofFirst_cons_of_not (fun h => h.elim haddr hmapped), ih]
          simp only [decides_cons_of_not haddr, decides_cons_of_not hmapped]

theorem beq_allow_inj {x y : AclAction} : (x == .allow) = (y == .allow) ↔ x = y := by
  cases x <;> cases y <;> decide

/-- When a client gets one decision however its address is written, and when a subnet holds a text
    that is not an address. The decision for `a.b.c.d` is that for its mapped form exactly if the
    first rule that names one of the two (for the subnets, `a.b.c.d` and `0.b.c.d`) has a prefix in
    which `a` has no bit set, or acts as the rules behind it do on the other. A rule with a prefix
    length of at least one does not hold a text exactly if the text or its base does not have four
    parts, or the parts, with zero for what is not a number up to 255, differ in the prefix. -/
theorem acl_decision_iff (am : AuthManager) :
    (∀ a : Ipv4Addr, am.checkAcl (IpAddr.v4 a).toString
        = am.checkAcl (IpAddr.v6 a.toIpv6Mapped).toString ↔ DecideAlike a am.aclRules) ∧
    ∀ ip : String, (∀ a : Ipv4Addr, ip ≠ a.toString) → ∀ (range : String) (base mask : List Char),
      range.toList.splitOn '/' = [base, mask] → 1 ≤ maskLength mask →
      (ipInRange ip range = false ↔
        (octetsOf ip.toList).length ≠ 4 ∨ (octetsOf base).length ≠ 4 ∨
          ¬ AgreeIn (maskLength mask) (octetsOf ip.toList) (octetsOf base)) := by
  constructor
  · intro a
    have hmapped : (IpAddr.v6 a.toIpv6Mapped).toString = "::ffff:" ++ a.toString :=
      a.toString_toIpv6Mapped
    obtain ⟨action, hcheck, hdecides⟩ := checkAcl_iff_decides am (ipInRange_addr_iff a)
    obtain ⟨action', hcheck', hdecides'⟩ := checkAcl_iff_decides am (ipInRange_mapped_iff a)
    rw [hmapped, decideAlike_iff]
    show am.checkAcl a.toString = _ ↔ _
    rw [hcheck, hcheck', beq_allow_inj]
    simp only [hdecides, hdecides']
    exact ⟨fun h => ⟨action', h, rfl⟩, fun ⟨_, h, h'⟩ => h.trans h'.symm⟩
  · intro ip _ range base mask hsplit hmask
    rw [← Bool.not_eq_true, ipInRange_split hsplit ip, or_iff_right (by omega)]
    simp only [not_and_or, ne_eq]

/-- An address of the other family, which has no four parts, is in no subnet. -/
theorem acl_decision_iff_ipv6 :
    (∀ a : Ipv4Addr, "fe80::1" ≠ a.toString) ∧ ipInRange "fe80::1" "10.0.0.0/8" = false := by
  have hnot : ∀ a : Ipv4Addr, "fe80::1" ≠ a.toString := ne_toString_of_colon (by decide)
  refine ⟨hnot, ((acl_decision_iff .new).2 "fe80::1" hnot "10.0.0.0/8" "10.0.0.0".toList ['8']
    (by decide) (by decide)).2 (Or.inl (by decide))⟩

/-- A rule that denies `10.0.0.0/8` denies the client `10.0.0.7` and admits the same client under
    its mapped address, which a rule for `0.0.0.0/8` holds. -/
theorem mapped_client_admitted :
    (⟨∅, [⟨"10.0.0.0/8", .deny, 1⟩]⟩ : AuthManager).checkAcl
        (IpAddr.v4 ⟨10, 0, 0, 7⟩).toString = false ∧
      (⟨∅, [⟨"10.0.0.0/8", .deny, 1⟩]⟩ : AuthManager).checkAcl
        (IpAddr.v6 (Ipv4Addr.toIpv6Mapped ⟨10, 0, 0, 7⟩)).toString = true ∧
      (∀ a : Ipv4Addr, "::ffff:10.0.0.7" ≠ a.toString) ∧
      ipInRange "::ffff:10.0.0.7" "0.0.0.0/8" = true := by
  exact ⟨by decide +kernel, by decide +kernel, ne_toString_of_colon (by decide), by decide +kernel⟩

end Miuturn
