import Miuturn.StableSort
import Miuturn.System

set_option autoImplicit false

/-! # What the access rules decide

`check_acl` takes the first rule that holds an address, in a list that every `add_acl_rule` sorts
again. So of the rules that hold the address the one with the greatest priority decides, and among
equals the one added first. The rules are texts; for a text that is a dotted quad, or one with a
prefix length, what it holds is a matter of numbers: the address itself, or the addresses with the
same leading bits. -/

open RustStd StableSort

namespace RustStd

/-! ## Dotted quads -/

/-- The address as a 32-bit number. -/
def Ipv4Addr.word (ip : Ipv4Addr) : ℕ :=
  ((ip.a.toNat * 256 + ip.b.toNat) * 256 + ip.c.toNat) * 256 + ip.d.toNat

theorem Ipv4Addr.word_lt (ip : Ipv4Addr) : ip.word < 2 ^ 32 := by
  have ha := ip.a.toNat_lt
  have hb := ip.b.toNat_lt
  have hc := ip.c.toNat_lt
  have hd := ip.d.toNat_lt
  unfold Ipv4Addr.word
  omega

/-- A number of decimal digits, as it is read. -/
structure Digits (s : List Char) (n : ℕ) : Prop where
  nonempty : s ≠ []
  digits : ∀ c ∈ s, c.isDigit = true
  value : Nat.ofDigitChars 10 s 0 = n

theorem digits_decimal (n : ℕ) : Digits (decimal n).toList n := by
  unfold decimal
  rw [Nat.toList_repr]
  exact ⟨Nat.toDigits_ne_nil, fun c hc => Nat.isDigit_of_mem_toDigits (by decide) (by decide) hc,
    Nat.ofDigitChars_ten_toDigits⟩

theorem Digits.notMem {s : List Char} {n : ℕ} (h : Digits s n) {c : Char}
    (hc : c.isDigit = false) : c ∉ s := by
  intro hmem
  exact absurd ((h.digits c hmem).symm.trans hc) (by decide)

theorem Digits.parseUnsigned {s : List Char} {n max : ℕ} (h : Digits s n) (hmax : n ≤ max) :
    parseUnsigned max s = some n := by
  have hplus : ∀ rest, s ≠ '+' :: rest := by
    rintro rest rfl
    exact h.notMem (c := '+') (by decide) (by simp)
  have hall : s.all Char.isDigit = true := List.all_eq_true.2 h.digits
  unfold RustStd.parseUnsigned
  split
  · next rest => exact absurd rfl (hplus rest)
  · simp [h.nonempty, hall, h.value, hmax]

theorem parseUnsigned_le {max n : ℕ} {s : List Char} (h : parseUnsigned max s = some n) :
    n ≤ max := by
  unfold parseUnsigned at h
  simp only [Option.ite_none_left_eq_some, Option.ite_none_right_eq_some, Option.some.injEq] at h
  obtain ⟨-, hle, rfl⟩ := h
  exact hle

/-- The four parts of a dotted quad. -/
def Ipv4Addr.parts (ip : Ipv4Addr) : List (List Char) :=
  [ip.a, ip.b, ip.c, ip.d].map (fun octet => (decimal octet.toNat).toList)

theorem Ipv4Addr.toList_toString (ip : Ipv4Addr) :
    ip.toString.toList = ['.'].intercalate ip.parts := by
  simp [Ipv4Addr.toString, Ipv4Addr.parts, List.intercalate, String.toList_append]

theorem Ipv4Addr.notMem_parts (ip : Ipv4Addr) {c : Char} (hc : c.isDigit = false) :
    ∀ part ∈ ip.parts, c ∉ part := by
  intro part hpart
  obtain ⟨octet, -, rfl⟩ := List.mem_map.1 hpart
  exact (digits_decimal octet.toNat).notMem hc

theorem Ipv4Addr.splitOn_toString (ip : Ipv4Addr) :
    ip.toString.toList.splitOn '.' = ip.parts := by
  rw [ip.toList_toString]
  exact List.splitOn_intercalate '.' (ip.notMem_parts (by decide)) (by simp [Ipv4Addr.parts])

/-- The text of an address has digits and dots only. -/
theorem Ipv4Addr.notMem_toString (ip : Ipv4Addr) {c : Char} (hdigit : c.isDigit = false)
    (hdot : c ≠ '.') : c ∉ ip.toString.toList := by
  have hparts := ip.notMem_parts hdigit
  rw [ip.toList_toString]
  simp only [Ipv4Addr.parts, List.map_cons, List.map_nil] at hparts ⊢
  simp only [List.mem_cons, List.not_mem_nil, or_false, forall_eq_or_imp, forall_eq] at hparts
  simp [List.intercalate, hparts, hdot]

theorem Ipv4Addr.slash_notMem (ip : Ipv4Addr) : '/' ∉ ip.toString.toList :=
  ip.notMem_toString (by decide) (by decide)

/-! ## Words and masks -/

theorem toNat_shiftLeft_octet {x : ℕ} {i : UInt32} (hx : x < 256) (hi : i.toNat ≤ 24) :
    (UInt32.ofNat x <<< i).toNat = 2 ^ i.toNat * x := by
  have hlt : 2 ^ i.toNat * x < 2 ^ 32 :=
    calc 2 ^ i.toNat * x ≤ 2 ^ 24 * x :=
          Nat.mul_le_mul_right x (Nat.pow_le_pow_right (by decide) hi)
      _ < 2 ^ 32 := by omega
  have hx' : (UInt32.ofNat x).toNat = x := UInt32.toNat_ofNat_of_lt' (hx.trans (by decide))
  rw [UInt32.toNat_shiftLeft, hx', Nat.mod_eq_of_lt (show i.toNat < 32 by omega), Nat.shiftLeft_eq,
    Nat.mul_comm, Nat.mod_eq_of_lt hlt]

theorem toNat_quad {a b c d : ℕ} (ha : a < 256) (hb : b < 256) (hc : c < 256) (hd : d < 256) :
    ((UInt32.ofNat a <<< 24) ||| (UInt32.ofNat b <<< 16) ||| (UInt32.ofNat c <<< 8) |||
      UInt32.ofNat d).toNat = ((a * 256 + b) * 256 + c) * 256 + d := by
  have h24 : (UInt32.ofNat a <<< 24).toNat = 2 ^ 24 * a := toNat_shiftLeft_octet ha (by decide)
  have h16 : (UInt32.ofNat b <<< 16).toNat = 2 ^ 16 * b := toNat_shiftLeft_octet hb (by decide)
  have h8 : (UInt32.ofNat c <<< 8).toNat = 2 ^ 8 * c := toNat_shiftLeft_octet hc (by decide)
  have h0 : (UInt32.ofNat d).toNat = d := UInt32.toNat_ofNat_of_lt' (hd.trans (by decide))
  rw [UInt32.toNat_or, UInt32.toNat_or, UInt32.toNat_or, h24, h16, h8, h0, Nat.or_assoc,
    Nat.or_assoc, ← Nat.two_pow_add_eq_or_of_lt (show d < 2 ^ 8 from hd),
    ← Nat.two_pow_add_eq_or_of_lt (show 2 ^ 8 * c + d < 2 ^ 16 by omega),
    ← Nat.two_pow_add_eq_or_of_lt (show 2 ^ 16 * b + (2 ^ 8 * c + d) < 2 ^ 24 by omega)]
  omega

theorem toNat_mask {n : ℕ} (hpos : 0 < n) (hn : n < 32) :
    (~~~(((1 : UInt32) <<< UInt32.ofNat (32 - n)) - 1)).toNat = 2 ^ 32 - 2 ^ (32 - n) := by
  have hlt : 2 ^ (32 - n) < 2 ^ 32 := Nat.pow_lt_pow_right (by decide) (by omega)
  have hone : 1 ≤ 2 ^ (32 - n) := Nat.one_le_two_pow
  have hk : (UInt32.ofNat (32 - n)).toNat = 32 - n :=
    UInt32.toNat_ofNat_of_lt' (show 32 - n < 4294967296 by omega)
  have hshift : ((1 : UInt32) <<< UInt32.ofNat (32 - n)).toNat = 2 ^ (32 - n) := by
    rw [UInt32.toNat_shiftLeft, hk, Nat.mod_eq_of_lt (show 32 - n < 32 by omega), Nat.shiftLeft_eq,
      show (1 : UInt32).toNat = 1 from rfl, Nat.one_mul, Nat.mod_eq_of_lt hlt]
  have hle : (1 : UInt32) ≤ 1 <<< UInt32.ofNat (32 - n) := by
    rw [UInt32.le_iff_toNat_le, hshift]
    exact hone
  rw [UInt32.toNat_not, UInt32.toNat_sub_of_le _ _ hle, hshift]
  show 4294967296 - 1 - (2 ^ (32 - n) - 1) = _
  omega

/-- Two numbers agree on the bits from `k` up exactly if they agree under the mask of those bits. -/
theorem and_mask_eq_iff {x y k w : ℕ} (hx : x < 2 ^ w) (hy : y < 2 ^ w) (hk : k ≤ w) :
    x &&& (2 ^ w - 2 ^ k) = y &&& (2 ^ w - 2 ^ k) ↔ x / 2 ^ k = y / 2 ^ k := by
  have hmask : ∀ i, (2 ^ w - 2 ^ k).testBit i = (decide (i < w) && !decide (i < k)) := by
    intro i
    have hpos : 0 < 2 ^ k := Nat.two_pow_pos k
    have hle : 2 ^ k ≤ 2 ^ w := Nat.pow_le_pow_right (by decide) hk
    have h := Nat.testBit_two_pow_sub_succ (show 2 ^ k - 1 < 2 ^ w by omega) i
    rwa [Nat.sub_add_cancel hpos, Nat.testBit_two_pow_sub_one] at h
  constructor
  · intro h
    refine Nat.eq_of_testBit_eq (fun i => ?_)
    rw [Nat.testBit_div_two_pow, Nat.testBit_div_two_pow]
    by_cases hi : i + k < w
    · have hbit := congrArg (fun z => z.testBit (i + k)) h
      simpa [Nat.testBit_and, hmask, hi] using hbit
    · have hle : 2 ^ w ≤ 2 ^ (i + k) := Nat.pow_le_pow_right (by decide) (by omega)
      rw [Nat.testBit_lt_two_pow (hx.trans_le hle), Nat.testBit_lt_two_pow (hy.trans_le hle)]
  · intro h
    refine Nat.eq_of_testBit_eq (fun i => ?_)
    rw [Nat.testBit_and, Nat.testBit_and, hmask]
    by_cases hi : i < k
    · simp [hi]
    · have hbit := congrArg (fun z => z.testBit (i - k)) h
      simp only [Nat.testBit_div_two_pow, Nat.sub_add_cancel (not_lt.1 hi)] at hbit
      rw [hbit]

end RustStd

namespace Miuturn

/-! ## Ranges -/

/-- What the text of a rule means: one address, or the addresses that share their first bits with
    one. -/
inductive AclRange where
  | host (ip : Ipv4Addr)
  | subnet (ip : Ipv4Addr) (len : ℕ)

/-- A dotted quad, or a dotted quad, a slash and a prefix length in decimal. -/
def AclRange.Text (s : String) : AclRange → Prop
  | .host ip => s = ip.toString
  | .subnet ip len =>
    len ≤ 32 ∧ ∃ digits, Digits digits len ∧ s = ip.toString ++ "/" ++ String.ofList digits

def AclRange.Holds (a : Ipv4Addr) : AclRange → Prop
  | .host ip => a = ip
  | .subnet ip len => a.word / 2 ^ (32 - len) = ip.word / 2 ^ (32 - len)

/-- The range of the rule holds the address. -/
def AclRule.Matches (a : Ipv4Addr) (rule : AclRule) : Prop :=
  ∃ range : AclRange, range.Text rule.ipRange ∧ range.Holds a

namespace AuthManager

/-- The number a part between dots counts for. -/
def octetReading (part : List Char) : UInt8 := UInt8.ofNat ((parseUnsigned 255 part).getD 0)

/-- The address that the subnet test takes a text for. -/
def quadReading (s : List Char) : Option Ipv4Addr :=
  match s.splitOn '.' with
  | [a, b, c, d] => some ⟨octetReading a, octetReading b, octetReading c, octetReading d⟩
  | _ => none

theorem toNat_octetReading (part : List Char) :
    (octetReading part).toNat = (parseUnsigned 255 part).getD 0 := by
  have hle : (parseUnsigned 255 part).getD 0 ≤ 255 := by
    cases h : parseUnsigned 255 part with
    | none => exact Nat.zero_le _
    | some n => exact parseUnsigned_le h
  exact UInt8.toNat_ofNat_of_lt' (Nat.lt_succ_of_le hle)

theorem quadToWord_splitOn (s : List Char) :
    quadToWord (s.splitOn '.') = (quadReading s).map (fun a => UInt32.ofNat a.word) := by
  unfold quadToWord quadReading
  -- only four parts make an address, on either side
  rcases s.splitOn '.' with _ | ⟨a, _ | ⟨b, _ | ⟨c, _ | ⟨d, _ | ⟨e, rest⟩⟩⟩⟩⟩
  case cons.cons.cons.cons.nil =>
    simp only [List.map_cons, List.map_nil, ← toNat_octetReading, Option.map_some]
    rw [Option.some_inj, ← UInt32.toNat_inj, toNat_quad (octetReading a).toNat_lt
      (octetReading b).toNat_lt (octetReading c).toNat_lt (octetReading d).toNat_lt,
      UInt32.toNat_ofNat_of_lt' (Ipv4Addr.word_lt _)]
    rfl
  all_goals rfl

theorem octetReading_decimal (octet : UInt8) :
    octetReading (decimal octet.toNat).toList = octet := by
  have hlt := octet.toNat_lt
  rw [← UInt8.toNat_inj, toNat_octetReading,
    (digits_decimal octet.toNat).parseUnsigned (show octet.toNat ≤ 255 by omega)]
  rfl

/-- A dotted quad is taken for the address it is. -/
theorem quadReading_toString (ip : Ipv4Addr) : quadReading ip.toString.toList = some ip := by
  unfold quadReading
  rw [ip.splitOn_toString]
  simp only [Ipv4Addr.parts, List.map_cons, List.map_nil, octetReading_decimal]

theorem toString_injective : Function.Injective Ipv4Addr.toString := by
  intro a b h
  have hread := quadReading_toString a
  rw [h, quadReading_toString] at hread
  exact (Option.some.inj hread).symm

/-- The subnet test compares the first bits of the addresses that the texts are taken for; a length
    of zero holds every text. -/
theorem ipMatchesSubnet_iff_reading (ip base : List Char) (len : ℕ) :
    ipMatchesSubnet ip base len = true ↔ len = 0 ∨ ∃ a b, quadReading ip = some a ∧
      quadReading base = some b ∧ a.word / 2 ^ (32 - len) = b.word / 2 ^ (32 - len) := by
  unfold ipMatchesSubnet
  by_cases hzero : len = 0
  · simp [hzero]
  rw [if_neg hzero, quadToWord_splitOn, quadToWord_splitOn]
  cases hip : quadReading ip with
  | none => simp [hzero]
  | some a =>
      cases hbase : quadReading base with
      | none => simp [hzero]
      | some b =>
          have hmask : (if len ≥ 32 then 0xFFFFFFFF
              else ~~~(((1 : UInt32) <<< UInt32.ofNat (32 - len)) - 1)).toNat
              = 2 ^ 32 - 2 ^ (32 - len) := by
            by_cases hfull : len ≥ 32
            · rw [if_pos hfull, Nat.sub_eq_zero_of_le hfull]
              rfl
            · rw [if_neg hfull, toNat_mask (by omega) (by omega)]
          simp only [Option.map_some]
          rw [beq_iff_eq, ← UInt32.toNat_inj, UInt32.toNat_and, UInt32.toNat_and, hmask,
            UInt32.toNat_ofNat_of_lt' a.word_lt, UInt32.toNat_ofNat_of_lt' b.word_lt,
            and_mask_eq_iff a.word_lt b.word_lt (Nat.sub_le 32 len)]
          simp [hzero]

/-- The subnet test compares the first bits. -/
theorem ipMatchesSubnet_iff (a ip : Ipv4Addr) {len : ℕ} :
    ipMatchesSubnet a.toString.toList ip.toString.toList len = true ↔
      a.word / 2 ^ (32 - len) = ip.word / 2 ^ (32 - len) := by
  rw [ipMatchesSubnet_iff_reading, quadReading_toString, quadReading_toString]
  constructor
  · rintro (rfl | ⟨a', ip', ha, hip, hbits⟩)
    · rw [Nat.sub_zero, Nat.div_eq_of_lt a.word_lt, Nat.div_eq_of_lt ip.word_lt]
    · obtain rfl := Option.some.inj ha
      obtain rfl := Option.some.inj hip
      exact hbits
  · intro hbits
    exact Or.inr ⟨a, ip, rfl, rfl, hbits⟩

/-- A rule holds the addresses that its text means. -/
theorem ipInRange_iff {a : Ipv4Addr} {range : AclRange} {s : String} (h : range.Text s) :
    ipInRange a.toString s = true ↔ range.Holds a := by
  cases range with
  | host ip =>
      obtain rfl : s = ip.toString := h
      have hslash : ip.toString.toList.contains '/' = false := by
        rw [← Bool.not_eq_true, List.contains_iff_mem]
        exact ip.slash_notMem
      unfold ipInRange
      rw [hslash, if_neg (by decide), beq_iff_eq]
      exact toString_injective.eq_iff
  | subnet ip len =>
      obtain ⟨hlen, digits, hdigits, rfl⟩ := h
      have hlist : (ip.toString ++ "/" ++ String.ofList digits).toList
          = ['/'].intercalate [ip.toString.toList, digits] := by
        simp [String.toList_append, List.intercalate]
      have hsplit : (ip.toString ++ "/" ++ String.ofList digits).toList.splitOn '/'
          = [ip.toString.toList, digits] := by
        rw [hlist]
        refine List.splitOn_intercalate '/' ?_ (by simp)
        simp only [List.mem_cons, List.not_mem_nil, or_false, forall_eq_or_imp, forall_eq]
        exact ⟨ip.slash_notMem, hdigits.notMem (by decide)⟩
      have hslash : (ip.toString ++ "/" ++ String.ofList digits).toList.contains '/' = true := by
        rw [List.contains_iff_mem]
        simp [String.toList_append]
      unfold ipInRange
      rw [hslash, if_pos rfl, hsplit]
      dsimp only
      rw [hdigits.parseUnsigned (show len ≤ 4294967295 by omega), Option.getD_some]
      exact ipMatchesSubnet_iff a ip

end AuthManager

/-! ## Rules along a history -/

/-- What a change does to the rules, in the order in which they were added. -/
def AuthChange.onRules (rules : List AclRule) : AuthChange → List AclRule
  | .addUser _ => rules
  | .removeUser _ => rules
  | .addAclRule rule => rules ++ [rule]
  | .removeAclRule ipRange priority =>
    rules.filter (fun r => !(r.ipRange == ipRange && r.priority == priority))

/-- The rules that are left after the changes, in the order in which they were added. An update is a
    removal and an addition. -/
def currentRules (changes : List AuthChange) : List AclRule := changes.foldl AuthChange.onRules []

theorem AuthChange.stablySorts {am : AuthManager} {rules : List AclRule} (change : AuthChange)
    (h : StablySorts (fun rule : AclRule => rule.priority.toNat) rules am.aclRules) :
    StablySorts (fun rule : AclRule => rule.priority.toNat) (change.onRules rules)
      (change.apply am).aclRules := by
  cases change with
  | addUser user => exact h
  | removeUser username => exact h
  | addAclRule rule => exact h.push rule
  | removeAclRule ipRange priority => exact h.filter _

/-- The list that `check_acl` reads is always sorted, with ties in the order of addition. -/
theorem stablySorts_currentRules (changes : List AuthChange) :
    StablySorts (fun rule : AclRule => rule.priority.toNat) (currentRules changes)
      (changes.foldl AuthChange.apply .new).aclRules := by
  induction changes using List.reverseRecOn with
  | nil => exact .nil _
  | append_singleton changes change ih =>
      unfold currentRules
      rw [List.foldl_append, List.foldl_append]
      exact change.stablySorts ih

theorem mem_currentRules {changes : List AuthChange} {rule : AclRule}
    (h : rule ∈ currentRules changes) : .addAclRule rule ∈ changes := by
  induction changes using List.reverseRecOn with
  | nil => exact absurd h (by simp [currentRules])
  | append_singleton changes change ih =>
      unfold currentRules at h
      rw [List.foldl_append] at h
      rw [List.mem_append, List.mem_singleton]
      cases change with
      | addUser user => exact Or.inl (ih h)
      | removeUser username => exact Or.inl (ih h)
      | addAclRule rule' =>
          rcases List.mem_append.1 h with h | h
          · exact Or.inl (ih h)
          · rw [List.mem_singleton.1 h]
            exact Or.inr rfl
      | removeAclRule ipRange priority => exact Or.inl (ih (List.mem_filter.1 h).1)

/-- After any history of changes by rules whose ranges are dotted quads with or without a prefix
    length, an IPv4 address is allowed exactly if, of the rules left that hold it, the one with the
    greatest priority, and the first added among equals, allows it, or if none holds it. -/
theorem checkAcl_iff_foremost {changes : List AuthChange}
    (hranges : ∀ rule, .addAclRule rule ∈ changes →
      ∃ range : AclRange, range.Text rule.ipRange) (a : Ipv4Addr) :
    (changes.foldl AuthChange.apply .new).checkAcl a.toString = true ↔
      (∃ rule, Foremost (fun rule : AclRule => rule.priority.toNat) (AclRule.Matches a)
          (currentRules changes) rule ∧ rule.action = .allow) ∨
        ∀ rule ∈ currentRules changes, ¬ rule.Matches a := by
  have hsorts := stablySorts_currentRules changes
  have hmatches : ∀ rule ∈ currentRules changes,
      (AuthManager.ipInRange a.toString rule.ipRange = true ↔ rule.Matches a) := by
    intro rule hrule
    constructor
    · intro hin
      obtain ⟨range, htext⟩ := hranges rule (mem_currentRules hrule)
      exact ⟨range, htext, (AuthManager.ipInRange_iff htext).1 hin⟩
    · rintro ⟨range, htext, hholds⟩
      exact (AuthManager.ipInRange_iff htext).2 hholds
  unfold AuthManager.checkAcl
  cases hfind : (changes.foldl AuthChange.apply .new).aclRules.find?
      (fun rule => AuthManager.ipInRange a.toString rule.ipRange) with
  | some rule =>
      have hforemost := (hsorts.find?_eq_some_iff.1 hfind).congr hmatches
      simp only [beq_iff_eq]
      constructor
      · intro hallow
        exact Or.inl ⟨rule, hforemost, hallow⟩
      · rintro (⟨rule', hforemost', hallow⟩ | hnone)
        · rw [hforemost.unique hforemost']
          exact hallow
        · exact absurd hforemost.1 (hnone rule hforemost.mem)
  | none =>
      have hnone := hsorts.find?_eq_none_iff.1 hfind
      simp only [true_iff]
      right
      intro rule hrule
      rw [← hmatches rule hrule]
      exact hnone rule hrule

/-- Two rules with one priority that both hold `10.0.0.7`, the second of them updated. -/
def sampleChanges : List AuthChange :=
  [.addAclRule ⟨"10.0.0.7", .deny, 5⟩, .addAclRule ⟨"10.0.0.0/8", .allow, 5⟩,
   .addAclRule ⟨"0.0.0.0/0", .deny, 1⟩, .removeAclRule "10.0.0.7" 5,
   .addAclRule ⟨"10.0.0.7", .deny, 5⟩]

theorem checkAcl_iff_foremost_updated :
    ∃ rule, Foremost (fun rule : AclRule => rule.priority.toNat) (AclRule.Matches ⟨10, 0, 0, 7⟩)
      (currentRules sampleChanges) rule ∧ rule.action = .allow := by
  have hhost : AclRange.Text "10.0.0.7" (.host ⟨10, 0, 0, 7⟩) := by
    unfold AclRange.Text
    decide
  have hten : AclRange.Text "10.0.0.0/8" (.subnet ⟨10, 0, 0, 0⟩ 8) :=
    ⟨by decide, ['8'], digits_decimal 8, by decide⟩
  have hall : AclRange.Text "0.0.0.0/0" (.subnet ⟨0, 0, 0, 0⟩ 0) :=
    ⟨by decide, ['0'], digits_decimal 0, by decide⟩
  have hranges : ∀ rule, .addAclRule rule ∈ sampleChanges →
      ∃ range : AclRange, range.Text rule.ipRange := by
    intro rule hrule
    simp only [sampleChanges, List.mem_cons, AuthChange.addAclRule.injEq, reduceCtorEq,
      List.not_mem_nil, or_false, false_or] at hrule
    rcases hrule with rfl | rfl | rfl | rfl
    · exact ⟨_, hhost⟩
    · exact ⟨_, hten⟩
    · exact ⟨_, hall⟩
    · exact ⟨_, hhost⟩
  rcases (checkAcl_iff_foremost hranges ⟨10, 0, 0, 7⟩).1 (by decide +kernel) with hrule | hnone
  · exact hrule
  · have hmem : (⟨"10.0.0.7", .deny, 5⟩ : AclRule) ∈ currentRules sampleChanges := by decide +kernel
    exact absurd ⟨_, hhost, rfl⟩ (hnone _ hmem)

end Miuturn
