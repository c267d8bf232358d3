import Mathlib.Data.List.DropRight
import Mathlib.Data.Nat.Log
import Mathlib.Tactic.Linarith

set_option autoImplicit false

/-! # Numbers and texts in a browser

What a script does to the natural numbers and the texts that it reads from JSON, shows in a form and
writes back to JSON. A Number is a double, so that a natural number read from JSON becomes the
nearest one with 53 significant bits; it is written with as few decimal digits as tell it from the
other doubles. Numbers are natural numbers here, those that a double can hold being the fixed points
of `toNumber`; below `10 ^ 21` a Number is written without an exponent, and nothing is said about
larger ones.

Texts are lists of characters. The characters that `trim` removes and the separators of `split` and
`join` are all single UTF-16 units, so that units and characters give the same result. -/

namespace Js

/-! ## Numbers -/

/-- The distance of two neighbouring doubles with as many bits as `n`. -/
def unit (n : ℕ) : ℕ := 2 ^ (n.log2 + 1 - 53)

/-- The Number that a text for `n` is read as: the nearest double, of two the even one. -/
def toNumber (n : ℕ) : ℕ :=
  let u := unit n
  let q := n / u
  let r := n % u
  if 2 * r < u then q * u
  else if u < 2 * r then (q + 1) * u
  else (q + q % 2) * u

/-- The multiple of `10 ^ j` closest to `x`, of two the one with the even digit, among the two
    neighbours of `x` that are read as `x`. -/
def shortestAt (x j : ℕ) : Option ℕ :=
  let s := x / 10 ^ j
  let below := s * 10 ^ j
  let above := (s + 1) * 10 ^ j
  if toNumber below = x then
    if toNumber above = x ∧
        (above - x < x - below ∨ above - x = x - below ∧ s % 2 = 1) then some above
    else some below
  else if toNumber above = x then some above
  else none

/-- `String(x)`: the number that the text stands for, with the most zeros at its end. -/
def printed (x : ℕ) : ℕ := ((List.range 21).reverse.findSome? (shortestAt x)).getD x

/-- `parseInt(x)` of a Number, which is read from its text. -/
def parseInt (x : ℕ) : ℕ := toNumber (printed x)

theorem toNumber_of_lt {n : ℕ} (h : n < 2 ^ 53) : toNumber n = n := by
  have hunit : unit n = 1 := by
    have hlog : n.log2 < 53 := by
      rcases Nat.eq_zero_or_pos n with rfl | hpos
      · decide
      · exact (Nat.log2_lt (Nat.pos_iff_ne_zero.mp hpos)).mpr h
    rw [unit, show n.log2 + 1 - 53 = 0 by omega, pow_zero]
  simp [toNumber, hunit, Nat.mod_one]

/-- Rounding does not go below the first number that has to be rounded. -/
theorem le_toNumber {n : ℕ} (h : 2 ^ 53 ≤ n) : 2 ^ 53 ≤ toNumber n := by
  have hpos : n ≠ 0 := by
    rintro rfl
    exact absurd h (by decide)
  have hlog : 53 ≤ n.log2 := (Nat.le_log2 hpos).mpr h
  have hsplit : 2 ^ n.log2 = 2 ^ 52 * unit n := by
    rw [unit, ← pow_add]
    congr 1
    omega
  have hquot : 2 ^ 52 ≤ n / unit n := by
    have hpow : 0 < unit n := Nat.two_pow_pos _
    rw [Nat.le_div_iff_mul_le hpow, ← hsplit]
    exact Nat.log2_self_le hpos
  have hunit : 2 ≤ unit n := by
    rw [unit, show n.log2 + 1 - 53 = (n.log2 - 53) + 1 by omega, pow_succ]
    have := Nat.two_pow_pos (n.log2 - 53)
    omega
  have hbase : 2 ^ 53 ≤ n / unit n * unit n := Nat.mul_le_mul hquot hunit
  unfold toNumber
  dsimp only
  split
  · exact hbase
  · split
    · exact hbase.trans (Nat.mul_le_mul_right _ (Nat.le_succ _))
    · exact hbase.trans (Nat.mul_le_mul_right _ (Nat.le_add_right _ _))

/-- Only a number below `2 ^ 53` is read as one. -/
theorem eq_of_toNumber_eq {c x : ℕ} (hx : x < 2 ^ 53) (h : toNumber c = x) : c = x := by
  rcases Nat.lt_or_ge c (2 ^ 53) with hc | hc
  · rw [← h, toNumber_of_lt hc]
  · have := le_toNumber hc
    omega

theorem toNumber_of_shortestAt {x j c : ℕ} (h : shortestAt x j = some c) : toNumber c = x := by
  unfold shortestAt at h
  dsimp only at h
  split at h
  · rename_i hbelow
    split at h
    · rename_i habove
      cases h
      exact habove.1
    · cases h
      exact hbelow
  · split at h
    · rename_i habove
      cases h
      exact habove
    · cases h

/-- A Number is read back from its text. -/
theorem toNumber_printed (x : ℕ) : printed x = x ∨ toNumber (printed x) = x := by
  unfold printed
  cases hfind : (List.range 21).reverse.findSome? (shortestAt x) with
  | none => exact .inl rfl
  | some c =>
      obtain ⟨j, -, hj⟩ := List.exists_of_findSome?_eq_some hfind
      exact .inr (toNumber_of_shortestAt hj)

theorem printed_of_lt {x : ℕ} (h : x < 2 ^ 53) : printed x = x :=
  (toNumber_printed x).elim id (eq_of_toNumber_eq h)

theorem toNumber_eq_zero {n : ℕ} : toNumber n = 0 ↔ n = 0 := by
  refine ⟨eq_of_toNumber_eq (Nat.two_pow_pos 53), ?_⟩
  rintro rfl
  exact toNumber_of_lt (Nat.two_pow_pos 53)

theorem printed_eq_zero {x : ℕ} : printed x = 0 ↔ x = 0 := by
  constructor
  · intro h
    rcases toNumber_printed x with hx | hx
    · rw [← hx, h]
    · rw [← hx, h, toNumber_eq_zero]
  · rintro rfl
    exact printed_of_lt (Nat.two_pow_pos 53)

theorem parseInt_of_lt {x : ℕ} (h : x < 2 ^ 53) : parseInt x = x := by
  rw [parseInt, printed_of_lt h, toNumber_of_lt h]

/-- A number from JSON that a script passes through `parseInt` and writes to JSON. -/
def roundTrip (n : ℕ) : ℕ := printed (parseInt (toNumber n))

/-- The round trip changes no number that is a safe integer. -/
theorem roundTrip_of_lt {n : ℕ} (h : n < 2 ^ 53) : roundTrip n = n := by
  rw [roundTrip, toNumber_of_lt h, parseInt_of_lt h, printed_of_lt h]

/-- Above, numbers are lost: `2 ^ 53 + 1` is no double, and the largest `u64` comes back as a number
    that is no `u64`. -/
example : roundTrip (2 ^ 53 + 1) = 2 ^ 53 ∧ roundTrip (2 ^ 64 - 1) = 18446744073709552000 := by
  decide +kernel

/-! ## Texts -/

/-- The characters that `trim` removes: white space and line ends. -/
def isSpace (c : Char) : Bool :=
  (9 ≤ c.toNat && c.toNat ≤ 13) || c.toNat == 32 || c.toNat == 0xA0 || c.toNat == 0x1680 ||
    (0x2000 ≤ c.toNat && c.toNat ≤ 0x200A) || c.toNat == 0x2028 || c.toNat == 0x2029 ||
    c.toNat == 0x202F || c.toNat == 0x205F || c.toNat == 0x3000 || c.toNat == 0xFEFF

def trim (text : List Char) : List Char := (text.dropWhile isSpace).rdropWhile isSpace

/-- `texts.join(', ')`. -/
def joinComma (texts : List (List Char)) : List Char := [',', ' '].intercalate texts

/-- `text.split(',').map(part => part.trim()).filter(part => part)`. -/
def splitComma (text : List Char) : List (List Char) :=
  ((text.splitOn ',').map trim).filter (fun part => !part.isEmpty)

theorem trim_trim (text : List Char) : trim (trim text) = trim text := by
  -- The text without blanks in front still has none in front when those at its end are gone.
  have hfront : (trim text).dropWhile isSpace = trim text := by
    cases hr : trim text with
    | nil => rfl
    | cons c rest =>
        obtain ⟨tail, htail⟩ : c :: rest <+: text.dropWhile isSpace := by
          rw [← hr]
          exact List.rdropWhile_prefix _ _
        have hne : text.dropWhile isSpace ≠ [] := by simp [← htail]
        have hhead := List.head_dropWhile_not isSpace hne
        have hc : isSpace c = false := by simpa [← htail] using hhead
        simp [hc]
  rw [trim, hfront, trim, List.rdropWhile_idempotent]

theorem trim_space_cons (text : List Char) : trim (' ' :: text) = trim text := by
  simp [trim, show isSpace ' ' = true by decide]

/-- A text joined with commas and blanks, as one joined with commas alone. -/
theorem joinComma_cons (text : List Char) (texts : List (List Char)) :
    joinComma (text :: texts) = [','].intercalate (text :: texts.map (' ' :: ·)) := by
  induction texts generalizing text with
  | nil => rfl
  | cons next rest ih =>
      have hnext := ih next
      simp only [joinComma, List.intercalate_cons_cons, List.map_cons] at hnext ⊢
      rw [hnext]
      cases rest with
      | nil => simp
      | cons a l => simp [List.intercalate_cons_cons]

/-- What can be got back from a list of texts by joining and splitting it. -/
def Separable (text : List Char) : Prop := text ≠ [] ∧ ',' ∉ text ∧ trim text = text

theorem notMem_of_mem_splitOn {α : Type} [BEq α] [LawfulBEq α] {a : α} (l : List α) :
    ∀ part ∈ l.splitOn a, a ∉ part := by
  by_cases ha : a ∈ l
  · obtain ⟨before, after, hl, hbefore⟩ := List.eq_append_cons_of_mem ha
    have hshorter : after.length < l.length := by
      rw [hl, List.length_append, List.length_cons]
      omega
    rw [hl, List.splitOn_append_cons_self_of_not_mem hbefore]
    intro part hpart
    rcases List.mem_cons.mp hpart with rfl | hrest
    · exact hbefore
    · exact notMem_of_mem_splitOn after part hrest
  · rw [List.splitOn_eq_singleton ha]
    intro part hpart
    rw [List.mem_singleton.mp hpart]
    exact ha
termination_by l.length

/-- Whatever is split off a text is separable. -/
theorem separable_of_mem_splitComma {text part : List Char} (h : part ∈ splitComma text) :
    Separable part := by
  obtain ⟨hmem, hne⟩ := List.mem_filter.mp h
  obtain ⟨piece, hpiece, rfl⟩ := List.mem_map.mp hmem
  refine ⟨by simpa using hne, fun hcomma => ?_, trim_trim piece⟩
  have hin : ',' ∈ piece :=
    (List.dropWhile_sublist _).mem (( List.rdropWhile_prefix _ _).sublist.mem hcomma)
  exact notMem_of_mem_splitOn text piece hpiece hin

theorem splitComma_joinComma {texts : List (List Char)} (hne : texts ≠ [])
    (h : ∀ text ∈ texts, Separable text) : splitComma (joinComma texts) = texts := by
  obtain ⟨text, rest, rfl⟩ := List.exists_cons_of_ne_nil hne
  have hsplit : (joinComma (text :: rest)).splitOn ',' = text :: rest.map (' ' :: ·) := by
    rw [joinComma_cons]
    refine List.splitOn_intercalate ',' (fun part hpart => ?_) (List.cons_ne_nil _ _)
    rcases List.mem_cons.mp hpart with rfl | hrest
    · exact (h _ List.mem_cons_self).2.1
    · obtain ⟨next, hnext, rfl⟩ := List.mem_map.mp hrest
      have hcomma := (h next (List.mem_cons_of_mem _ hnext)).2.1
      simpa using hcomma
  have htrim : ((joinComma (text :: rest)).splitOn ',').map trim = text :: rest := by
    have hrest : rest.map (trim ∘ (' ' :: ·)) = rest.map id := by
      refine List.map_congr_left (fun next hnext => ?_)
      exact (trim_space_cons next).trans (h next (List.mem_cons_of_mem _ hnext)).2.2
    rw [hsplit, List.map_cons, List.map_map, (h text List.mem_cons_self).2.2, hrest, List.map_id]
  rw [splitComma, htrim, List.filter_eq_self]
  intro part hpart
  simpa using (h part hpart).1

/-- A list of texts comes back from its joined text exactly when each of them is separable. -/
theorem splitComma_joinComma_iff {texts : List (List Char)} (hne : texts ≠ []) :
    splitComma (joinComma texts) = texts ↔ ∀ text ∈ texts, Separable text := by
  refine ⟨fun h text htext => ?_, splitComma_joinComma hne⟩
  rw [← h] at htext
  exact separable_of_mem_splitComma htext

end Js
