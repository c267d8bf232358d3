import Mathlib.Data.Finset.Card
import Mathlib.Data.Finset.Range
import Mathlib.Tactic.SplitIfs

set_option autoImplicit false

/-! # Bitmaps of 64-bit words

A set of natural numbers kept as a list of 64-bit words: bit `k` is bit `k % 64` of word `k / 64`.
The mask of one bit is `BitVec.twoPow 64 i` (`1u64 << i`). Setting and clearing one bit of one word
are insertion into and removal from the set of marked positions, `setBits`. -/

namespace RustStd

/-- A 64-bit word (`u64`). -/
abbrev Word := BitVec 64

namespace Word

/-- `w & (1u64 << i) == 0`. -/
theorem and_twoPow_eq_zero {w : Word} {i : ℕ} (hi : i < 64) :
    w &&& BitVec.twoPow 64 i = 0#64 ↔ w.getLsbD i = false := by
  rw [BitVec.and_twoPow]
  cases h : w.getLsbD i with
  | false => simp
  | true =>
      simp only [if_true, Bool.true_eq_false, iff_false]
      intro hzero
      have hbit := congrArg (fun v => BitVec.getLsbD v i) hzero
      simp [hi] at hbit

theorem getLsbD_or_twoPow {i : ℕ} (hi : i < 64) (w : Word) (j : ℕ) :
    (w ||| BitVec.twoPow 64 i).getLsbD j = (w.getLsbD j || decide (j = i)) := by
  rw [BitVec.getLsbD_or, BitVec.getLsbD_twoPow]
  simp [hi, eq_comm]

theorem getLsbD_and_not_twoPow (i : ℕ) (w : Word) (j : ℕ) :
    (w &&& ~~~BitVec.twoPow 64 i).getLsbD j = (w.getLsbD j && decide (j ≠ i)) := by
  rw [BitVec.getLsbD_and, BitVec.getLsbD_not, BitVec.getLsbD_twoPow]
  by_cases hj : j < 64
  · by_cases hij : j = i
    · subst hij
      simp [hj]
    · simp [hj, hij, Ne.symm hij]
  · simp [BitVec.getLsbD_of_ge w j (by omega)]

/-- `u64::trailing_zeros`. -/
def trailingZeros (w : Word) : ℕ := w.ctz.toNat

theorem trailingZeros_lt {w : Word} (hw : w ≠ 0#64) : trailingZeros w < 64 := by
  have h := BitVec.ctz_lt_iff_ne_zero.2 hw
  simpa [BitVec.lt_def, trailingZeros] using h

theorem getLsbD_trailingZeros {w : Word} (hw : w ≠ 0#64) : w.getLsbD (trailingZeros w) = true :=
  BitVec.getLsbD_true_ctz_of_ne_zero hw

/-- Below the position found in the complement of a word, every position is set in the word. -/
theorem getLsbD_of_lt_trailingZeros_not {w : Word} {i : ℕ} (hi : i < 64)
    (h : i < trailingZeros (~~~w)) : w.getLsbD i = true := by
  have hclear := BitVec.getLsbD_false_of_lt_ctz h
  rw [BitVec.getLsbD_not, Bool.and_eq_false_iff] at hclear
  simpa [hi] using hclear

/-- The position found in the complement of a word is clear in the word. -/
theorem getLsbD_trailingZeros_not {w : Word} (hw : ~~~w ≠ 0#64) :
    w.getLsbD (trailingZeros (~~~w)) = false := by
  have h := getLsbD_trailingZeros hw
  rw [BitVec.getLsbD_not, Bool.and_eq_true] at h
  simpa using h.2

end Word

/-- A set of positions, 64 to a word. -/
abbrev Bitmap := List Word

namespace Bitmap

/-- The word `i`, zero past the end. -/
def word (m : Bitmap) (i : ℕ) : Word := m.getD i 0#64

/-- Whether position `k` is marked. -/
def bit (m : Bitmap) (k : ℕ) : Bool := (word m (k / 64)).getLsbD (k % 64)

/-- The marked positions. -/
def setBits (m : Bitmap) : Finset ℕ := (Finset.range (64 * m.length)).filter (fun k => bit m k)

theorem lt_of_bit {m : Bitmap} {k : ℕ} (h : bit m k = true) : k < 64 * m.length := by
  by_contra hk
  have hge : m.length ≤ k / 64 := by omega
  rw [bit, word, List.getD_eq_getElem?_getD, List.getElem?_eq_none hge] at h
  simp at h

@[simp] theorem mem_setBits {m : Bitmap} {k : ℕ} : k ∈ setBits m ↔ bit m k = true := by
  rw [setBits, Finset.mem_filter, Finset.mem_range]
  exact ⟨fun h => h.2, fun h => ⟨lt_of_bit h, h⟩⟩

/-- A bitmap is determined by its length and the marked positions. -/
theorem eq_of_setBits {m m' : Bitmap} (hlen : m.length = m'.length)
    (h : setBits m = setBits m') : m = m' := by
  refine List.ext_getElem hlen (fun i hi hi' => BitVec.eq_of_getLsbD_eq (fun b hb => ?_))
  have hbit : bit m (64 * i + b) = bit m' (64 * i + b) := by
    rw [Bool.eq_iff_iff, ← mem_setBits, ← mem_setBits, h]
  have hdiv : (64 * i + b) / 64 = i := by omega
  have hmod : (64 * i + b) % 64 = b := by omega
  simpa only [bit, word, hdiv, hmod, List.getD_eq_getElem?_getD, List.getElem?_eq_getElem hi,
    List.getElem?_eq_getElem hi', Option.getD_some] using hbit

theorem word_set {m : Bitmap} {i : ℕ} (hi : i < m.length) (w : Word) (j : ℕ) :
    word (m.set i w) j = if j = i then w else word m j := by
  by_cases hj : j = i
  · subst hj
    rw [if_pos rfl, word, List.getD_eq_getElem?_getD, List.getElem?_set_self hi, Option.getD_some]
  · rw [if_neg hj, word, word, List.getD_eq_getElem?_getD, List.getElem?_set_ne (Ne.symm hj),
      ← List.getD_eq_getElem?_getD]

theorem bit_set {m : Bitmap} {i : ℕ} (hi : i < m.length) (w : Word) (k : ℕ) :
    bit (m.set i w) k = if k / 64 = i then w.getLsbD (k % 64) else bit m k := by
  rw [bit, word_set hi]
  split_ifs <;> rfl

@[simp] theorem setBits_replicate_zero (n : ℕ) : setBits (List.replicate n 0#64) = ∅ := by
  ext k
  rw [mem_setBits, bit, word, List.getD_eq_getElem?_getD, List.getElem?_replicate]
  split_ifs <;> simp

/-- Setting bit `b` of word `i` inserts the position `i * 64 + b`. -/
theorem setBits_set_or {m : Bitmap} {i b : ℕ} (hi : i < m.length) (hb : b < 64) :
    setBits (m.set i (word m i ||| BitVec.twoPow 64 b)) = insert (i * 64 + b) (setBits m) := by
  ext k
  rw [mem_setBits, Finset.mem_insert, mem_setBits, bit_set hi]
  by_cases hk : k / 64 = i
  · have hpos : k % 64 = b ↔ k = i * 64 + b := by omega
    rw [if_pos hk, Word.getLsbD_or_twoPow hb, Bool.or_eq_true, decide_eq_true_iff, hpos, bit, hk,
      or_comm]
  · have hne : k ≠ i * 64 + b := by omega
    rw [if_neg hk]
    simp [hne]

/-- Clearing bit `b` of word `i` removes the position `i * 64 + b`. -/
theorem setBits_set_and_not {m : Bitmap} {i b : ℕ} (hi : i < m.length) (hb : b < 64) :
    setBits (m.set i (word m i &&& ~~~BitVec.twoPow 64 b)) = (setBits m).erase (i * 64 + b) := by
  ext k
  rw [mem_setBits, Finset.mem_erase, mem_setBits, bit_set hi]
  by_cases hk : k / 64 = i
  · have hpos : k % 64 ≠ b ↔ k ≠ i * 64 + b := by omega
    rw [if_pos hk, Word.getLsbD_and_not_twoPow, Bool.and_eq_true, decide_eq_true_iff, hpos, bit, hk,
      and_comm]
  · have hne : k ≠ i * 64 + b := by omega
    rw [if_neg hk]
    simp [hne]

/-- A clear bit of a word of the map is an unmarked position. -/
theorem notMem_setBits {m : Bitmap} {i b : ℕ} (hb : b < 64) (h : (word m i).getLsbD b = false) :
    i * 64 + b ∉ setBits m := by
  have hdiv : (i * 64 + b) / 64 = i := by omega
  have hmod : (i * 64 + b) % 64 = b := by omega
  rw [mem_setBits, bit, hdiv, hmod, h]
  simp

theorem mem_setBits_pos {m : Bitmap} {i b : ℕ} (hb : b < 64) (h : (word m i).getLsbD b = true) :
    i * 64 + b ∈ setBits m := by
  have hdiv : (i * 64 + b) / 64 = i := by omega
  have hmod : (i * 64 + b) % 64 = b := by omega
  rw [mem_setBits, bit, hdiv, hmod, h]

end Bitmap

end RustStd
