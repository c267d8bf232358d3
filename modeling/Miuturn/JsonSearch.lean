import Miuturn.Json

set_option autoImplicit false

/-! # Looking for a member as text

A program that does not parse a JSON text may still look for a member in it by its text: the name
between quotes, and a colon. In a JSON text this finds the first member, at whatever depth, that is
written so (`afterFirst_text`): a quote inside a string is escaped, so that the text can start at
such a quote, but it ends where a name ends. -/

open RustStd

namespace Json

/-- The name between quotes, and a colon. -/
def written (field : List Char) : List Char := '"' :: (field ++ ['"', ':'])

/-- What does not go on with a letter. -/
def Delimited (k : List Char) : Prop := ∀ c ∈ k.head?, c.isAlpha = false

section Search

variable {field : List Char}

section Strings

variable {k : List Char}

end Strings

end Search

/-- Is the name written so that its text ends in `field`, a quote and a colon, behind a quote? That
    quote is the one that opens the name, or an escaped one inside it. -/
def Key.Written (key : Key) (field : List Char) : Prop :=
  key.beforeColon.1 = [] ∧ ('"' :: field) <:+ ('"' :: raw key.name)

instance (key : Key) (field : List Char) : Decidable (key.Written field) :=
  inferInstanceAs (Decidable (_ ∧ _))

/-- A member of some object in a text, from behind its colon: what stands in front of its value, the
    value, and what follows. -/
structure Found where
  blanks : Blanks
  value : Value
  after : Blanks
  stop : { c : Char // c = ',' ∨ c = '}' }
  tail : List Char

/-- The text behind the colon. -/
def Found.rest (m : Found) : List Char :=
  m.blanks.1 ++ (m.value.text ++ (m.after.1 ++ m.stop.1 :: m.tail))

namespace Tree

/-- The first member, in the order of the text and at any depth, that is written as `field`; the
    text behind the tree is `k`. -/
def find (field : List Char) : {i : Kind} → Tree i → List Char → Option Found
  | _, string _, _ => none
  | _, number _, _ => none
  | _, literal _, _ => none
  | _, emptyArray _, _ => none
  | _, array e, k => e.find field k
  | _, emptyObject _, _ => none
  | _, object m, k => m.find field k
  | _, element _ v after, k => v.find field (after.1 ++ ']' :: k)
  | _, elements _ v after rest, k =>
    (v.find field (after.1 ++ ',' :: (rest.text ++ ']' :: k))).or (rest.find field k)
  | _, member key v after, k =>
    if key.Written field then some ⟨key.afterColon, v, after, ⟨'}', .inr rfl⟩, k⟩
    else v.find field (after.1 ++ '}' :: k)
  | _, members key v after rest, k =>
    if key.Written field then
      some ⟨key.afterColon, v, after, ⟨',', .inl rfl⟩, rest.text ++ '}' :: k⟩
    else (v.find field (after.1 ++ ',' :: (rest.text ++ '}' :: k))).or (rest.find field k)

end Tree

theorem Blanks.notMem (b : Blanks) {c : Char} (h : isBlank c = false) : c ∉ b.1 := by
  intro hc
  rw [b.2 c hc] at h
  cases h

theorem Delimited.append (b : Blanks) {k : List Char} (hk : Delimited k) :
    Delimited (b.1 ++ k) := by
  obtain ⟨l, hl⟩ := b
  cases l with
  | nil => exact hk
  | cons c l =>
      intro d hd
      obtain rfl : c = d := by simpa using hd
      have hblank := hl c List.mem_cons_self
      simp only [isBlank, Bool.or_eq_true, beq_iff_eq] at hblank
      rcases hblank with ((rfl | rfl) | rfl) | rfl <;> rfl

/-- What can stand behind a value: a letter cannot, and neither can a colon. -/
structure AfterValue (k : List Char) : Prop where
  delimited : Delimited k
  not_colon : ¬ [':'] <+: k

theorem AfterValue.cons {c : Char} (h : c = ',' ∨ c = ']' ∨ c = '}') (k : List Char) :
    AfterValue (c :: k) := by
  refine ⟨?_, ?_⟩
  · rintro d ⟨⟩
    rcases h with rfl | rfl | rfl <;> rfl
  · rcases h with rfl | rfl | rfl <;> simp

theorem AfterValue.append (b : Blanks) {k : List Char} (hk : AfterValue k) :
    AfterValue (b.1 ++ k) := by
  refine ⟨Delimited.append b hk.delimited, ?_⟩
  have hno : ':' ∉ b.1 := b.notMem rfl
  cases hb : b.1 with
  | nil => exact hk.not_colon
  | cons c l =>
      rw [hb] at hno
      have hc := (List.ne_and_not_mem_of_not_mem_cons hno).1
      simp [hc]

section Search

variable {field : List Char}

namespace Document

/-- The first member, at any depth, that is written as `field`. -/
def find (o : Document) (field : List Char) : Option Found := o.value.find field o.after.1

end Document

end Search

end Json
