import Miuturn.RustStd.Str

set_option autoImplicit false

/-! # JSON texts

The grammar of JSON as trees that keep every character: a text is JSON when it is the text of a
tree. The parts of a tree carry what the grammar asks of them (a blank is one of four characters, a
number does not start with a superfluous zero), so that every tree is well formed.

A string stands for a list of UTF-16 code units, since an escape may name half of a surrogate
pair. -/

open RustStd

namespace Json

/-! ## Characters and strings -/

def isBlank (c : Char) : Bool := c == ' ' || c == '\t' || c == '\n' || c == '\r'

/-- What may stand between two tokens. -/
abbrev Blanks := { l : List Char // ∀ c ∈ l, isBlank c = true }

def isHex (c : Char) : Bool := c.isDigit || ('a' ≤ c && c ≤ 'f') || ('A' ≤ c && c ≤ 'F')

abbrev HexDigit := { c : Char // isHex c = true }

def HexDigit.value (d : HexDigit) : ℕ :=
  if d.1.isDigit then d.1.toNat - '0'.toNat
  else if 'a' ≤ d.1 then d.1.toNat - 'a'.toNat + 10
  else d.1.toNat - 'A'.toNat + 10

inductive Escape where
  | quote
  | backslash
  | slash
  | backspace
  | formFeed
  | newline
  | carriageReturn
  | tab
  deriving DecidableEq

/-- The character behind the backslash. -/
def Escape.char : Escape → Char
  | .quote => '"'
  | .backslash => '\\'
  | .slash => '/'
  | .backspace => 'b'
  | .formFeed => 'f'
  | .newline => 'n'
  | .carriageReturn => 'r'
  | .tab => 't'

/-- The code unit that an escape stands for. -/
def Escape.unit : Escape → ℕ
  | .quote => 0x22
  | .backslash => 0x5C
  | .slash => 0x2F
  | .backspace => 0x08
  | .formFeed => 0x0C
  | .newline => 0x0A
  | .carriageReturn => 0x0D
  | .tab => 0x09

/-- A character of a string that stands for itself. -/
abbrev PlainChar := { c : Char // c ≠ '"' ∧ c ≠ '\\' ∧ 0x20 ≤ c.toNat }

inductive Item where
  | plain (c : PlainChar)
  | escape (e : Escape)
  | unicode (a b c d : HexDigit)
  deriving DecidableEq

namespace Item

def text : Item → List Char
  | plain c => [c.1]
  | escape e => ['\\', e.char]
  | unicode a b c d => ['\\', 'u', a.1, b.1, c.1, d.1]

end Item

/-- What stands between the quotes of a string. -/
def raw (s : List Item) : List Char := s.flatMap Item.text

abbrev Digits := { l : List Char // l ≠ [] ∧ ∀ c ∈ l, c.isDigit = true }

structure Exponent where
  mark : { c : Char // c = 'e' ∨ c = 'E' }
  sign : { l : List Char // l = [] ∨ l = ['+'] ∨ l = ['-'] }
  digits : Digits
  deriving DecidableEq

def Exponent.text (e : Exponent) : List Char := e.mark.1 :: (e.sign.1 ++ e.digits.1)

structure Number where
  minus : Bool
  whole : Digits
  fraction : Option Digits
  exponent : Option Exponent
  /-- No zero in front of another digit. -/
  leading : whole.1 = ['0'] ∨ whole.1.head? ≠ some '0'
  deriving DecidableEq

def Number.text (n : Number) : List Char :=
  (if n.minus then ['-'] else []) ++ n.whole.1 ++
    (match n.fraction with
      | some digits => '.' :: digits.1
      | none => []) ++
    (match n.exponent with
      | some e => e.text
      | none => [])

inductive Literal where
  | true
  | false
  | null
  deriving DecidableEq

def Literal.text : Literal → List Char
  | .true => ['t', 'r', 'u', 'e']
  | .false => ['f', 'a', 'l', 's', 'e']
  | .null => ['n', 'u', 'l', 'l']

/-! ## Trees -/

/-- A name and what stands around it, up to the value. -/
structure Key where
  before : Blanks
  name : List Item
  beforeColon : Blanks
  afterColon : Blanks
  deriving DecidableEq

def Key.text (key : Key) : List Char :=
  key.before.1 ++ '"' :: (raw key.name ++ '"' :: (key.beforeColon.1 ++ ':' :: key.afterColon.1))

/-- The three kinds of trees: values, and what stands between brackets or braces. -/
inductive Kind where
  | value
  | elements
  | members
  deriving DecidableEq

inductive Tree : Kind → Type where
  | string (s : List Item) : Tree .value
  | number (n : Number) : Tree .value
  | literal (l : Literal) : Tree .value
  | emptyArray (b : Blanks) : Tree .value
  | array (e : Tree .elements) : Tree .value
  | emptyObject (b : Blanks) : Tree .value
  | object (m : Tree .members) : Tree .value
  | element (before : Blanks) (v : Tree .value) (after : Blanks) : Tree .elements
  | elements (before : Blanks) (v : Tree .value) (after : Blanks) (rest : Tree .elements) :
    Tree .elements
  | member (key : Key) (v : Tree .value) (after : Blanks) : Tree .members
  | members (key : Key) (v : Tree .value) (after : Blanks) (rest : Tree .members) : Tree .members

abbrev Value := Tree .value

namespace Tree

def text : {i : Kind} → Tree i → List Char
  | _, string s => '"' :: (raw s ++ ['"'])
  | _, number n => n.text
  | _, literal l => l.text
  | _, emptyArray b => '[' :: (b.1 ++ [']'])
  | _, array e => '[' :: (e.text ++ [']'])
  | _, emptyObject b => '{' :: (b.1 ++ ['}'])
  | _, object m => '{' :: (m.text ++ ['}'])
  | _, element before v after => before.1 ++ (v.text ++ after.1)
  | _, elements before v after rest => before.1 ++ (v.text ++ (after.1 ++ ',' :: rest.text))
  | _, member key v after => key.text ++ (v.text ++ after.1)
  | _, members key v after rest => key.text ++ (v.text ++ (after.1 ++ ',' :: rest.text))

/-- The members between two braces. -/
def toList : Tree .members → List (Key × Value)
  | member key v _ => [(key, v)]
  | members key v _ rest => (key, v) :: rest.toList

end Tree

/-- A text that is an object. -/
structure Document where
  before : Blanks
  members : Blanks ⊕ Tree .members
  after : Blanks

namespace Document

def value (o : Document) : Value :=
  match o.members with
  | .inl b => .emptyObject b
  | .inr m => .object m

def text (o : Document) : List Char := o.before.1 ++ (o.value.text ++ o.after.1)

/-- The members of the object itself, not those of objects inside it. -/
def toList (o : Document) : List (Key × Value) :=
  match o.members with
  | .inl _ => []
  | .inr m => m.toList

end Document

end Json
