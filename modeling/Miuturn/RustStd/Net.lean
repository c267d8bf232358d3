import Miuturn.RustStd.Basic

set_option autoImplicit false

/-! # `std::net` addresses and their text form

Socket addresses with the fields Rust compares them by, and the text `to_string` prints for them:
dotted decimal for IPv4, and for IPv6 the `::ffff:a.b.c.d` form of a mapped IPv4 address or the
lower-case hexadecimal groups with the first longest run of two or more zero groups written `::`. -/

namespace RustStd

/-- `Ipv4Addr`, as its four octets. -/
structure Ipv4Addr where
  a : UInt8
  b : UInt8
  c : UInt8
  d : UInt8
  deriving DecidableEq, Repr

/-- `Ipv6Addr`, as its eight 16-bit segments. -/
structure Ipv6Addr where
  segments : { l : List UInt16 // l.length = 8 }
  deriving DecidableEq

inductive IpAddr where
  | v4 (ip : Ipv4Addr)
  | v6 (ip : Ipv6Addr)
  deriving DecidableEq

inductive SocketAddr where
  | v4 (ip : Ipv4Addr) (port : UInt16)
  | v6 (ip : Ipv6Addr) (port : UInt16) (flowinfo scopeId : UInt32)
  deriving DecidableEq

/-- `SocketAddr::ip`. -/
def SocketAddr.ip : SocketAddr → IpAddr
  | .v4 ip _ => .v4 ip
  | .v6 ip _ _ _ => .v6 ip

/-- `SocketAddr::port`. -/
def SocketAddr.port : SocketAddr → UInt16
  | .v4 _ port => port
  | .v6 _ port _ _ => port

/-- `SocketAddr::new`. -/
def SocketAddr.new : IpAddr → UInt16 → SocketAddr
  | .v4 ip, port => .v4 ip port
  | .v6 ip, port => .v6 ip port 0 0

/-! ## Printing -/

/-- `{}` of an unsigned integer. -/
def decimal (n : ℕ) : String := n.repr

/-- `{:x}` of an unsigned integer. -/
def lowerHex (n : ℕ) : String := String.ofList (Nat.toDigits 16 n)

def Ipv4Addr.toString (ip : Ipv4Addr) : String :=
  decimal ip.a.toNat ++ "." ++ decimal ip.b.toNat ++ "." ++ decimal ip.c.toNat ++ "."
    ++ decimal ip.d.toNat

/-- `Ipv6Addr::to_ipv4_mapped`. -/
def Ipv6Addr.toIpv4Mapped (ip : Ipv6Addr) : Option Ipv4Addr :=
  match ip.segments.val with
  | [0, 0, 0, 0, 0, 0xFFFF, ab, cd] =>
      some ⟨UInt8.ofNat (ab.toNat / 256), UInt8.ofNat ab.toNat, UInt8.ofNat (cd.toNat / 256),
        UInt8.ofNat cd.toNat⟩
  | _ => none

/-- The span `(start, len)` of the first longest run of zero segments. `current` is the run that
    ends at position `i`. -/
def longestZeroSpan : ℕ → (current longest : ℕ × ℕ) → List UInt16 → ℕ × ℕ
  | _, _, longest, [] => longest
  | i, current, longest, segment :: rest =>
    if segment == 0 then
      let current := if current.2 = 0 then (i, 1) else (current.1, current.2 + 1)
      longestZeroSpan (i + 1) current (if longest.2 < current.2 then current else longest) rest
    else longestZeroSpan (i + 1) (0, 0) longest rest

/-- Colon-separated hexadecimal groups. -/
def fmtSubslice (segments : List UInt16) : String :=
  String.intercalate ":" (segments.map (fun s => lowerHex s.toNat))

def Ipv6Addr.toString (ip : Ipv6Addr) : String :=
  match ip.toIpv4Mapped with
  | some v4 => "::ffff:" ++ v4.toString
  | none =>
    let segments := ip.segments.val
    let zeroes := longestZeroSpan 0 (0, 0) (0, 0) segments
    if 1 < zeroes.2 then
      fmtSubslice (segments.take zeroes.1) ++ "::"
        ++ fmtSubslice (segments.drop (zeroes.1 + zeroes.2))
    else fmtSubslice segments

def IpAddr.toString : IpAddr → String
  | .v4 ip => ip.toString
  | .v6 ip => ip.toString

def SocketAddr.toString : SocketAddr → String
  | .v4 ip port => ip.toString ++ ":" ++ decimal port.toNat
  | .v6 ip port _ scopeId =>
    if scopeId == 0 then "[" ++ ip.toString ++ "]:" ++ decimal port.toNat
    else "[" ++ ip.toString ++ "%" ++ decimal scopeId.toNat ++ "]:" ++ decimal port.toNat

/-! ## Reading a printed port back -/

theorem decimal_injective : Function.Injective decimal := by
  intro m n h
  have hlist : Nat.toDigits 10 m = Nat.toDigits 10 n := by
    rw [← Nat.toList_repr, ← Nat.toList_repr]
    exact congrArg String.toList h
  rw [← Nat.ofDigitChars_ten_toDigits (n := m), hlist, Nat.ofDigitChars_ten_toDigits]

/-- Two IPv4 socket addresses of one host print differently unless their ports agree. -/
theorem SocketAddr.toString_v4_inj {ip : Ipv4Addr} {p q : UInt16}
    (h : (SocketAddr.v4 ip p).toString = (SocketAddr.v4 ip q).toString) : p = q := by
  have hport : decimal p.toNat = decimal q.toNat := by
    simpa only [SocketAddr.toString, String.append_right_inj] using h
  exact UInt16.toNat_inj.1 (decimal_injective hport)

example : (Ipv6Addr.mk ⟨[0xfe80, 0, 0, 0, 1, 0, 0, 2], rfl⟩).toString = "fe80::1:0:0:2" := by decide

end RustStd
