import Mathlib.Data.List.Basic
import Mathlib.Data.UInt

/-!
# `IpAddr::from_str` and `SocketAddr::from_str`

The standard library's reader of IP addresses: four decimal bytes, or eight groups of four hexadecimal digits of which
one `::` may stand for the missing zeros and an IPv4 address for the last two. A socket address has a port after that.
A reader takes its part off the front of the text; what fails has read nothing.
-/

namespace ServiceMesh

structure Ipv4Addr where
  a : UInt8
  b : UInt8
  c : UInt8
  d : UInt8
deriving Repr, DecidableEq

structure Ipv6Addr where
  segments : List UInt16
  eight : segments.length = 8
deriving Repr, DecidableEq

inductive IpAddr where
  | V4 (addr : Ipv4Addr)
  | V6 (addr : Ipv6Addr)
deriving Repr, DecidableEq

/-- `char::to_digit` for a radix up to 16. -/
def toDigit (radix : Nat) (c : Char) : Option Nat :=
  let digit :=
    if '0' ≤ c ∧ c ≤ '9' then some (c.toNat - 48)
    else if 'a' ≤ c ∧ c ≤ 'f' then some (c.toNat - 87)
    else if 'A' ≤ c ∧ c ≤ 'F' then some (c.toNat - 55)
    else none
  digit.filter fun d => decide (d < radix)

/-- The digits at the front of a text, and what follows them. -/
def spanDigits (radix : Nat) : List Char → List Nat × List Char
  | [] => ([], [])
  | c :: rest =>
    match toDigit radix c with
    | some digit => (digit :: (spanDigits radix rest).1, (spanDigits radix rest).2)
    | none => ([], c :: rest)

/-- `read_number` of a type with the values below `size`. -/
def readNumber (radix maxDigits : Nat) (allowZeroPrefix : Bool) (size : Nat) (text : List Char) : Option (Nat × List Char) :=
  let (digits, rest) := spanDigits radix text
  let value := digits.foldl (fun n digit => n * radix + digit) 0
  if digits.length > maxDigits ∨ digits = [] then none
  else if !allowZeroPrefix && digits.head? == some 0 && digits.length > 1 then none
  else if value < size then some (value, rest)
  else none

/-- `read_separator`: what stands at an index after the first has the separator before it. -/
def readSeparator {α : Type} (sep : Char) (index : Nat) (inner : List Char → Option (α × List Char)) (text : List Char) :
    Option (α × List Char) :=
  if 0 < index then
    match text with
    | c :: rest => if c = sep then inner rest else none
    | [] => none
  else inner text

def readOctet (index : Nat) (text : List Char) : Option (UInt8 × List Char) :=
  (readSeparator '.' index (readNumber 10 3 false 256) text).map fun (value, rest) => (UInt8.ofNat value, rest)

def readIpv4Addr (text : List Char) : Option (Ipv4Addr × List Char) := do
  let (a, rest) ← readOctet 0 text
  let (b, rest) ← readOctet 1 rest
  let (c, rest) ← readOctet 2 rest
  let (d, rest) ← readOctet 3 rest
  return (⟨a, b, c, d⟩, rest)

/-- `u16::from_be_bytes`. -/
def fromBeBytes (high low : UInt8) : UInt16 := UInt16.ofNat (high.toNat * 256 + low.toNat)

/-- `read_groups` with room for so many groups, from an index on: the groups, whether an IPv4 address ended them, and the
rest. -/
def readGroups : Nat → Nat → List Char → List UInt16 × Bool × List Char
  | 0, _, text => ([], false, text)
  | room + 1, index, text =>
    -- an IPv4 address needs the room of two groups
    match if 0 < room then readSeparator ':' index readIpv4Addr text else none with
    | some (v4, rest) => ([fromBeBytes v4.a v4.b, fromBeBytes v4.c v4.d], true, rest)
    | none =>
      match readSeparator ':' index (readNumber 16 4 true 65536) text with
      | some (group, rest) =>
        let (groups, ipv4, rest) := readGroups room (index + 1) rest
        (UInt16.ofNat group :: groups, ipv4, rest)
      | none => ([], false, text)

theorem readGroups_length (room index : Nat) (text : List Char) : (readGroups room index text).1.length ≤ room := by
  induction room generalizing index text with
  | zero => exact Nat.le_refl 0
  | succ room ih =>
    unfold readGroups
    split
    · next v4 rest ipv4 =>
      split at ipv4
      · next some => exact Nat.succ_le_succ some
      · cases ipv4
    · split
      · exact Nat.succ_le_succ (ih _ _)
      · exact Nat.zero_le _

/-- The groups before and after a `::`, which stands for one zero group at least. -/
def Ipv6Addr.concat (head tail : List UInt16) (room : head.length + 1 + tail.length ≤ 8) : Ipv6Addr where
  segments := head ++ List.replicate (8 - tail.length - head.length) 0 ++ tail
  eight := by
    simp only [List.length_append, List.length_replicate]
    omega

def readIpv6Addr (text : List Char) : Option (Ipv6Addr × List Char) :=
  let head := readGroups 8 0 text
  if whole : head.1.length = 8 then some (⟨head.1, whole⟩, head.2.2)
  else if head.2.1 then none
  else
    match head.2.2 with
    | ':' :: ':' :: rest =>
      let tail := readGroups (8 - (head.1.length + 1)) 0 rest
      have room : head.1.length + 1 + tail.1.length ≤ 8 := by
        have front : head.1.length ≤ 8 := readGroups_length 8 0 text
        have back : tail.1.length ≤ 8 - (head.1.length + 1) := readGroups_length _ 0 rest
        omega
      some (.concat head.1 tail.1 room, tail.2.2)
    | _ => none

def readIpAddr (text : List Char) : Option (IpAddr × List Char) :=
  match readIpv4Addr text with
  | some (addr, rest) => some (.V4 addr, rest)
  | none => (readIpv6Addr text).map fun (addr, rest) => (.V6 addr, rest)

/-- `IpAddr::from_str`; the error is for the log only. -/
def IpAddr.fromStr (text : List Char) : Option IpAddr :=
  match readIpAddr text with
  | some (addr, []) => some addr
  | _ => none

/-! ## Socket addresses -/

inductive SocketAddr where
  | V4 (ip : Ipv4Addr) (port : UInt16)
  | V6 (ip : Ipv6Addr) (port : UInt16) (flowinfo scopeId : UInt32)
deriving Repr, DecidableEq

def readGivenChar (c : Char) : List Char → Option (List Char)
  | [] => none
  | first :: rest => if first = c then some rest else none

/-- A number after a mark: any number of digits, and zeros may lead. -/
def readMarked (mark : Char) (size : Nat) (text : List Char) : Option (Nat × List Char) := do
  let rest ← readGivenChar mark text
  readNumber 10 rest.length true size rest

def readPort (text : List Char) : Option (UInt16 × List Char) :=
  (readMarked ':' (2 ^ 16) text).map fun (port, rest) => (UInt16.ofNat port, rest)

def readScopeId (text : List Char) : Option (UInt32 × List Char) :=
  (readMarked '%' (2 ^ 32) text).map fun (scopeId, rest) => (UInt32.ofNat scopeId, rest)

def readSocketAddrV4 (text : List Char) : Option (SocketAddr × List Char) := do
  let (ip, rest) ← readIpv4Addr text
  let (port, rest) ← readPort rest
  return (.V4 ip port, rest)

def readSocketAddrV6 (text : List Char) : Option (SocketAddr × List Char) := do
  let rest ← readGivenChar '[' text
  let (ip, rest) ← readIpv6Addr rest
  let (scopeId, rest) := (readScopeId rest).getD (0, rest)
  let rest ← readGivenChar ']' rest
  let (port, rest) ← readPort rest
  return (.V6 ip port 0 scopeId, rest)

def readSocketAddr (text : List Char) : Option (SocketAddr × List Char) :=
  (readSocketAddrV4 text).or (readSocketAddrV6 text)

/-- `SocketAddr::from_str`, with the text of its error. -/
def SocketAddr.fromStr (text : List Char) : Except String SocketAddr :=
  match readSocketAddr text with
  | some (addr, []) => .ok addr
  | _ => .error "invalid socket address syntax"

end ServiceMesh
