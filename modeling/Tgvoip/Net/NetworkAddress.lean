import Tgvoip.Net.Endpoint

/-!
# NetworkAddress — addresses from text, and their octets

`NetworkSocket.cpp` and the constructors of `Endpoint.cpp`. The octets of an
address lie in memory in network order. The host reads the four of an IPv4
address as a number, in its own byte order, and `PrefixMatches` masks that
number. `IPv6(std::string)` writes sixteen octets into the union but leaves
`isIPv6` false, so that all else reads the first four as an IPv4 address.
-/

namespace Tgvoip

open ByteReader

structure Octets where
  a : UInt8
  b : UInt8
  c : UInt8
  d : UInt8
  deriving DecidableEq

/-- How the host reads a number from memory. -/
inductive ByteOrder where
  | little
  | big
  deriving DecidableEq

namespace ByteOrder

/-- Four octets of memory as a `uint32_t`. -/
def number : ByteOrder → Octets → UInt32
  | little, x => .ofNat (x.a.toNat + 256 * (x.b.toNat + 256 * (x.c.toNat + 256 * x.d.toNat)))
  | big, x => .ofNat (x.d.toNat + 256 * (x.c.toNat + 256 * (x.b.toNat + 256 * x.a.toNat)))

/-- The octets in memory of a `uint32_t`. -/
def octets (o : ByteOrder) (addr : UInt32) : Octets :=
  let byte (n : ℕ) : UInt8 := .ofNat (addr.toNat / n)
  match o with
  | little => { a := byte 1, b := byte (2 ^ 8), c := byte (2 ^ 16), d := byte (2 ^ 24) }
  | big => { a := byte (2 ^ 24), b := byte (2 ^ 16), c := byte (2 ^ 8), d := byte 1 }

end ByteOrder

namespace NetworkAddress

/-- `isIPv6`. -/
def isIPv6 : NetworkAddress → Bool
  | ipv4 _ => false
  | ipv6 _ => true

/-- `IPv4(std::string)`, of the octets that the text stands for. -/
def ofIPv4Text (o : ByteOrder) (x : Octets) : NetworkAddress := .ipv4 (o.number x)

/-- `IPv6(std::string)`: `isIPv6` is false, and the number is that of the first octets. -/
def ofIPv6Text (o : ByteOrder) (bs : { bs : Bytes // bs.length = 16 }) : NetworkAddress :=
  .ipv4 (o.number {
    a := bs.val.getD 0 0, b := bs.val.getD 1 0, c := bs.val.getD 2 0, d := bs.val.getD 3 0 })

/-- The `mask` of `PrefixMatches`. -/
def prefixMask (bits : UInt32) : UInt32 := 0xFFFFFFFF <<< (32 - bits)

/-- `PrefixMatches`. -/
def prefixMatches (bits : UInt32) : NetworkAddress → NetworkAddress → Bool
  | ipv4 addr, ipv4 other => addr &&& prefixMask bits == other &&& prefixMask bits
  | _, _ => false

/-- The octets of an IPv4 address. -/
def octets (o : ByteOrder) : NetworkAddress → Option Octets
  | ipv4 addr => some (o.octets addr)
  | ipv6 _ => none

/-- The mask of 24 bits leaves out the low byte of the number. -/
theorem and_mask (x y : UInt32) :
    x &&& prefixMask 24 = y &&& prefixMask 24 ↔ x.toNat / 2 ^ 8 = y.toNat / 2 ^ 8 := by
  have hmask : ∀ z : UInt32, (z &&& prefixMask 24).toNat = z.toNat / 2 ^ 8 * 2 ^ 8 := by
    intro z
    have hz := z.toNat_lt
    have hvalue : (prefixMask 24).toNat = (2 ^ 24 - 1) <<< 8 := by decide
    rw [UInt32.toNat_and, hvalue, ← Nat.shiftRight_eq_div_pow, ← Nat.shiftLeft_eq]
    apply Nat.eq_of_testBit_eq
    intro i
    rw [Nat.testBit_and, Nat.testBit_shiftLeft, Nat.testBit_shiftLeft, Nat.testBit_two_pow_sub_one,
      Nat.testBit_shiftRight]
    by_cases hlow : 8 ≤ i
    · rw [Nat.add_sub_cancel' hlow]
      by_cases hhigh : i < 32
      · simp [hlow, (by omega : i - 8 < 24)]
      · have hbit : z.toNat.testBit i = false :=
          Nat.testBit_lt_two_pow (hz.trans_le (Nat.pow_le_pow_right (by omega) (by omega)))
        simp [hbit]
    · simp [hlow]
  rw [← UInt32.toNat_inj, hmask, hmask]
  omega

/-- **What 24 bits compare**: on a big-endian host the first three octets, on a little-endian
one the last three. -/
theorem prefixMatches_24 (o : ByteOrder) (x y : UInt32) :
    prefixMatches 24 (ipv4 x) (ipv4 y) = true ↔
      (o.octets x).b = (o.octets y).b ∧ (o.octets x).c = (o.octets y).c ∧
        match o with
        | .little => (o.octets x).d = (o.octets y).d
        | .big => (o.octets x).a = (o.octets y).a := by
  have hx := x.toNat_lt
  have hy := y.toNat_lt
  rw [prefixMatches, beq_iff_eq, and_mask]
  cases o with
  | little =>
      simp only [ByteOrder.octets, ← UInt8.toNat_inj, UInt8.toNat_ofNat']
      omega
  | big =>
      simp only [ByteOrder.octets, ← UInt8.toNat_inj, UInt8.toNat_ofNat']
      omega

end NetworkAddress

/-- The addresses of an endpoint, as they were given. -/
structure AddressTexts where
  v4 : Octets
  v6 : { bs : Bytes // bs.length = 16 }

/-- `Endpoint::Endpoint`, with the addresses as text. -/
def Endpoint.ofTexts (o : ByteOrder) (id : Int64) (port : UInt16) (texts : AddressTexts)
    (type : EndpointType) (peerTag : Bytes) (forceTcp : Bool) : Endpoint :=
  { id := id
    port := port
    address := .ofIPv4Text o texts.v4
    v6address := .ofIPv6Text o texts.v6
    type := if type = .udpRelay && forceTcp then .tcpRelay else type
    peerTag := peerTag }

end Tgvoip
