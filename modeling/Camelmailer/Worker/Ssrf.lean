import Camelmailer.Core.Model
import Camelmailer.LongestMatch

/-!
# The address guard

`camelmailer-worker/src/ssrf.rs` refuses requests to addresses that are not globally reachable. Its
tests are on the octets of an IPv4 address and on the segments of an IPv6 address. What they should
amount to is said in terms of blocks: those of the registries of special-purpose addresses, and those
in which an IPv6 address has an IPv4 address in it.
-/

namespace Camelmailer.Worker.Ssrf

open LongestMatch

/-! ## The tests -/

/-- An octet of an IPv4 address. -/
def octet (ip : BitVec 32) (index : Nat) : Nat := ip.toNat / 2 ^ (24 - 8 * index) % 256

/-- A segment of an IPv6 address. -/
def segment (ip : BitVec 128) (index : Nat) : BitVec 16 := (ip >>> (112 - 16 * index)).truncate 16

namespace Ipv4Addr

variable (ip : BitVec 32)

def isLoopback : Bool := octet ip 0 = 127

def isPrivate : Bool :=
  octet ip 0 = 10 || (octet ip 0 = 172 && (16 ≤ octet ip 1 && octet ip 1 ≤ 31)) ||
    (octet ip 0 = 192 && octet ip 1 = 168)

def isLinkLocal : Bool := octet ip 0 = 169 && octet ip 1 = 254

def isBroadcast : Bool := ip = 0xFFFFFFFF#32

def isDocumentation : Bool :=
  (octet ip 0 = 192 && (octet ip 1 = 0 && octet ip 2 = 2)) ||
    (octet ip 0 = 198 && (octet ip 1 = 51 && octet ip 2 = 100)) ||
    (octet ip 0 = 203 && (octet ip 1 = 0 && octet ip 2 = 113))

def isUnspecified : Bool := ip = 0#32

def isMulticast : Bool := 224 ≤ octet ip 0 && octet ip 0 ≤ 239

end Ipv4Addr

def ipv4Blocked (ip : BitVec 32) : Bool :=
  Ipv4Addr.isLoopback ip || Ipv4Addr.isPrivate ip || Ipv4Addr.isLinkLocal ip ||
    Ipv4Addr.isBroadcast ip || Ipv4Addr.isDocumentation ip || Ipv4Addr.isUnspecified ip ||
    Ipv4Addr.isMulticast ip || octet ip 0 = 0 ||
    (octet ip 0 = 100 && (64 ≤ octet ip 1 && octet ip 1 ≤ 127)) ||
    (octet ip 0 = 192 && octet ip 1 = 0) ||
    (octet ip 0 = 198 && (octet ip 1 = 18 || octet ip 1 = 19)) || 240 ≤ octet ip 0

/-- `Ipv6Addr::to_ipv4_mapped` finds an address. -/
def isIpv4Mapped (ip : BitVec 128) : Bool :=
  segment ip 0 = 0 && segment ip 1 = 0 && segment ip 2 = 0 && segment ip 3 = 0 && segment ip 4 = 0 &&
    segment ip 5 = 0xFFFF

def isIpv4Compatible (ip : BitVec 128) : Bool :=
  segment ip 0 = 0 && segment ip 1 = 0 && segment ip 2 = 0 && segment ip 3 = 0 && segment ip 4 = 0 &&
    segment ip 5 = 0 && segment ip 6 ≠ 0

def isUniqueLocal (ip : BitVec 128) : Bool := segment ip 0 &&& 0xFE00 = 0xFC00

def isUnicastLinkLocal (ip : BitVec 128) : Bool := segment ip 0 &&& 0xFFC0 = 0xFE80

def isDocumentationV6 (ip : BitVec 128) : Bool := segment ip 0 = 0x2001 && segment ip 1 = 0x0DB8

namespace Ipv6Addr

variable (ip : BitVec 128)

def isLoopback : Bool := ip = 1#128

def isUnspecified : Bool := ip = 0#128

def isMulticast : Bool := segment ip 0 &&& 0xFF00 = 0xFF00

end Ipv6Addr

def ipv6Blocked (ip : BitVec 128) : Bool :=
  if isIpv4Mapped ip || isIpv4Compatible ip then true
  else Ipv6Addr.isLoopback ip || Ipv6Addr.isUnspecified ip || Ipv6Addr.isMulticast ip ||
    isUniqueLocal ip || isUnicastLinkLocal ip || isDocumentationV6 ip

def ipBlocked : IpAddr → Bool
  | .v4 ip => ipv4Blocked ip
  | .v6 ip => ipv6Blocked ip

/-! ## Special-purpose addresses -/

/-- An address is in one of some blocks. -/
def Within {width : Nat} (blocks : List (Block width)) (ip : BitVec width) : Prop :=
  ∃ block ∈ blocks, ip ∈ block.words

/-- IPv4 addresses that are not globally reachable or not unicast, as the registries have them. -/
def special4 : List (Block 32) :=
  [⟨0x00000000#32, 8, by decide⟩, -- this network
   ⟨0x0A000000#32, 8, by decide⟩, -- private use
   ⟨0x64400000#32, 10, by decide⟩, -- shared address space
   ⟨0x7F000000#32, 8, by decide⟩, -- loopback
   ⟨0xA9FE0000#32, 16, by decide⟩, -- link-local
   ⟨0xAC100000#32, 12, by decide⟩, -- private use
   ⟨0xC0000200#32, 24, by decide⟩, -- documentation
   ⟨0xC0586302#32, 32, by decide⟩, -- 6a44 relay anycast
   ⟨0xC0A80000#32, 16, by decide⟩, -- private use
   ⟨0xC6120000#32, 15, by decide⟩, -- benchmarking
   ⟨0xC6336400#32, 24, by decide⟩, -- documentation
   ⟨0xCB007100#32, 24, by decide⟩, -- documentation
   ⟨0xE0000000#32, 4, by decide⟩, -- multicast
   ⟨0xF0000000#32, 4, by decide⟩] -- reserved, and the limited broadcast

/-- The block of the IETF protocol assignments. Two addresses in it are globally reachable. -/
def protocol4 : Block 32 := ⟨0xC0000000#32, 24, by decide⟩

def reachable4 : List (BitVec 32) := [0xC0000009#32, 0xC000000A#32]

def Special4 (ip : BitVec 32) : Prop :=
  Within special4 ip ∨ (ip ∈ protocol4.words ∧ ip ∉ reachable4)

/-- IPv6 addresses that are not globally reachable or not unicast. The IPv4-mapped and the
IPv4-compatible addresses are among them. -/
def special6 : List (Block 128) :=
  [⟨0#128, 96, by decide⟩, -- unspecified, loopback, IPv4-compatible
   ⟨0xFFFF_0000_0000#128, 96, by decide⟩, -- IPv4-mapped
   ⟨0x0064_FF9B_0001_0000_0000_0000_0000_0000#128, 48, by decide⟩, -- local translation
   ⟨0x0100_0000_0000_0000_0000_0000_0000_0000#128, 64, by decide⟩, -- discard only
   ⟨0x0100_0000_0000_0001_0000_0000_0000_0000#128, 64, by decide⟩, -- dummy prefix
   ⟨0x2001_0DB8_0000_0000_0000_0000_0000_0000#128, 32, by decide⟩, -- documentation
   ⟨0x3FFF_0000_0000_0000_0000_0000_0000_0000#128, 20, by decide⟩, -- documentation
   ⟨0x5F00_0000_0000_0000_0000_0000_0000_0000#128, 16, by decide⟩, -- segment routing
   ⟨0xFC00_0000_0000_0000_0000_0000_0000_0000#128, 7, by decide⟩, -- unique local
   ⟨0xFE80_0000_0000_0000_0000_0000_0000_0000#128, 10, by decide⟩, -- link-local
   ⟨0xFF00_0000_0000_0000_0000_0000_0000_0000#128, 8, by decide⟩] -- multicast

/-- The block of the IETF protocol assignments, and the blocks in it that are globally reachable. -/
def protocol6 : Block 128 := ⟨0x2001_0000_0000_0000_0000_0000_0000_0000#128, 23, by decide⟩

def reachable6 : List (Block 128) :=
  [⟨0x2001_0001_0000_0000_0000_0000_0000_0001#128, 128, by decide⟩,
   ⟨0x2001_0001_0000_0000_0000_0000_0000_0002#128, 128, by decide⟩,
   ⟨0x2001_0001_0000_0000_0000_0000_0000_0003#128, 128, by decide⟩,
   ⟨0x2001_0003_0000_0000_0000_0000_0000_0000#128, 32, by decide⟩,
   ⟨0x2001_0004_0112_0000_0000_0000_0000_0000#128, 48, by decide⟩,
   ⟨0x2001_0020_0000_0000_0000_0000_0000_0000#128, 28, by decide⟩,
   ⟨0x2001_0030_0000_0000_0000_0000_0000_0000#128, 28, by decide⟩]

def Special6 (ip : BitVec 128) : Prop :=
  Within special6 ip ∨ (ip ∈ protocol6.words ∧ ¬ Within reachable6 ip)

/-- The block for translation from IPv6 to IPv4, and that of 6to4. -/
def nat64 : Block 128 := ⟨0x0064_FF9B_0000_0000_0000_0000_0000_0000#128, 96, by decide⟩

def sixToFour : Block 128 := ⟨0x2002_0000_0000_0000_0000_0000_0000_0000#128, 16, by decide⟩

/-- The IPv4 addresses that an IPv6 address has in it. -/
inductive Embeds (ip : BitVec 128) : BitVec 32 → Prop
  | mapped (inside : ip ∈ Block.words ⟨0xFFFF_0000_0000#128, 96, by decide⟩) : Embeds ip (ip.truncate 32)
  | compatible (inside : ip ∈ Block.words ⟨0#128, 96, by decide⟩) : Embeds ip (ip.truncate 32)
  | nat64 (inside : ip ∈ nat64.words) : Embeds ip (ip.truncate 32)
  | sixToFour (inside : ip ∈ sixToFour.words) : Embeds ip ((ip >>> 80).truncate 32)

/-- The addresses to which no request should go. -/
def MustBlock : IpAddr → Prop
  | .v4 ip => Special4 ip
  | .v6 ip => Special6 ip ∨ ∃ embedded, Embeds ip embedded ∧ ipv4Blocked embedded = true

/-! ## The addresses that are missed -/

/-- IPv4 addresses on which the guard goes wrong. It has sixteen bits instead of twenty-four for the
block of the protocol assignments, and one relay address is not in it. -/
def Missed4 (ip : BitVec 32) : Prop :=
  ip = 0xC0586302#32 ∨
    (ip ∈ Block.words ⟨0xC0000000#32, 16, by decide⟩ ∧
      ip ∉ Block.words ⟨0xC0000200#32, 24, by decide⟩ ∧
      (ip ∈ protocol4.words → ip ∈ reachable4))

/-- Blocks of IPv6 addresses that the guard does not know. -/
def unknown6 : List (Block 128) :=
  [⟨0x0064_FF9B_0001_0000_0000_0000_0000_0000#128, 48, by decide⟩,
   ⟨0x0100_0000_0000_0000_0000_0000_0000_0000#128, 64, by decide⟩,
   ⟨0x0100_0000_0000_0001_0000_0000_0000_0000#128, 64, by decide⟩,
   ⟨0x3FFF_0000_0000_0000_0000_0000_0000_0000#128, 20, by decide⟩,
   ⟨0x5F00_0000_0000_0000_0000_0000_0000_0000#128, 16, by decide⟩]

/-- IPv6 addresses on which the guard goes wrong: those of the blocks it does not know, the
IPv4-compatible ones of the first network other than the unspecified address and the loopback, and
those with a blocked IPv4 address in them for translation or 6to4. -/
def Missed6 (ip : BitVec 128) : Prop :=
  Within unknown6 ip ∨ (ip ∈ protocol6.words ∧ ¬ Within reachable6 ip) ∨
    (ip ∈ Block.words ⟨0#128, 112, by decide⟩ ∧ ip ≠ 0#128 ∧ ip ≠ 1#128) ∨
    (ip ∈ nat64.words ∧ ipv4Blocked (ip.truncate 32) = true) ∨
    (ip ∈ sixToFour.words ∧ ipv4Blocked ((ip >>> 80).truncate 32) = true)

def Missed : IpAddr → Prop
  | .v4 ip => Missed4 ip
  | .v6 ip => Missed6 ip

/-! ## IPv4 -/

section Ipv4

variable {ip : BitVec 32}

theorem special4_iff : Special4 ip ↔
    (ip.toNat / 2 ^ 24 = 0 ∨ ip.toNat / 2 ^ 24 = 10 ∨ ip.toNat / 2 ^ 22 = 401 ∨
      ip.toNat / 2 ^ 24 = 127 ∨ ip.toNat / 2 ^ 16 = 43518 ∨ ip.toNat / 2 ^ 20 = 2753 ∨
      ip.toNat / 2 ^ 8 = 12582914 ∨ ip.toNat = 3227017986 ∨ ip.toNat / 2 ^ 16 = 49320 ∨
      ip.toNat / 2 ^ 17 = 25353 ∨ ip.toNat / 2 ^ 8 = 12989284 ∨ ip.toNat / 2 ^ 8 = 13303921 ∨
      ip.toNat / 2 ^ 28 = 14 ∨ ip.toNat / 2 ^ 28 = 15) ∨
    (ip.toNat / 2 ^ 8 = 12582912 ∧ ip.toNat ≠ 3221225481 ∧ ip.toNat ≠ 3221225482) := by
  simp [Special4, Within, special4, protocol4, reachable4, Block.mem_words_div, ← BitVec.toNat_inj]

theorem missed4_iff : Missed4 ip ↔ ip.toNat = 3227017986 ∨
    (ip.toNat / 2 ^ 16 = 49152 ∧ ip.toNat / 2 ^ 8 ≠ 12582914 ∧
      (ip.toNat / 2 ^ 8 = 12582912 → ip.toNat = 3221225481 ∨ ip.toNat = 3221225482)) := by
  simp [Missed4, protocol4, reachable4, Block.mem_words_div, ← BitVec.toNat_inj]

theorem isLoopback_iff : Ipv4Addr.isLoopback ip = true ↔ ip.toNat / 2 ^ 24 = 127 := by
  simp only [Ipv4Addr.isLoopback, decide_eq_true_eq]
  unfold octet
  omega

theorem isPrivate_iff : Ipv4Addr.isPrivate ip = true ↔ ip.toNat / 2 ^ 24 = 10 ∨
    ip.toNat / 2 ^ 20 = 2753 ∨ ip.toNat / 2 ^ 16 = 49320 := by
  simp only [Ipv4Addr.isPrivate, Bool.or_eq_true, Bool.and_eq_true, decide_eq_true_eq]
  unfold octet
  omega

theorem isLinkLocal_iff : Ipv4Addr.isLinkLocal ip = true ↔ ip.toNat / 2 ^ 16 = 43518 := by
  simp only [Ipv4Addr.isLinkLocal, Bool.and_eq_true, decide_eq_true_eq]
  unfold octet
  omega

theorem isDocumentation_iff : Ipv4Addr.isDocumentation ip = true ↔ ip.toNat / 2 ^ 8 = 12582914 ∨
    ip.toNat / 2 ^ 8 = 12989284 ∨ ip.toNat / 2 ^ 8 = 13303921 := by
  simp only [Ipv4Addr.isDocumentation, Bool.or_eq_true, Bool.and_eq_true, decide_eq_true_eq]
  unfold octet
  omega

theorem isMulticast_iff : Ipv4Addr.isMulticast ip = true ↔ ip.toNat / 2 ^ 28 = 14 := by
  simp only [Ipv4Addr.isMulticast, Bool.and_eq_true, decide_eq_true_eq]
  unfold octet
  omega

/-- The ranges that `ipv4_blocked` itself has. -/
theorem ranges_iff : (octet ip 0 = 0 ∨ (octet ip 0 = 100 ∧ 64 ≤ octet ip 1 ∧ octet ip 1 ≤ 127) ∨
      (octet ip 0 = 192 ∧ octet ip 1 = 0) ∨ (octet ip 0 = 198 ∧ (octet ip 1 = 18 ∨ octet ip 1 = 19)) ∨
        240 ≤ octet ip 0) ↔
    (ip.toNat / 2 ^ 24 = 0 ∨ ip.toNat / 2 ^ 22 = 401 ∨ ip.toNat / 2 ^ 16 = 49152 ∨
      ip.toNat / 2 ^ 17 = 25353 ∨ ip.toNat / 2 ^ 28 = 15) := by
  simp only [octet]
  refine or_congr ?_ (or_congr ?_ (or_congr ?_ (or_congr ?_ ?_))) <;> omega

/-- The blocks that are refused. Some of the tests are on a part of what others are on. -/
theorem ipv4Blocked_iff : ipv4Blocked ip = true ↔
    ip.toNat / 2 ^ 24 = 0 ∨ ip.toNat / 2 ^ 24 = 10 ∨ ip.toNat / 2 ^ 22 = 401 ∨
      ip.toNat / 2 ^ 24 = 127 ∨ ip.toNat / 2 ^ 16 = 43518 ∨ ip.toNat / 2 ^ 20 = 2753 ∨
      ip.toNat / 2 ^ 16 = 49152 ∨ ip.toNat / 2 ^ 16 = 49320 ∨ ip.toNat / 2 ^ 17 = 25353 ∨
      ip.toNat / 2 ^ 8 = 12989284 ∨ ip.toNat / 2 ^ 8 = 13303921 ∨ ip.toNat / 2 ^ 28 = 14 ∨
      ip.toNat / 2 ^ 28 = 15 := by
  have broadcast : Ipv4Addr.isBroadcast ip = true → ip.toNat / 2 ^ 28 = 15 := by
    intro same
    rw [of_decide_eq_true same]
    decide
  have unspecified : Ipv4Addr.isUnspecified ip = true → ip.toNat / 2 ^ 24 = 0 := by
    intro same
    rw [of_decide_eq_true same]
    decide
  have own := @ranges_iff ip
  simp only [ipv4Blocked, Bool.or_eq_true, isLoopback_iff,
    isPrivate_iff, isLinkLocal_iff, isDocumentation_iff, isMulticast_iff]
  grind

/-- Blocked are the special-purpose addresses, apart from those that are missed. In the network of the
protocol assignments everything is blocked. -/
theorem ipv4Blocked_special : (ipv4Blocked ip = true ↔ Special4 ip) ↔ ¬ Missed4 ip := by
  rw [special4_iff, missed4_iff, ipv4Blocked_iff]
  by_cases network : ip.toNat / 2 ^ 16 = 49152
  · have first : ip.toNat / 2 ^ 24 = 192 := by omega
    have second : ip.toNat / 2 ^ 22 = 768 := by omega
    have third : ip.toNat / 2 ^ 20 = 3072 := by omega
    have fourth : ip.toNat / 2 ^ 17 = 24576 := by omega
    have fifth : ip.toNat / 2 ^ 28 = 12 := by omega
    have documentation : ip.toNat / 2 ^ 8 ≠ 12989284 ∧ ip.toNat / 2 ^ 8 ≠ 13303921 := by omega
    have relay : ip.toNat ≠ 3227017986 := by omega
    rw [network, first, second, third, fourth, fifth]
    norm_num
    tauto
  · have other : ip.toNat / 2 ^ 8 ≠ 12582912 ∧ ip.toNat / 2 ^ 8 ≠ 12582914 := by omega
    by_cases relay : ip.toNat = 3227017986
    · rw [relay]
      norm_num
    · simp only [network, relay, other, false_or, false_and, or_false, not_false_eq_true]

end Ipv4

/-! ## IPv6 -/

section Ipv6

variable {ip : BitVec 128}

theorem segment_toNat (ip : BitVec 128) (index : Nat) :
    (segment ip index).toNat = ip.toNat / 2 ^ (112 - 16 * index) % 65536 := by
  rw [segment, BitVec.toNat_setWidth, BitVec.toNat_ushiftRight,
    Nat.shiftRight_eq_div_pow]

theorem segment_eq {index : Nat} {value : BitVec 16} :
    segment ip index = value ↔ ip.toNat / 2 ^ (112 - 16 * index) % 65536 = value.toNat := by
  rw [← BitVec.toNat_inj, segment_toNat]

theorem isIpv4Mapped_iff : isIpv4Mapped ip = true ↔ ip.toNat / 2 ^ 32 = 65535 := by
  simp only [isIpv4Mapped, segment_eq,
    BitVec.reduceToNat]
  norm_num
  omega

theorem isIpv4Compatible_iff : isIpv4Compatible ip = true ↔
    ip.toNat / 2 ^ 32 = 0 ∧ ip.toNat / 2 ^ 16 ≠ 0 := by
  simp only [isIpv4Compatible, ne_eq, segment_eq,
    BitVec.reduceToNat]
  norm_num
  omega

theorem isDocumentationV6_iff : isDocumentationV6 ip = true ↔ ip.toNat / 2 ^ 96 = 0x20010DB8 := by
  simp only [isDocumentationV6, segment_eq,
    BitVec.reduceToNat]
  norm_num
  omega

/-- A test of the first segment under a mask is one of the first bits. -/
theorem segment_mask (count : Nat) (base : BitVec 16) :
    segment ip 0 &&& (BitVec.allOnes 16 <<< count) = base <<< count ↔
      ip.toNat / 2 ^ (112 + count) = (base <<< count).toNat / 2 ^ count := by
  have bound : ip.toNat / 2 ^ 112 < 65536 := by
    omega
  rw [and_mask_iff, ← BitVec.toNat_inj, BitVec.toNat_ushiftRight, BitVec.toNat_ushiftRight,
    Nat.shiftRight_eq_div_pow, Nat.shiftRight_eq_div_pow, segment_toNat, Nat.mod_eq_of_lt bound, Nat.div_div_eq_div_mul, ← pow_add]

theorem isUniqueLocal_iff : isUniqueLocal ip = true ↔ ip.toNat / 2 ^ 121 = 126 := by
  rw [isUniqueLocal, decide_eq_true_eq]
  exact segment_mask 9 126#16

theorem isUnicastLinkLocal_iff : isUnicastLinkLocal ip = true ↔ ip.toNat / 2 ^ 118 = 1018 := by
  rw [isUnicastLinkLocal, decide_eq_true_eq]
  exact segment_mask 6 1018#16

theorem isMulticastV6_iff : Ipv6Addr.isMulticast ip = true ↔ ip.toNat / 2 ^ 120 = 255 := by
  rw [Ipv6Addr.isMulticast, decide_eq_true_eq]
  exact segment_mask 8 255#16

theorem ipv6Blocked_iff : ipv6Blocked ip = true ↔
    ip.toNat / 2 ^ 32 = 65535 ∨ (ip.toNat / 2 ^ 32 = 0 ∧ ip.toNat / 2 ^ 16 ≠ 0) ∨ ip.toNat = 1 ∨
      ip.toNat = 0 ∨ ip.toNat / 2 ^ 120 = 255 ∨ ip.toNat / 2 ^ 121 = 126 ∨
      ip.toNat / 2 ^ 118 = 1018 ∨ ip.toNat / 2 ^ 96 = 0x20010DB8 := by
  have loopback : Ipv6Addr.isLoopback ip = true ↔ ip.toNat = 1 := by
    rw [Ipv6Addr.isLoopback, decide_eq_true_eq, ← BitVec.toNat_inj]
    rfl
  have unspecified : Ipv6Addr.isUnspecified ip = true ↔ ip.toNat = 0 := by
    rw [Ipv6Addr.isUnspecified, decide_eq_true_eq, ← BitVec.toNat_inj]
    rfl
  unfold ipv6Blocked
  split
  · next embedding =>
      rw [Bool.or_eq_true, isIpv4Mapped_iff, isIpv4Compatible_iff] at embedding
      exact iff_of_true rfl (embedding.imp_right .inl)
  · next other =>
      rw [Bool.or_eq_true, isIpv4Mapped_iff, isIpv4Compatible_iff, not_or] at other
      simp only [Bool.or_eq_true, loopback, unspecified, isMulticastV6_iff, isUniqueLocal_iff,
        isUnicastLinkLocal_iff, isDocumentationV6_iff, other, false_or, or_assoc]

theorem within_special6 : Within special6 ip ↔ ip.toNat / 2 ^ 32 = 0 ∨ ip.toNat / 2 ^ 32 = 65535 ∨
    Within unknown6 ip ∨ ip.toNat / 2 ^ 96 = 0x20010DB8 ∨ ip.toNat / 2 ^ 121 = 126 ∨
      ip.toNat / 2 ^ 118 = 1018 ∨ ip.toNat / 2 ^ 120 = 255 := by
  simp only [Within, special6, unknown6, List.mem_cons, exists_eq_or_imp,
    Block.mem_words_div]
  grind

/-- An address that begins with a segment of the unicast range is refused for documentation only. -/
theorem not_blocked_of_segment (low : 0 < ip.toNat / 2 ^ 112) (high : ip.toNat / 2 ^ 112 < 0xFC00)
    (other : ip.toNat / 2 ^ 96 ≠ 0x20010DB8) : ¬ ipv6Blocked ip = true := by
  rw [ipv6Blocked_iff]
  rintro (mapped | ⟨compatible, -⟩ | loopback | unspecified | multicast | unique | link | documentation)
  · omega
  · omega
  · omega
  · omega
  · omega
  · omega
  · omega
  · exact other documentation

theorem not_blocked_of_unknown (unknown : Within unknown6 ip) : ¬ ipv6Blocked ip = true := by
  simp only [Within, unknown6, List.mem_cons, List.not_mem_nil, or_false, Block.mem_words_div] at unknown
  norm_num at unknown
  refine not_blocked_of_segment ?_ ?_ ?_ <;> norm_num <;> omega

theorem not_blocked_of_protocol (inside : ip ∈ protocol6.words) : ¬ ipv6Blocked ip = true := by
  rw [Block.mem_words_div] at inside
  simp only [protocol6] at inside
  norm_num at inside
  refine not_blocked_of_segment ?_ ?_ ?_ <;> norm_num <;> omega

theorem not_blocked_of_nat64 (inside : ip ∈ nat64.words) : ¬ ipv6Blocked ip = true := by
  rw [Block.mem_words_div] at inside
  simp only [nat64] at inside
  norm_num at inside
  refine not_blocked_of_segment ?_ ?_ ?_ <;> norm_num <;> omega

theorem not_blocked_of_sixToFour (inside : ip ∈ sixToFour.words) : ¬ ipv6Blocked ip = true := by
  rw [Block.mem_words_div] at inside
  simp only [sixToFour] at inside
  norm_num at inside
  refine not_blocked_of_segment ?_ ?_ ?_ <;> norm_num <;> omega

theorem firstNetwork_iff :
    (ip ∈ Block.words ⟨0#128, 112, by decide⟩ ∧ ip ≠ 0#128 ∧ ip ≠ 1#128) ↔
      ip.toNat / 2 ^ 16 = 0 ∧ ip.toNat ≠ 0 ∧ ip.toNat ≠ 1 := by
  rw [Block.mem_words_div, ne_eq, ne_eq, ← BitVec.toNat_inj, ← BitVec.toNat_inj]
  rfl

/-- What should be blocked, and what is blocked of it. -/
theorem special6_not_blocked : (Special6 ip ∧ ¬ ipv6Blocked ip = true) ↔
    (Within unknown6 ip ∨ (ip ∈ protocol6.words ∧ ¬ Within reachable6 ip) ∨
      (ip ∈ Block.words ⟨0#128, 112, by decide⟩ ∧ ip ≠ 0#128 ∧ ip ≠ 1#128)) := by
  rw [firstNetwork_iff, Special6, within_special6]
  constructor
  · rintro ⟨(compatible | mapped | unknown | documentation | unique | link | multicast) | assigned, open_⟩
    · rw [ipv6Blocked_iff] at open_
      obtain ⟨-, apart, remote, specified, -⟩ := by simpa only [not_or] using open_
      exact .inr (.inr ⟨by_contra (fun wide => apart ⟨compatible, wide⟩), specified, remote⟩)
    · exact absurd (ipv6Blocked_iff.mpr (.inl mapped)) open_
    · exact .inl unknown
    · exact absurd (ipv6Blocked_iff.mpr (.inr (.inr (.inr (.inr (.inr (.inr (.inr documentation)))))))) open_
    · exact absurd (ipv6Blocked_iff.mpr (.inr (.inr (.inr (.inr (.inr (.inl unique))))))) open_
    · exact absurd (ipv6Blocked_iff.mpr (.inr (.inr (.inr (.inr (.inr (.inr (.inl link)))))))) open_
    · exact absurd (ipv6Blocked_iff.mpr (.inr (.inr (.inr (.inr (.inl multicast)))))) open_
    · exact .inr (.inl assigned)
  · rintro (unknown | assigned | ⟨network, specified, remote⟩)
    · exact ⟨.inl (.inr (.inr (.inl unknown))), not_blocked_of_unknown unknown⟩
    · exact ⟨.inr assigned, not_blocked_of_protocol assigned.1⟩
    · refine ⟨.inl (.inl (by omega)), ?_⟩
      rw [ipv6Blocked_iff]
      omega

/-- An IPv4 address that is mapped or compatible is in a block of its own. -/
theorem mustBlock_v6 : MustBlock (.v6 ip) ↔ Special6 ip ∨
    (ip ∈ nat64.words ∧ ipv4Blocked (ip.truncate 32) = true) ∨
      (ip ∈ sixToFour.words ∧ ipv4Blocked ((ip >>> 80).truncate 32) = true) := by
  have first : (⟨0#128, 96, by decide⟩ : Block 128) ∈ special6 := List.mem_cons_self
  have second : (⟨0xFFFF_0000_0000#128, 96, by decide⟩ : Block 128) ∈ special6 :=
    List.mem_cons_of_mem _ List.mem_cons_self
  constructor
  · rintro (special | ⟨embedded, embeds, blocked⟩)
    · exact .inl special
    · cases embeds with
      | mapped inside => exact .inl (.inl ⟨_, second, inside⟩)
      | compatible inside => exact .inl (.inl ⟨_, first, inside⟩)
      | nat64 inside => exact .inr (.inl ⟨inside, blocked⟩)
      | sixToFour inside => exact .inr (.inr ⟨inside, blocked⟩)
  · rintro (special | ⟨inside, blocked⟩ | ⟨inside, blocked⟩)
    · exact .inl special
    · exact .inr ⟨_, .nat64 inside, blocked⟩
    · exact .inr ⟨_, .sixToFour inside, blocked⟩

/-- Everything that is refused is special, so what is missed is what should be refused as well. -/
theorem special_of_blocked (blocked : ipv6Blocked ip = true) : Special6 ip := by
  rw [Special6, within_special6]
  rcases ipv6Blocked_iff.mp blocked with
    mapped | ⟨compatible, -⟩ | loopback | unspecified | multicast | unique | link | documentation
  · exact .inl (.inr (.inl mapped))
  · exact .inl (.inl compatible)
  · exact .inl (.inl (by omega))
  · exact .inl (.inl (by omega))
  · exact .inl (.inr (.inr (.inr (.inr (.inr (.inr multicast))))))
  · exact .inl (.inr (.inr (.inr (.inr (.inl unique)))))
  · exact .inl (.inr (.inr (.inr (.inr (.inr (.inl link))))))
  · exact .inl (.inr (.inr (.inr (.inl documentation))))

theorem ipv6Blocked_special : (ipv6Blocked ip = true ↔ MustBlock (.v6 ip)) ↔ ¬ Missed6 ip := by
  rw [mustBlock_v6]
  have missed := @special6_not_blocked ip
  constructor
  · rintro same (unknown | assigned | network | ⟨inside, blocked⟩ | ⟨inside, blocked⟩)
    · obtain ⟨special, open_⟩ := missed.mpr (.inl unknown)
      exact open_ (same.mpr (.inl special))
    · obtain ⟨special, open_⟩ := missed.mpr (.inr (.inl assigned))
      exact open_ (same.mpr (.inl special))
    · obtain ⟨special, open_⟩ := missed.mpr (.inr (.inr network))
      exact open_ (same.mpr (.inl special))
    · exact not_blocked_of_nat64 inside (same.mpr (.inr (.inl ⟨inside, blocked⟩)))
    · exact not_blocked_of_sixToFour inside (same.mpr (.inr (.inr ⟨inside, blocked⟩)))
  · intro caught
    refine ⟨fun blocked => .inl (special_of_blocked blocked), ?_⟩
    rintro (special | translated | tunnelled)
    · by_contra open_
      rcases missed.mp ⟨special, open_⟩ with unknown | assigned | network
      · exact caught (.inl unknown)
      · exact caught (.inr (.inl assigned))
      · exact caught (.inr (.inr (.inl network)))
    · exact absurd (.inr (.inr (.inr (.inl translated)))) caught
    · exact absurd (.inr (.inr (.inr (.inr tunnelled)))) caught

end Ipv6

/-- The addresses that are blocked are those that should be, apart from those that are missed. -/
theorem ipBlocked_iff_special (ip : IpAddr) :
    (ipBlocked ip = true ↔ MustBlock ip) ↔ ¬ Missed ip := by
  cases ip with
  | v4 ip => exact ipv4Blocked_special
  | v6 ip => exact ipv6Blocked_special

/-- Not blocked are a private address and the address of the metadata service in IPv6 form, a dummy
address and one of the first network; a public address is blocked. -/
theorem private_addresses_pass :
    (ipBlocked (.v6 0x0064_FF9B_0000_0000_0000_0000_0A00_0001#128) = false ∧
      MustBlock (.v6 0x0064_FF9B_0000_0000_0000_0000_0A00_0001#128)) ∧
    (ipBlocked (.v6 0x2002_A9FE_A9FE_0000_0000_0000_0000_0001#128) = false ∧
      MustBlock (.v6 0x2002_A9FE_A9FE_0000_0000_0000_0000_0001#128)) ∧
    (ipBlocked (.v6 0x0100_0000_0000_0000_0000_0000_0000_0001#128) = false ∧
      MustBlock (.v6 0x0100_0000_0000_0000_0000_0000_0000_0001#128)) ∧
    (ipBlocked (.v6 5#128) = false ∧ MustBlock (.v6 5#128)) ∧
    (ipBlocked (.v4 0xC0000101#32) = true ∧ ¬ MustBlock (.v4 0xC0000101#32)) := by
  refine ⟨⟨by decide, ?_⟩, ⟨by decide, ?_⟩, ⟨by decide, ?_⟩, ⟨by decide, ?_⟩, by decide, ?_⟩
  · exact .inr ⟨_, .nat64 (Block.mem_words_div.mpr (by decide)), by decide⟩
  · exact .inr ⟨_, .sixToFour (Block.mem_words_div.mpr (by decide)), by decide⟩
  · exact .inl (.inl ⟨⟨0x0100_0000_0000_0000_0000_0000_0000_0000#128, 64, by decide⟩,
      .tail _ (.tail _ (.tail _ (.head _))), Block.mem_words_div.mpr (by decide)⟩)
  · exact .inl (.inl ⟨⟨0#128, 96, by decide⟩, List.mem_cons_self, Block.mem_words_div.mpr (by decide)⟩)
  · exact fun special => absurd (special4_iff.mp special) (by decide)

end Camelmailer.Worker.Ssrf
