import Camelmailer.Core.Credentials
import Camelmailer.LongestMatch

/-!
# The credential of a client's address

Networks of both address families are blocks of IPv6 addresses: an IPv4 network is the block of the
IPv4-mapped forms of its addresses, which has 96 bits more than its prefix says. All networks that
contain a client are nested, and the credential wanted is that of the innermost.

The candidates are compared by the prefix lengths they are written with. The results below say
exactly when the one found is the innermost nevertheless.
-/

namespace Camelmailer

open Utf8
open Spf (IpNet IpSyntax)
open LongestMatch (Block shiftRight_eq)

/-! ## Networks as blocks -/

/-- An address in IPv6 form. -/
def IpAddr.inIpv6 : IpAddr → BitVec 128
  | .v4 address => 0xffff#96 ++ address
  | .v6 address => address

namespace Spf.IpNet

/-- The bits that a network of the family of an address can fix. -/
def maxPrefixLen : IpAddr → Nat
  | .v4 _ => 32
  | .v6 _ => 128

/-- A network as the library builds it. -/
def Valid (net : IpNet) : Prop := net.prefixLen ≤ maxPrefixLen net.address

/-- The addresses of a network, in IPv6 form. -/
def addresses (net : IpNet) : Set (BitVec 128) :=
  { address | ∃ ip, net.contains ip = true ∧ ip.inIpv6 = address }

/-- The bits that a network fixes of the IPv6 forms of its addresses. -/
def depth (net : IpNet) : Nat :=
  match net.address with
  | .v4 _ => 96 + net.prefixLen
  | .v6 _ => net.prefixLen

/-- A client is in a network as it is, or it is an IPv4-mapped IPv6 client whose IPv4 address is. -/
def ContainsClient (net : IpNet) (ip : IpAddr) : Prop :=
  net.contains ip = true ∨
    ∃ mapped : BitVec 32, ip = .v6 (0xffff#96 ++ mapped) ∧ net.contains (.v4 mapped) = true

variable {net : IpNet}

theorem depth_le (valid : net.Valid) : net.depth ≤ 128 := by
  obtain ⟨address | address, prefixLen⟩ := net
  · have bound : prefixLen ≤ 32 := valid
    unfold depth
    dsimp only
    omega
  · exact valid

/-- A network as a block of IPv6 addresses. -/
def block (net : IpNet) (valid : net.Valid) : Block 128 where
  base := net.address.inIpv6
  length := net.depth
  length_le := depth_le valid

variable {address : BitVec 128}

/-- What agrees with an IPv4-mapped address in its first bits is one, too. -/
theorem mapped_shiftRight {network : BitVec 32} {count : Nat} (bound : count ≤ 32) :
    address >>> count = (0xffff#96 ++ network : BitVec 128) >>> count ↔
      ∃ mapped : BitVec 32, address = (0xffff#96 ++ mapped : BitVec 128) ∧
        mapped >>> count = network >>> count := by
  simp only [shiftRight_eq]
  constructor
  · intro agree
    refine ⟨address.truncate 32, BitVec.eq_of_getLsbD_eq (fun index _ => ?_), ?_⟩
    · rw [BitVec.getLsbD_append]
      split_ifs with low
      · simp [low]
      · rw [agree index (by omega), BitVec.getLsbD_append, if_neg low]
    · intro index covered
      by_cases low : index < 32
      · have bit := agree index covered
        rw [BitVec.getLsbD_append] at bit
        simpa [low] using bit
      · rw [BitVec.getLsbD_of_ge _ _ (by omega), BitVec.getLsbD_of_ge _ _ (by omega)]
  · rintro ⟨mapped, rfl, agree⟩ index covered
    rw [BitVec.getLsbD_append, BitVec.getLsbD_append, agree index covered]

theorem addresses_eq (valid : net.Valid) : net.addresses = (net.block valid).words := by
  obtain ⟨address | address, prefixLen⟩ := net
  · have width : 128 - (96 + prefixLen) = 32 - prefixLen := by omega
    ext word
    constructor
    · rintro ⟨client | client, inside, rfl⟩
      · refine (congrArg (fun count => _ >>> count = _ >>> count) width).mpr ?_
        exact (mapped_shiftRight (by omega)).mpr ⟨client, rfl, (of_decide_eq_true inside).symm⟩
      · cases inside
    · intro member
      have shifted : word >>> (128 - (96 + prefixLen)) =
          (0xffff#96 ++ address) >>> (128 - (96 + prefixLen)) := member
      rw [width] at shifted
      obtain ⟨mapped, rfl, same⟩ := (mapped_shiftRight (by omega)).mp shifted
      exact ⟨.v4 mapped, decide_eq_true same.symm, rfl⟩
  · ext word
    constructor
    · rintro ⟨client | client, inside, rfl⟩
      · cases inside
      · exact (of_decide_eq_true inside).symm
    · intro member
      exact ⟨.v6 word, decide_eq_true member.symm, rfl⟩

/-- Of two networks with an address in common, one is inside the other exactly when it fixes at
least as many bits. -/
theorem addresses_subset_iff {inner outer : IpNet} (validInner : inner.Valid)
    (validOuter : outer.Valid) (inside : address ∈ inner.addresses)
    (outside : address ∈ outer.addresses) :
    inner.addresses ⊆ outer.addresses ↔ outer.depth ≤ inner.depth := by
  rw [addresses_eq validInner] at inside ⊢
  rw [addresses_eq validOuter] at outside ⊢
  constructor
  · exact fun nested => Block.length_le_of_subset nested
  · exact fun longer => Block.words_subset inside outside longer

theorem ContainsClient.mem_addresses {ip : IpAddr} (contained : net.ContainsClient ip) :
    ip.inIpv6 ∈ net.addresses := by
  rcases contained with direct | ⟨mapped, rfl, behind⟩
  · exact ⟨ip, direct, rfl⟩
  · exact ⟨.v4 mapped, behind, rfl⟩

end Spf.IpNet

namespace CredentialRow

theorem toIpv4Mapped_eq_some {address : BitVec 128} {mapped : BitVec 32} :
    toIpv4Mapped address = some mapped ↔ address = 0xffff#96 ++ mapped := by
  have front : (0xffff#96 ++ (0 : BitVec 32) : BitVec 128) >>> 32 = 0xffff#128 := by decide
  have recognized : address >>> 32 = 0xffff#128 ↔
      ∃ inner : BitVec 32, address = (0xffff#96 ++ inner : BitVec 128) := by
    rw [← front, IpNet.mapped_shiftRight (Nat.le_refl 32)]
    simp [BitVec.ushiftRight_eq_zero]
  have low (inner : BitVec 32) : (0xffff#96 ++ inner : BitVec 128).truncate 32 = inner := by
    refine BitVec.eq_of_getLsbD_eq (fun index bound => ?_)
    rw [BitVec.getLsbD_setWidth, BitVec.getLsbD_append]
    simp [bound]
  unfold toIpv4Mapped
  split_ifs with embedded
  · obtain ⟨inner, rfl⟩ := recognized.mp embedded
    rw [low]
    constructor
    · intro same
      rw [Option.some.inj same]
    · intro same
      rw [← low inner, ← low mapped, same]
  · constructor
    · intro impossible
      cases impossible
    · intro same
      exact absurd (recognized.mpr ⟨mapped, same⟩) embedded

theorem netMatches_iff (net : IpNet) (ip : IpAddr) :
    netMatches net ip = true ↔ net.ContainsClient ip := by
  unfold netMatches IpNet.ContainsClient
  rw [Bool.or_eq_true]
  refine or_congr_right ?_
  obtain ⟨network | network, prefixLen⟩ := net
  · cases ip with
    | v4 address => simp
    | v6 address =>
        rw [Option.any_eq_true]
        constructor
        · rintro ⟨mapped, known, inside⟩
          exact ⟨mapped, congrArg _ (toIpv4Mapped_eq_some.mp known), inside⟩
        · rintro ⟨mapped, same, inside⟩
          exact ⟨mapped, toIpv4Mapped_eq_some.mpr (IpAddr.v6.inj same), inside⟩
  · cases ip <;> simp [IpNet.contains]

/-! ## The candidates -/

/-- A credential of a network of clients. -/
def IsNet (syn : IpSyntax) (row : CredentialRow) (net : IpNet) : Prop :=
  row.credentialType = .smtpIp ∧ parsedNet syn row.key = some net

/-- The networks that are compared, in the order of their credentials. -/
def candidates (syn : IpSyntax) (credentials : List CredentialRow) : List (IpNet × CredentialRow) :=
  (credentials.filter (·.credentialType == .smtpIp)).filterMap (fun row =>
    (parsedNet syn row.key).map (fun net => (net, row)))

variable {row : CredentialRow}

theorem mem_candidates {syn : IpSyntax} {credentials : List CredentialRow} {net : IpNet} :
    (net, row) ∈ candidates syn credentials ↔ row ∈ credentials ∧ IsNet syn row net := by
  unfold candidates IsNet
  simp only [List.mem_filterMap, List.mem_filter, beq_iff_eq, Option.map_eq_some_iff, Prod.mk.injEq]
  constructor
  · rintro ⟨other, ⟨member, addressed⟩, parsed, known, rfl, rfl⟩
    exact ⟨member, addressed, known⟩
  · rintro ⟨member, addressed, known⟩
    exact ⟨row, ⟨member, addressed⟩, net, known, rfl, rfl⟩

/-- What texts are read as are networks that the library can build. -/
def ReadsValid (syn : IpSyntax) : Prop := ∀ text net, syn.parseNet text = some net → net.Valid

theorem IsNet.valid {syn : IpSyntax} {net : IpNet} (named : IsNet syn row net)
    (valid : ReadsValid syn) : net.Valid := by
  rcases Option.or_eq_some_iff.mp named.2 with parsed | ⟨-, parsed⟩
  · exact valid _ _ parsed
  · obtain ⟨address, -, rfl⟩ := Option.map_eq_some_iff.mp parsed
    cases address <;> exact Nat.le_refl _

/-! ## The innermost network -/

/-- The credential found for a client is that of the innermost network with the client. -/
structure MostSpecific (syn : IpSyntax) (credentials : List CredentialRow) (ip : IpAddr) : Prop where
  none_iff : matchIpCredential syn credentials ip = none ↔
    ∀ row ∈ credentials, ∀ net, IsNet syn row net → ¬ net.ContainsClient ip
  innermost : ∀ row, matchIpCredential syn credentials ip = some row →
    row ∈ credentials ∧ ∃ net, IsNet syn row net ∧ net.ContainsClient ip ∧
      ∀ other ∈ credentials, ∀ outer, IsNet syn other outer → outer.ContainsClient ip →
        net.addresses ⊆ outer.addresses

/-- The IPv6 network at a position comes before all IPv4 networks with the client. -/
def Foremost (syn : IpSyntax) (credentials : List CredentialRow) (ip : IpAddr) (first : Nat)
    (net : IpNet) : Prop :=
  ∀ second outer row address, (candidates syn credentials)[second]? = some (outer, row) →
    outer.address = .v4 address → outer.ContainsClient ip →
    outer.prefixLen < net.prefixLen ∨ (outer.prefixLen = net.prefixLen ∧ first < second)

/-- If an IPv6 network with the client comes before all IPv4 networks with it, then an IPv6 network
with the client is inside all of them. -/
def FamiliesOrdered (syn : IpSyntax) (credentials : List CredentialRow) (ip : IpAddr) : Prop :=
  (∃ first net row address, (candidates syn credentials)[first]? = some (net, row) ∧
      net.address = .v6 address ∧ net.ContainsClient ip ∧ Foremost syn credentials ip first net) →
    ∃ net row address, (net, row) ∈ candidates syn credentials ∧ net.address = .v6 address ∧
      net.ContainsClient ip ∧ ∀ outer other inner, (outer, other) ∈ candidates syn credentials →
        outer.address = .v4 inner → outer.ContainsClient ip → 96 + outer.prefixLen ≤ net.prefixLen

section Search

variable {syn : IpSyntax} {credentials : List CredentialRow} {ip : IpAddr}

theorem matchIpCredential_none_iff :
    matchIpCredential syn credentials ip = none ↔
      ∀ row ∈ credentials, ∀ net, IsNet syn row net → ¬ net.ContainsClient ip := by
  have searched : matchIpCredential syn credentials ip = none ↔
      ∀ candidate ∈ candidates syn credentials, netMatches candidate.1 ip = false := by
    rw [← LongestMatch.none_longest (fun candidate : IpNet × CredentialRow => candidate.1.prefixLen)]
    exact Option.map_eq_none_iff
  rw [searched]
  constructor
  · intro refused row member net named contained
    have matched := (netMatches_iff net ip).mpr contained
    rw [refused (net, row) (mem_candidates.mpr ⟨member, named⟩)] at matched
    cases matched
  · intro refused candidate member
    obtain ⟨known, named⟩ := mem_candidates.mp (show (candidate.1, candidate.2) ∈ _ from member)
    by_contra matched
    exact refused candidate.2 known candidate.1 named
      ((netMatches_iff _ ip).mp (by simpa using matched))

variable {row : CredentialRow}

/-- The credential found comes first among those with the longest prefix. -/
theorem matchIpCredential_some (found : matchIpCredential syn credentials ip = some row) :
    ∃ index net, (candidates syn credentials)[index]? = some (net, row) ∧ net.ContainsClient ip ∧
      ∀ (other : Nat) outer behind, (candidates syn credentials)[other]? = some (outer, behind) →
        outer.ContainsClient ip → outer.prefixLen < net.prefixLen ∨
          (outer.prefixLen = net.prefixLen ∧ index ≤ other) := by
  obtain ⟨⟨net, same⟩, searched, rfl⟩ := Option.map_eq_some_iff.mp found
  obtain ⟨matched, index, placed, longest⟩ := LongestMatch.first_longest
    (fun candidate : IpNet × CredentialRow => candidate.1.prefixLen) _ searched
  refine ⟨index, net, placed, (netMatches_iff net ip).mp matched, ?_⟩
  intro other outer behind second contained
  exact longest other (outer, behind) second ((netMatches_iff outer ip).mpr contained)

/-- Of a network that comes first, the innermost property is a comparison of depths. -/
theorem innermost_iff (valid : ReadsValid syn) {net : IpNet}
    (member : (net, row) ∈ candidates syn credentials) (contained : net.ContainsClient ip) :
    (∀ other ∈ credentials, ∀ outer, IsNet syn other outer → outer.ContainsClient ip →
        net.addresses ⊆ outer.addresses) ↔
      ∀ outer other, (outer, other) ∈ candidates syn credentials → outer.ContainsClient ip →
        outer.depth ≤ net.depth := by
  have named := (mem_candidates.mp member).2
  constructor
  · intro nested outer other included reached
    obtain ⟨known, outerNamed⟩ := mem_candidates.mp included
    exact (IpNet.addresses_subset_iff (named.valid valid) (outerNamed.valid valid)
      contained.mem_addresses reached.mem_addresses).mp (nested other known outer outerNamed reached)
  · intro deeper other known outer outerNamed reached
    exact (IpNet.addresses_subset_iff (named.valid valid) (outerNamed.valid valid)
      contained.mem_addresses reached.mem_addresses).mpr
        (deeper outer other (mem_candidates.mpr ⟨known, outerNamed⟩) reached)

/-- The network that comes first is the deepest exactly when the families are in order. -/
theorem deepest_iff (valid : ReadsValid syn) {net : IpNet} {index : Nat}
    (placed : (candidates syn credentials)[index]? = some (net, row))
    (contained : net.ContainsClient ip) (longest : ∀ (other : Nat) outer behind,
      (candidates syn credentials)[other]? = some (outer, behind) → outer.ContainsClient ip →
        outer.prefixLen < net.prefixLen ∨ (outer.prefixLen = net.prefixLen ∧ index ≤ other)) :
    (∀ outer other, (outer, other) ∈ candidates syn credentials → outer.ContainsClient ip →
        outer.depth ≤ net.depth) ↔ FamiliesOrdered syn credentials ip := by
  have member : (net, row) ∈ candidates syn credentials := List.mem_of_getElem? placed
  have bounded {outer : IpNet} {other : CredentialRow}
      (included : (outer, other) ∈ candidates syn credentials) (reached : outer.ContainsClient ip) :
      outer.prefixLen ≤ net.prefixLen := by
    obtain ⟨position, found⟩ := List.getElem?_of_mem included
    rcases longest position outer other found reached with shorter | ⟨equal, -⟩ <;> omega
  cases family : net.address with
  | v4 address =>
      have depth : net.depth = 96 + net.prefixLen := by
        unfold IpNet.depth
        rw [family]
      constructor
      · rintro - ⟨first, ahead, holder, network, found, -, inside, foremost⟩
        -- the IPv4 network found comes first, so that no IPv6 network comes before it
        have earlier := foremost index net row address placed family contained
        have later := longest first ahead holder found inside
        omega
      · intro _ outer other included reached
        have shorter := bounded included reached
        unfold IpNet.depth at depth ⊢
        split <;> omega
  | v6 address =>
      have depth : net.depth = net.prefixLen := by
        unfold IpNet.depth
        rw [family]
      have foremost : Foremost syn credentials ip index net := by
        intro second outer behind inner found other reached
        rcases longest second outer behind found reached with shorter | ⟨equal, order⟩
        · exact .inl shorter
        refine .inr ⟨equal, lt_of_le_of_ne order ?_⟩
        rintro rfl
        obtain ⟨rfl, rfl⟩ := Prod.mk.inj (Option.some.inj (placed.symm.trans found))
        rw [family] at other
        cases other
      constructor
      · intro deeper _
        refine ⟨net, row, address, member, family, contained, ?_⟩
        intro outer other inner included four reached
        have shallow := deeper outer other included reached
        rw [depth] at shallow
        unfold IpNet.depth at shallow
        rw [four] at shallow
        exact shallow
      · intro ordered outer other included reached
        obtain ⟨deep, holder, network, known, six, inside, covers⟩ :=
          ordered ⟨index, net, row, address, placed, family, contained, foremost⟩
        have within := bounded known inside
        have shorter := bounded included reached
        rw [depth]
        unfold IpNet.depth
        split
        case h_1 inner four =>
          have below := covers outer other inner included four reached
          omega
        case h_2 => exact shorter

end Search

/-- The credential found is that of the innermost network exactly when the networks of the two
families are in order by the prefix lengths they are written with. -/
theorem mostSpecific_iff (syn : IpSyntax) (valid : ReadsValid syn)
    (credentials : List CredentialRow) (ip : IpAddr) :
    MostSpecific syn credentials ip ↔ FamiliesOrdered syn credentials ip := by
  cases found : matchIpCredential syn credentials ip with
  | none =>
      have refused := matchIpCredential_none_iff.mp found
      constructor
      · rintro - ⟨first, net, row, address, placed, -, contained, -⟩
        obtain ⟨member, named⟩ := mem_candidates.mp (List.mem_of_getElem? placed)
        exact absurd contained (refused row member net named)
      · intro _
        refine ⟨matchIpCredential_none_iff, ?_⟩
        intro row impossible
        rw [found] at impossible
        cases impossible
  | some row =>
      obtain ⟨index, net, placed, contained, longest⟩ := matchIpCredential_some found
      have member : (net, row) ∈ candidates syn credentials := List.mem_of_getElem? placed
      obtain ⟨known, named⟩ := mem_candidates.mp member
      rw [← deepest_iff valid placed contained longest, ← innermost_iff valid member contained]
      constructor
      · intro specific other included outer outerNamed reached
        obtain ⟨-, same, sameNamed, -, nested⟩ := specific.innermost row found
        obtain rfl := Option.some.inj (named.2.symm.trans sameNamed.2)
        exact nested other included outer outerNamed reached
      · intro nested
        refine ⟨matchIpCredential_none_iff, ?_⟩
        intro other same
        obtain rfl := Option.some.inj (found.symm.trans same)
        exact ⟨known, net, named, contained, nested⟩

/-- Two networks of one family, as the tests have them, and one of the other. -/
def exampleNets : IpSyntax where
  parseNet := fun text =>
    if text = "1.0.0.0/8" then some ⟨.v4 0x01000000#32, 8⟩
    else if text = "1.2.3.0/24" then some ⟨.v4 0x01020300#32, 24⟩
    else if text = "::ffff:0:0/96" then some ⟨.v6 0xffff00000000#128, 96⟩
    else none
  parseIp := parseIpv4

theorem exampleNets_valid : ReadsValid exampleNets := by
  intro text net parsed
  unfold exampleNets at parsed
  dsimp only at parsed
  split_ifs at parsed <;> obtain rfl := Option.some.inj parsed <;> unfold IpNet.Valid <;> decide

/-- The credential of a network. -/
def netCredential (id : Id) (net : String) : CredentialRow := ⟨⟨id, 1, .smtpIp, net.toList⟩, false⟩

/-- A client in two networks of one family is given the credential of the smaller one. -/
theorem narrow_network_found :
    MostSpecific exampleNets [netCredential 1 "1.0.0.0/8", netCredential 2 "1.2.3.0/24"]
      (.v4 0x01020304#32) := by
  apply (mostSpecific_iff exampleNets exampleNets_valid _ _).mpr
  rintro ⟨first, net, row, address, placed, six, -, -⟩
  have family : (candidates exampleNets [netCredential 1 "1.0.0.0/8", netCredential 2 "1.2.3.0/24"]).all
      (fun candidate => match candidate.1.address with | .v4 _ => true | .v6 _ => false) = true := by
    decide
  have four := List.all_eq_true.mp family _ (List.mem_of_getElem? placed)
  rw [six] at four
  cases four

/-- An IPv4-mapped client in an IPv4 network is given the credential of all mapped clients. -/
theorem wide_network_found :
    ¬ MostSpecific exampleNets [netCredential 1 "1.2.3.0/24", netCredential 2 "::ffff:0:0/96"]
      (.v6 0xffff01020304#128) := by
  intro specific
  let narrow : IpNet := ⟨.v4 0x01020300#32, 24⟩
  let wide : IpNet := ⟨.v6 0xffff00000000#128, 96⟩
  have listed : candidates exampleNets [netCredential 1 "1.2.3.0/24", netCredential 2 "::ffff:0:0/96"] =
      [(narrow, netCredential 1 "1.2.3.0/24"), (wide, netCredential 2 "::ffff:0:0/96")] := by
    decide
  have inNarrow : narrow.ContainsClient (.v6 0xffff01020304#128) :=
    .inr ⟨0x01020304#32, by decide, by decide⟩
  have inWide : wide.ContainsClient (.v6 0xffff01020304#128) := .inl (by decide)
  cases found : matchIpCredential exampleNets
      [netCredential 1 "1.2.3.0/24", netCredential 2 "::ffff:0:0/96"] (.v6 0xffff01020304#128) with
  | none =>
      exact matchIpCredential_none_iff.mp found (netCredential 1 "1.2.3.0/24") (by simp) narrow
        ⟨rfl, by decide⟩ inNarrow
  | some row =>
      obtain ⟨index, net, placed, contained, longest⟩ := matchIpCredential_some found
      have member := List.mem_of_getElem? placed
      have first := longest 1 wide _ rfl inWide
      have chosen : net = wide := by
        match index, placed with
        | 0, placed =>
            obtain ⟨rfl, rfl⟩ := Prod.mk.inj (Option.some.inj placed)
            exact absurd first (by decide)
        | 1, placed => exact (Prod.mk.inj (Option.some.inj placed)).1.symm
      obtain ⟨-, same, named, -, nested⟩ := specific.innermost row found
      obtain rfl := Option.some.inj (named.2.symm.trans (mem_candidates.mp member).2.2)
      have deeper := (innermost_iff exampleNets_valid member contained).mp nested narrow
        (netCredential 1 "1.2.3.0/24") (by rw [listed]; exact List.mem_cons_self) inNarrow
      rw [chosen] at deeper
      exact absurd deeper (by decide)

end CredentialRow

end Camelmailer
