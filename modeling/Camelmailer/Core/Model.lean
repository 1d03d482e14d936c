import Camelmailer.Text.Str

/-!
# The records of the installation

The part of `camelmailer-core`'s domain model that mail intake reads. A record
keeps the fields that a modelled function uses, under the source's names; the
remaining columns do not influence intake.

`Platform` collects what the program takes from other crates and from Unicode
tables: case mapping, IP address syntax, IDNA, Base64, digests and dates. Every
result holds for all such functions, so none of them is fixed here.
-/

namespace Camelmailer

open Utf8

abbrev Id := Nat

/-- A point in time, in nanoseconds since the Unix epoch. -/
abbrev DateTime := Int

def hours (count : Int) : Int := count * 3600 * 1000000000

inductive IpAddr where
  | v4 (address : BitVec 32)
  | v6 (address : BitVec 128)
deriving DecidableEq

structure Organization where
  id : Id
  permalink : Text
deriving DecidableEq

/-- The sending policy an operator sets on an organization. -/
structure OrganizationPolicy where
  monthlySendLimit : Option Int := none
  suspended : Bool := false
  suspensionReason : Option Text := none
deriving DecidableEq

structure Server where
  id : Id
  organizationId : Id
  permalink : Text
  token : Text
  suspended : Bool
  privacyMode : Bool
  /-- Whether the Sender header may authenticate a message in addition to From. -/
  allowSender : Bool
  /-- Outgoing messages in the trailing 30-day window; `none` is unlimited. -/
  sendLimit : Option Int
  /-- The stream of messages that name none. -/
  defaultStreamId : Option Id := none
  /-- The postal address under broadcast mail. -/
  broadcastPhysicalAddress : Option Text := none
deriving DecidableEq

inductive RouteMode where
  | endpoint
  | accept
  | hold
  | bounce
  | reject
deriving DecidableEq

structure Route where
  id : Id
  serverId : Id
  domainId : Option Id
  name : Text
  token : Text
  mode : RouteMode
deriving DecidableEq

/-- A route joined with its server and the name of its domain. -/
structure ResolvedRoute where
  route : Route
  server : Server
  domainName : Text
deriving DecidableEq

inductive CredentialType where
  | smtp
  | api
  | smtpIp
deriving DecidableEq

structure Credential where
  id : Id
  serverId : Id
  credentialType : CredentialType
  key : Text
deriving DecidableEq

/-- What identifies a send that may be repeated. -/
structure IdempotencyRequest where
  keyHash : Text
  requestHash : Text
  operation : Text
  expiresAt : DateTime
deriving DecidableEq

/-- Functions of other crates and of the Unicode tables. -/
structure Platform where
  /-- `str::to_lowercase`, the full Unicode mapping. -/
  toLowercase : Text → Text
  /-- On ASCII texts the mapping is letter by letter. -/
  toLowercase_ascii : ∀ text : Text, (∀ char ∈ text, Ascii char) →
    toLowercase text = Str.toAsciiLowercase text
  /-- `str::parse::<IpAddr>`. -/
  parseIp : Text → Option IpAddr
  /-- `IpAddr::to_string`. -/
  showIp : IpAddr → Text
  /-- `idna::domain_to_ascii`. -/
  domainToAscii : Text → Option Text
  /-- Base64 with the standard alphabet and indifferent padding. -/
  base64Decode : Text → Option Bytes
  base64Encode : Bytes → Text
  /-- HMAC-MD5 of a message under a key of any length. -/
  hmacMd5 : Bytes → Bytes → Bytes
  sha256 : Bytes → Bytes
  /-- `time.format("%a, %d %b %Y %H:%M:%S +0000")`. -/
  rfc2822 : DateTime → Text

/-- Two lowercase hexadecimal digits, as `{byte:02x}` writes them. -/
def hexByte (octet : UInt8) : Text :=
  [Nat.digitChar (octet.toNat / 16), Nat.digitChar (octet.toNat % 16)]

def hex (bytes : Bytes) : Text := bytes.flatMap hexByte

def sha256Hex (platform : Platform) (data : Bytes) : Text := hex (platform.sha256 data)

/-- A number as `{}` writes it. -/
def decimal (value : Int) : Text := (toString value).toList

/-- The digits of a number. -/
theorem isDigit_decimal {char : Char} {number : Nat} (member : char ∈ decimal number) :
    char.isDigit = true := by
  have digits : decimal number = Nat.toDigits 10 number := Nat.toList_repr
  rw [digits] at member
  exact Nat.isDigit_of_mem_toDigits (by decide) (by decide) member

theorem decimal_injective {first second : Nat} (same : decimal first = decimal second) :
    first = second := by
  have digits (number : Nat) : decimal number = Nat.toDigits 10 number := Nat.toList_repr
  rw [digits, digits] at same
  rw [← Nat.ofDigitChars_ten_toDigits (n := first), same, Nat.ofDigitChars_ten_toDigits]

/-- `normalize_dns_domain_name`: the canonical form of a DNS name, or none for a
name that cannot be one. -/
def normalizeDnsDomainName (platform : Platform) (value : Text) : Option Text := do
  let domain := (Str.trim value).rdropWhile (· == '.')
  let ascii ← platform.domainToAscii domain
  let domain := Str.toAsciiLowercase ascii
  let labels := domain.splitOn '.'
  let letterOrDigit (char : Char) : Bool := char.isAlphanum
  if labels.length < 2 || Str.byteLen domain > 253 || labels.any (fun label =>
      label == [] || Str.byteLen label > 63 ||
      !label.all (fun char => letterOrDigit char || char == '-') ||
      !label.head?.any letterOrDigit || !label.getLast?.any letterOrDigit) then
    none
  else some domain

/-! ## A platform for concrete runs

On ASCII texts and IPv4 addresses the functions below agree with those of the crates.
Digests and dates stand for any; the concrete runs do not depend on them. -/

/-- The value of a Base64 digit. -/
def sextet (char : Char) : Option Nat :=
  if 'A' ≤ char ∧ char ≤ 'Z' then some (char.toNat - 65)
  else if 'a' ≤ char ∧ char ≤ 'z' then some (char.toNat - 71)
  else if '0' ≤ char ∧ char ≤ '9' then some (char.toNat + 4)
  else if char = '+' then some 62
  else if char = '/' then some 63
  else none

/-- The octets of a sequence of Base64 digits. -/
def sextetOctets : List Nat → Option Bytes
  | [] => some []
  | [_] => none
  | [a, b] => some [UInt8.ofNat (a * 4 + b / 16)]
  | [a, b, c] => some [UInt8.ofNat (a * 4 + b / 16), UInt8.ofNat (b * 16 + c / 4)]
  | a :: b :: c :: d :: rest => (sextetOctets rest).map ([UInt8.ofNat (a * 4 + b / 16),
      UInt8.ofNat (b * 16 + c / 4), UInt8.ofNat (c * 64 + d)] ++ ·)

/-- A decimal number below 256. -/
def parseOctet (text : Text) : Option Nat :=
  if 0 < text.length ∧ text.length ≤ 3 ∧ text.all Char.isDigit then
    let value := text.foldl (fun value digit => 10 * value + (digit.toNat - 48)) 0
    if value < 256 then some value else none
  else none

def parseIpv4 (text : Text) : Option IpAddr :=
  match (text.splitOn '.').mapM parseOctet with
  | some [a, b, c, d] => some (.v4 (BitVec.ofNat 32 (((a * 256 + b) * 256 + c) * 256 + d)))
  | _ => none

def showIpv4 : IpAddr → Text
  | .v4 address =>
      let value := address.toNat
      decimal (value / 16777216) ++ ['.'] ++ decimal (value / 65536 % 256) ++ ['.'] ++
        decimal (value / 256 % 256) ++ ['.'] ++ decimal (value % 256)
  | .v6 _ => []

def Platform.ascii : Platform where
  toLowercase := Str.toAsciiLowercase
  toLowercase_ascii := fun _ _ => rfl
  parseIp := parseIpv4
  showIp := showIpv4
  domainToAscii := fun text => some (Str.toAsciiLowercase text)
  base64Decode := fun text => ((text.filter (· != '=')).mapM sextet).bind sextetOctets
  base64Encode := fun _ => []
  hmacMd5 := fun _ _ => []
  sha256 := fun _ => []
  rfc2822 := fun _ => "Thu, 01 Jan 1970 00:00:00 +0000"

end Camelmailer
