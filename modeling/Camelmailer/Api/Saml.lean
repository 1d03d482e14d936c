import Camelmailer.Api.XmlDsig

/-!
# SAML responses

`saml.rs::validate_response`: what a service provider accepts from an identity provider and
what it reads from it. The steps stand in the source's order, each with its message; the
parser, the dates and the signatures are those of other crates.
-/

namespace Camelmailer.Saml

open Utf8 Xml

def nsProtocol : Text := "urn:oasis:names:tc:SAML:2.0:protocol"

def nsAssertion : Text := "urn:oasis:names:tc:SAML:2.0:assertion"

def statusSuccess : Text := "urn:oasis:names:tc:SAML:2.0:status:Success"

def methodBearer : Text := "urn:oasis:names:tc:SAML:2.0:cm:bearer"

def seconds (count : Int) : Int := count * 1000000000

/-- `CLOCK_SKEW_SECONDS`, the tolerated difference between the two clocks. -/
def clockSkew : Int := seconds 90

structure ValidatedAssertion where
  assertionId : Text
  inResponseTo : Text
  nameId : Option Text
  nameIdFormat : Option Text
  attributes : List (Text × Text)
  notOnOrAfter : DateTime
deriving DecidableEq

/-- What the validation takes from other crates and from Unicode tables. -/
structure Crates (Key : Type) extends Crypto Key where
  /-- `Document::parse`, or the text of the error. -/
  parse : Text → Except Text Document
  /-- `DateTime::parse_from_rfc3339`. -/
  parseFromRfc3339 : Text → Option DateTime
  toLowercase : Text → Text

variable {Key : Type} (crates : Crates Key)

def parseInstant (value : Text) : Except Text DateTime :=
  okOr (crates.parseFromRfc3339 value)
    ("invalid timestamp " ++ crates.debug value ++ " in the assertion")

/-- The child elements with a local name, in whatever namespace. -/
def childrenNamed (parent : Element) (name : Text) : List Element :=
  (elements parent.children).filter (fun child => child.tag.name = name)

/-! ## The response -/

/-- The request that a response answers, once the response is one and is addressed to us. -/
def responseRequest (response : Element) (acs : Text) : Except Text Text := do
  ensure (response.named nsProtocol "Response" = true)
    "the document is not a SAML response"
  ensure (∀ destination ∈ response.attr "Destination", destination = acs)
    "the response Destination does not match our ACS URL"
  okOr ((response.attr "InResponseTo").filter (fun value => value ≠ []))
    "the response carries no InResponseTo (IdP-initiated logins are not supported)"

def checkStatus (response : Element) : Except Text Unit :=
  let status := (((response.findChild nsProtocol "Status").bind
    (·.findChild nsProtocol "StatusCode")).bind (·.attr "Value")).getD []
  ensure (status = statusSuccess)
    ("the identity provider reported a non-success status " ++ crates.debug status)

/-- The assertions of a document, wherever they are. -/
def assertions (document : Document) : List Element :=
  document.root.descendants.filter (·.named nsAssertion "Assertion")

/-- The one assertion of a document, of the version that is supported. -/
def soleAssertion (document : Document) : Except Text Element := do
  ensure (∀ node ∈ document.root.descendants,
      node.named nsAssertion "EncryptedAssertion" = false)
    "encrypted assertions are not supported"
  let assertion ← okOr (sole (assertions document))
    "the response must contain exactly one assertion"
  ensure (assertion.attr "Version" = some "2.0".toList)
    "only SAML 2.0 assertions are supported"
  return assertion

/-- The signature of the assertion, or else of the response around it. -/
def checkSignature (document : Document) (assertion : Element) (publicKey : Key) :
    Except Text Unit :=
  if (directSignature assertion).isSome then
    (verifyEnvelopedSignature crates.toCrypto document assertion publicKey).mapError
      ("assertion signature invalid: " ++ ·)
  else if (directSignature document.root).isSome then
    (verifyEnvelopedSignature crates.toCrypto document document.root publicKey).mapError
      ("response signature invalid: " ++ ·)
  else .error "the response is not signed — unsigned assertions are rejected"

/-! ## The assertion -/

/-- The audiences of the conditions. -/
def audiences (conditions : Element) : List Text :=
  (((childrenNamed conditions "AudienceRestriction").flatMap
    (childrenNamed · "Audience")).filterMap (·.text)).map Str.trim

/-- The start of the validity, where the conditions give one. -/
def checkNotBefore (conditions : Element) (now : DateTime) : Except Text Unit :=
  match conditions.attr "NotBefore" with
  | some value => do
      let notBefore ← parseInstant crates value
      ensure (notBefore ≤ now + clockSkew) "the assertion is not yet valid (NotBefore)"
  | none => .ok ()

/-- The conditions hold: the instant after which the assertion is not valid. -/
def checkConditions (assertion : Element) (spEntityId : Text) (now : DateTime) :
    Except Text DateTime := do
  let conditions ← okOr (assertion.findChild nsAssertion "Conditions")
    "the assertion has no Conditions"
  checkNotBefore crates conditions now
  let written ← okOr (conditions.attr "NotOnOrAfter")
    "the assertion Conditions carry no NotOnOrAfter"
  let notOnOrAfter ← parseInstant crates written
  ensure (now - clockSkew < notOnOrAfter) "the assertion has expired (NotOnOrAfter)"
  ensure (audiences conditions ≠ []) "the assertion carries no AudienceRestriction"
  ensure (spEntityId ∈ audiences conditions)
    "the assertion audience does not include this service provider"
  return notOnOrAfter

/-- The data of the first bearer confirmation that has any. -/
def bearerConfirmation (subject : Element) : Option Element :=
  ((childrenNamed subject "SubjectConfirmation").filter (fun confirmation =>
    confirmation.attr "Method" = some methodBearer)).findSome?
      (·.findChild nsAssertion "SubjectConfirmationData")

/-- The end of the confirmation, where it has one. -/
def checkConfirmationExpiry (bearer : Element) (now : DateTime) : Except Text Unit :=
  match bearer.attr "NotOnOrAfter" with
  | some value => do
      let expiry ← parseInstant crates value
      ensure (now - clockSkew < expiry) "the subject confirmation has expired"
  | none => .ok ()

def checkBearer (bearer : Element) (acs inResponseTo : Text) (now : DateTime) :
    Except Text Unit := do
  checkConfirmationExpiry crates bearer now
  ensure (∀ recipient ∈ bearer.attr "Recipient", recipient = acs)
    "the subject confirmation Recipient does not match our ACS URL"
  ensure (∀ confirmed ∈ bearer.attr "InResponseTo", confirmed = inResponseTo)
    "the subject confirmation InResponseTo does not match the response"

/-- The name that a subject is identified by. -/
def nameIdValue (nameId : Option Element) : Option Text :=
  ((nameId.bind (·.text)).map Str.trim).filter (fun value => value ≠ [])

/-- The value of an attribute: the first of its values that starts with text. -/
def attributeValue (attr : Element) : Text :=
  Str.trim (((childrenNamed attr "AttributeValue").findSome? (·.text)).getD [])

/-- What an attribute is found under: its name and its friendly name. -/
def attributeEntries (attr : Element) : List (Text × Text) :=
  ((attr.attr "Name").map (fun name =>
      (crates.toLowercase name, attributeValue attr))).toList ++
    ((attr.attr "FriendlyName").map (fun friendly =>
      (crates.toLowercase friendly, attributeValue attr))).toList

def readAttributes (assertion : Element) : List (Text × Text) :=
  ((assertion.findChild nsAssertion "AttributeStatement").toList.flatMap
    (childrenNamed · "Attribute")).flatMap (attributeEntries crates)

/-! ## Validation -/

/-- `validate_response`, for a parsed document. -/
def validateDocument (document : Document) (publicKey : Key) (spEntityId acs : Text)
    (now : DateTime) : Except Text ValidatedAssertion := do
  let inResponseTo ← responseRequest document.root acs
  checkStatus crates document.root
  let assertion ← soleAssertion document
  checkSignature crates document assertion publicKey
  let assertionId ← okOr ((assertion.attr "ID").filter (fun value => value ≠ []))
    "the assertion has no ID"
  let notOnOrAfter ← checkConditions crates assertion spEntityId now
  let subject ← okOr (assertion.findChild nsAssertion "Subject")
    "the assertion has no Subject"
  let nameId := subject.findChild nsAssertion "NameID"
  let bearer ← okOr (bearerConfirmation subject)
    "the assertion has no bearer SubjectConfirmation"
  checkBearer crates bearer acs inResponseTo now
  return {
    assertionId
    inResponseTo
    nameId := nameIdValue nameId
    nameIdFormat := nameId.bind (·.attr "Format")
    attributes := readAttributes crates assertion
    notOnOrAfter }

def validateResponse (xml : Text) (publicKey : Key) (spEntityId acs : Text) (now : DateTime) :
    Except Text ValidatedAssertion := do
  let document ← (crates.parse xml).mapError ("invalid response XML: " ++ ·)
  validateDocument crates document publicKey spEntityId acs now

end Camelmailer.Saml
