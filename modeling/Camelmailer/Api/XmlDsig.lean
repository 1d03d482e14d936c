import Camelmailer.Core.Model
import Camelmailer.Text.Markup
import Mathlib.Data.Char
import Mathlib.Data.List.Lex
import Mathlib.Data.List.Sort

/-!
# XML signatures

`xmldsig.rs`: the enveloped signature of an element, checked against the canonical form of the
element without it. The tree is the one `roxmltree` gives: comments are nodes, an element knows
the namespaces in scope, and the text of an element is its first child when that is text. What
every parsed document meets, by the rules of XML and of its namespaces, is a field of
`Document`.

A node is found again by its place. `NodeId` is the place below the element that is written,
the index in its parent first; the code names one node in that way, a direct child.
-/

namespace Camelmailer.Xml

open Utf8 Markup

/-! ## The tree -/

structure Attribute where
  /-- The namespace of a prefixed attribute. -/
  namespaceUri : Option Text
  name : Text
  value : Text
deriving DecidableEq

/-- What the start tag of an element says. -/
structure Tag where
  /-- The prefix of the name as it is written. -/
  nsPrefix : Option Text
  name : Text
  /-- The namespaces in scope, `Node::namespaces`. -/
  namespaces : List (Option Text × Text)
  attributes : List Attribute
deriving DecidableEq

inductive Node where
  | element (tag : Tag) (children : List Node)
  | text (value : Text)
  | comment (value : Text)
  | pi (target : Text) (value : Option Text)

/-- A node that is an element. -/
structure Element where
  tag : Tag
  children : List Node

def xmlNamespace : Text := "http://www.w3.org/XML/1998/namespace"

/-- `Node::is_element`, with the element. -/
def Node.element? : Node → Option Element
  | .element tag children => some ⟨tag, children⟩
  | _ => none

/-- The children that are elements. -/
def elements (nodes : List Node) : List Element := nodes.filterMap Node.element?

mutual

/-- The elements among the descendants of a node, `Node::descendants`, itself included. -/
def Node.descendants : Node → List Element
  | .element tag children => ⟨tag, children⟩ :: descendantsOf children
  | _ => []

def descendantsOf : List Node → List Element
  | [] => []
  | node :: nodes => node.descendants ++ descendantsOf nodes

end

namespace Tag

def lookupNamespaceUri (tag : Tag) (nsPrefix : Option Text) : Option Text :=
  (tag.namespaces.find? (fun declared => declared.1 = nsPrefix)).map (·.2)

/-- `Node::lookup_prefix`: the prefix of the first namespace with the name, none for the
default one. -/
def lookupPrefix (tag : Tag) (uri : Text) : Option Text :=
  if uri = xmlNamespace then some "xml".toList
  else (tag.namespaces.find? (fun declared => declared.2 = uri)).bind (·.1)

/-- `tag_name().namespace()`. -/
def namespaceUri (tag : Tag) : Option Text :=
  if tag.nsPrefix = some "xml".toList then some xmlNamespace
  else tag.lookupNamespaceUri tag.nsPrefix

end Tag

namespace Element

def descendants (element : Element) : List Element :=
  element :: descendantsOf element.children

/-- `tag_name()` compared with an expanded name. -/
def named (element : Element) (uri name : Text) : Bool :=
  element.tag.namespaceUri = some uri && element.tag.name = name

/-- `Node::attribute` for a name without a namespace. -/
def attr (element : Element) (name : Text) : Option Text :=
  (element.tag.attributes.find?
    (fun attr => attr.namespaceUri = none && attr.name = name)).map (·.value)

/-- `Node::text`: the first child, when it is text. -/
def text (element : Element) : Option Text :=
  match element.children with
  | .text value :: _ => some value
  | _ => none

/-- The first child element with an expanded name. -/
def findChild (parent : Element) (uri name : Text) : Option Element :=
  (elements parent.children).find? (·.named uri name)

end Element

/-! ## Documents -/

/-- A name without a colon. -/
def IsNcName (name : Text) : Prop := IsName name ∧ ':' ∉ name

instance (name : Text) : Decidable (IsNcName name) := inferInstanceAs (Decidable (_ ∧ _))

/-- A declared prefix: `xmlns` cannot be declared and `xml` is in scope without a
declaration, and neither is bound to the empty name. -/
def PrefixWellFormed (declared : Option Text × Text) : Prop :=
  ∀ nsPrefix ∈ declared.1, IsNcName nsPrefix ∧ nsPrefix ≠ "xml" ∧
    nsPrefix ≠ "xmlns" ∧ declared.2 ≠ []

instance (declared : Option Text × Text) : Decidable (PrefixWellFormed declared) :=
  inferInstanceAs (Decidable (∀ nsPrefix ∈ declared.1, _))

/-- An attribute that declares no namespace. The namespace of a prefixed one is in scope. -/
def Attribute.WellFormed (namespaces : List (Option Text × Text)) (attr : Attribute) : Prop :=
  IsNcName attr.name ∧
    (attr.namespaceUri = none → attr.name ≠ "xmlns") ∧
    ∀ uri ∈ attr.namespaceUri, uri ≠ [] ∧
      (uri = xmlNamespace ∨ ∃ declared ∈ namespaces, declared.1.isSome ∧ declared.2 = uri)

instance (namespaces : List (Option Text × Text)) (attr : Attribute) :
    Decidable (attr.WellFormed namespaces) :=
  inferInstanceAs (Decidable (_ ∧ _ ∧ ∀ uri ∈ attr.namespaceUri, _))

/-- The rules of names and namespaces: the prefix of an element is in scope, and no two
attributes of an element have the same expanded name. -/
structure Tag.WellFormed (tag : Tag) : Prop where
  name : IsNcName tag.name
  nsPrefix : ∀ given ∈ tag.nsPrefix, given = "xml" ∨
    ∃ declared ∈ tag.namespaces, declared.1 = some given
  namespaces : ∀ declared ∈ tag.namespaces, PrefixWellFormed declared
  attributes : ∀ attr ∈ tag.attributes, attr.WellFormed tag.namespaces
  distinct : (tag.attributes.map (fun attr =>
    (attr.namespaceUri, attr.name))).Nodup

instance (tag : Tag) : Decidable tag.WellFormed :=
  decidable_of_iff
    (IsNcName tag.name ∧
      (∀ given ∈ tag.nsPrefix, given = "xml" ∨
        ∃ declared ∈ tag.namespaces, declared.1 = some given) ∧
      (∀ declared ∈ tag.namespaces, PrefixWellFormed declared) ∧
      (∀ attr ∈ tag.attributes, attr.WellFormed tag.namespaces) ∧
      (tag.attributes.map (fun attr => (attr.namespaceUri, attr.name))).Nodup)
    ⟨fun ⟨name, nsPrefix, namespaces, attributes, distinct⟩ =>
        ⟨name, nsPrefix, namespaces, attributes, distinct⟩,
      fun ⟨name, nsPrefix, namespaces, attributes, distinct⟩ =>
        ⟨name, nsPrefix, namespaces, attributes, distinct⟩⟩

/-- A processing instruction ends at its first end mark. -/
def Node.InstructionWellFormed : Node → Prop
  | .pi target value => IsName target ∧ ∀ text ∈ value, ¬ instructionEnd <:+: text
  | _ => True

instance : (node : Node) → Decidable node.InstructionWellFormed
  | .pi _ value => inferInstanceAs (Decidable (_ ∧ ∀ text ∈ value, _))
  | .element .. | .text .. | .comment .. => inferInstanceAs (Decidable True)

def Element.WellFormed (element : Element) : Prop :=
  element.tag.WellFormed ∧ ∀ node ∈ element.children, node.InstructionWellFormed

instance (element : Element) : Decidable element.WellFormed :=
  inferInstanceAs (Decidable (_ ∧ _))

/-- A parsed document, by its root element. What stands before and after the root is no
element and holds none. -/
structure Document where
  root : Element
  wellFormed : ∀ element ∈ root.descendants, element.WellFormed

/-! ## Canonicalization -/

/-- The namespaces that are written already, `RenderedNs`. -/
abbrev RenderedNs := Option Text → Option Text

/-- The place of a node below the element that is written. -/
abbrev NodeId := List Nat

def escapeText (text : Text) : Text := escape textReferences text

def escapeAttribute (value : Text) : Text := escape valueReferences value

/-- `element_qname`: the name as it is written in the document. -/
def Tag.qname (tag : Tag) : Text :=
  match tag.nsPrefix with
  | some nsPrefix => nsPrefix ++ ':' :: tag.name
  | none => tag.name

/-- The prefix of a written name: the part before its first colon. -/
def qnamePrefix (qname : Text) : Option Text :=
  if ':' ∈ qname then some (qname.takeWhile (· != ':')) else none

/-- The closure `consider`: declare a prefix unless it is in force already. -/
def Tag.consider (tag : Tag) (state : RenderedNs × List (Text × Text)) (nsPrefix : Option Text) :
    RenderedNs × List (Text × Text) :=
  let (scope, declarations) := state
  if nsPrefix = some "xml".toList ∨ nsPrefix = some "xmlns".toList then state
  else
    let uri := (tag.lookupNamespaceUri nsPrefix).getD []
    if nsPrefix = none ∧ uri = [] then
      -- An element in no namespace takes back an inherited default.
      if (scope none).getD [] ≠ [] then
        (Function.update scope none (some []), declarations ++ [([], [])])
      else state
    else if uri = [] then state
    else if scope nsPrefix ≠ some uri then
      (Function.update scope nsPrefix (some uri), declarations ++ [(nsPrefix.getD [], uri)])
    else state

/-- The prefixes that the attributes of a tag are written with. -/
def Tag.attributePrefixes (tag : Tag) : List (Option Text) :=
  tag.attributes.filterMap (fun attr =>
    (attr.namespaceUri.bind tag.lookupPrefix).map some)

/-- The namespaces in force inside an element and the declarations that put them in force. -/
def Tag.declare (tag : Tag) (inclusive : List Text) (rendered : RenderedNs) :
    RenderedNs × List (Text × Text) :=
  let state := tag.consider (rendered, []) (qnamePrefix tag.qname)
  let state := tag.attributePrefixes.foldl tag.consider state
  (inclusive.map some).foldl tag.consider state

/-- The name an attribute is written with. -/
def Tag.attributeName (tag : Tag) (attr : Attribute) : Text :=
  match attr.namespaceUri with
  | some uri =>
      if uri = xmlNamespace then "xml:" ++ attr.name
      else match tag.lookupPrefix uri with
        | some nsPrefix => nsPrefix ++ ':' :: attr.name
        | none => attr.name
  | none => attr.name

/-- The order of pairs of texts. -/
def pairLe (left right : Text × Text) : Prop :=
  left.1 < right.1 ∨ left.1 = right.1 ∧ left.2 ≤ right.2

instance : DecidableRel pairLe := fun left right =>
  inferInstanceAs (Decidable (left.1 < right.1 ∨ left.1 = right.1 ∧ left.2 ≤ right.2))

/-- The order of attributes: by namespace, then by local name. -/
def attributeLe (left right : Attribute) : Prop :=
  pairLe (left.namespaceUri.getD [], left.name) (right.namespaceUri.getD [], right.name)

instance : DecidableRel attributeLe := fun left right =>
  inferInstanceAs (Decidable (pairLe (left.namespaceUri.getD [], left.name)
    (right.namespaceUri.getD [], right.name)))

/-- A declaration as an item of the start tag. -/
def declarationItem (declaration : Text × Text) : Text × Text :=
  (if declaration.1 = [] then "xmlns" else "xmlns:" ++ declaration.1, declaration.2)

/-- What a start tag lists: the declarations in their order, then the attributes in theirs. -/
def Tag.items (tag : Tag) (inclusive : List Text) (rendered : RenderedNs) : List (Text × Text) :=
  ((tag.declare inclusive rendered).2.insertionSort pairLe).map declarationItem ++
    (tag.attributes.insertionSort attributeLe).map (fun attr =>
      (tag.attributeName attr, attr.value))

mutual

def writeNode (exclude : Option NodeId) (inclusive : List Text) (rendered : RenderedNs)
    (id : NodeId) (node : Node) : Text :=
  if some id = exclude then []
  else match node with
    | .text value => escapeText value
    | .pi target value => writeInstruction target value
    | .comment _ => []
    | .element tag children =>
        startTag tag.qname (tag.items inclusive rendered) ++
          (writeNodes exclude inclusive (tag.declare inclusive rendered).1 id 0 children ++
            endTag tag.qname)

def writeNodes (exclude : Option NodeId) (inclusive : List Text) (scope : RenderedNs)
    (parent : NodeId) (index : Nat) : List Node → Text
  | [] => []
  | node :: nodes =>
      writeNode exclude inclusive scope (index :: parent) node ++
        writeNodes exclude inclusive scope parent (index + 1) nodes

end

def canonicalize (element : Element) (exclude : Option NodeId) (inclusive : List Text) : Text :=
  writeNode exclude inclusive (fun _ => none) [] (.element element.tag element.children)

/-! ## Signatures -/

def nsDsig : Text := "http://www.w3.org/2000/09/xmldsig#"

def algExcC14n : Text := "http://www.w3.org/2001/10/xml-exc-c14n#"

def algRsaSha256 : Text := "http://www.w3.org/2001/04/xmldsig-more#rsa-sha256"

def algSha256 : Text := "http://www.w3.org/2001/04/xmlenc#sha256"

def algEnveloped : Text := "http://www.w3.org/2000/09/xmldsig#enveloped-signature"

/-- What the verification takes from other crates: Base64, the digest and RSA. -/
structure Crypto (Key : Type) where
  /-- Base64 with the standard alphabet and padding, or the text of the error. -/
  decodeStandard : Text → Except Text Bytes
  sha256 : Bytes → Bytes
  /-- `Signature::try_from`, or the text of the error. -/
  signatureFrom : Bytes → Except Text Bytes
  /-- `VerifyingKey::verify` of a message and a signature. -/
  verify : Key → Bytes → Bytes → Bool
  /-- A text as `{:?}` writes it. -/
  debug : Text → Text

def okOr {α : Type} (value : Option α) (message : Text) : Except Text α :=
  value.elim (.error message) .ok

/-- Go on if a condition holds, and fail with a message otherwise. -/
def ensure (condition : Prop) [Decidable condition] (message : Text) : Except Text Unit :=
  if condition then .ok () else .error message

/-- Whether an element is a signature. -/
def Element.isSignature (element : Element) : Bool := element.named nsDsig "Signature"

def directSignature (element : Element) : Option Element :=
  (elements element.children).find? (·.isSignature)

/-- The place of the direct signature. -/
def signatureId (element : Element) : Option NodeId :=
  (element.children.findIdx? (fun child => child.element?.any (·.isSignature))).map ([·])

def dsChild (parent : Element) (name : Text) : Except Text Element :=
  okOr (parent.findChild nsDsig name)
    ("the signature is missing its " ++ name ++ " element")

def splitWhitespace (text : Text) : List Text :=
  (text.splitOnP Str.isWhitespace).filter (fun part => part ≠ [])

def inclusivePrefixes (node : Element) : List Text :=
  (((elements node.children).filter (fun child =>
    child.tag.name = "InclusiveNamespaces".toList)).filterMap
      (·.attr "PrefixList".toList)).flatMap splitWhitespace

/-- The references of a signature. -/
def references (signedInfo : Element) : List Element :=
  (elements signedInfo.children).filter (·.named nsDsig "Reference")

/-- The only element of a list. -/
def sole {α : Type} : List α → Option α
  | [element] => some element
  | _ => none

/-- The transforms of a reference: whether the enveloped signature is left out, and the
prefixes that are declared whether they are used or not. -/
def readTransforms {Key : Type} (crypto : Crypto Key) (transforms : Element) :
    Except Text (Bool × List Text) :=
  ((elements transforms.children).filter (fun child => child.tag.name = "Transform".toList)).foldlM
    (fun (sawEnveloped, prefixes) transform =>
      let algorithm := (transform.attr "Algorithm".toList).getD []
      if algorithm = algEnveloped then .ok (true, prefixes)
      else if algorithm = algExcC14n then .ok (sawEnveloped, prefixes ++ inclusivePrefixes transform)
      else .error ("unsupported transform ".toList ++ crypto.debug algorithm))
    (false, [])

section Verification

variable {Key : Type} (crypto : Crypto Key)

def decodeBase64 (value : Text) : Except Text Bytes :=
  (crypto.decodeStandard (value.filter (fun char => !Str.isWhitespace char))).mapError
    ("invalid base64: " ++ ·)

/-- The octets that an element holds in Base64, none when it holds no text. -/
def decodeText (element : Element) : Except Text Bytes :=
  (element.text.map (decodeBase64 crypto)).getD (.ok [])

/-- An element names the one algorithm that is accepted in its place. -/
def requireAlgorithm (element : Element) (algorithm kind accepted : Text) : Except Text Unit :=
  ensure (element.attr "Algorithm" = some algorithm)
    ("unsupported " ++ kind ++ [' '] ++
      crypto.debug ((element.attr "Algorithm").getD []) ++ " (only " ++ accepted ++
      " is accepted)")

def verifyEnvelopedSignature (document : Document) (element : Element) (publicKey : Key) :
    Except Text Unit := do
  let signature ← okOr (directSignature element)
    "the element does not carry an XML signature".toList
  let signedInfo ← dsChild signature "SignedInfo".toList
  let c14n ← dsChild signedInfo "CanonicalizationMethod".toList
  requireAlgorithm crypto c14n algExcC14n "canonicalization".toList "exclusive C14N".toList
  let method ← dsChild signedInfo "SignatureMethod".toList
  requireAlgorithm crypto method algRsaSha256 "signature algorithm".toList "rsa-sha256".toList
  let reference ← okOr (sole (references signedInfo))
    "the signature must contain exactly one Reference".toList
  let id ← okOr (Str.stripPrefix ['#'] ((reference.attr "URI".toList).getD []))
    "only same-document references are supported".toList
  ensure (element.attr "ID".toList = some id) "the signature does not cover this element".toList
  -- A referenced name must identify one element in the whole document.
  let occurrences := document.root.descendants.countP (fun node => node.attr "ID".toList = some id)
  ensure (occurrences = 1) "the referenced ID is not unique within the document".toList
  let transforms ← dsChild reference "Transforms".toList
  let read ← readTransforms crypto transforms
  ensure (read.1 = true)
    "the reference must use the enveloped-signature transform".toList
  let digestMethod ← dsChild reference "DigestMethod".toList
  requireAlgorithm crypto digestMethod algSha256 "digest algorithm".toList "sha256".toList
  let digestValue ← decodeText crypto (← dsChild reference "DigestValue".toList)
  let canonical := canonicalize element (signatureId element) read.2
  ensure (crypto.sha256 (encode canonical) = digestValue)
    "digest mismatch: the signed content was modified".toList
  let signatureValue ← decodeText crypto (← dsChild signature "SignatureValue".toList)
  let signedInfoCanonical := canonicalize signedInfo none (inclusivePrefixes c14n)
  let bytes ← (crypto.signatureFrom signatureValue).mapError
    ("malformed signature value: ".toList ++ ·)
  ensure (crypto.verify publicKey (encode signedInfoCanonical) bytes = true)
    "signature verification failed".toList

/-- The canonical form that the digest of an enveloped signature is compared with. -/
def signedForm (element : Element) : Except Text Text := do
  let signature ← okOr (directSignature element)
    "the element does not carry an XML signature".toList
  let signedInfo ← dsChild signature "SignedInfo".toList
  let reference ← okOr (sole (references signedInfo))
    "the signature must contain exactly one Reference".toList
  let transforms ← dsChild reference "Transforms".toList
  let read ← readTransforms crypto transforms
  return canonicalize element (signatureId element) read.2

end Verification

/-! ## Results of checks -/

section Checks

variable {α β : Type}

theorem bind_eq_ok {first : Except Text α} {next : α → Except Text β} {result : β} :
    (first >>= next) = .ok result ↔ ∃ value, first = .ok value ∧ next value = .ok result := by
  cases first with
  | error fault => simp [bind, Except.bind]
  | ok value => simp [bind, Except.bind]

theorem okOr_eq_ok {value : Option α} {message : Text} {result : α} :
    okOr value message = .ok result ↔ value = some result := by
  cases value with
  | none => simp [okOr]
  | some held => simp [okOr]

theorem ensure_eq_ok {condition : Prop} [Decidable condition] {message : Text} {result : Unit} :
    ensure condition message = .ok result ↔ condition := by
  unfold ensure
  split
  case isTrue holds => exact ⟨fun _ => holds, fun _ => rfl⟩
  case isFalse fails =>
    constructor
    · intro passed
      cases passed
    · intro holds
      exact absurd holds fails

theorem mapError_eq_ok {first : Except Text α} {change : Text → Text} {result : α} :
    first.mapError change = .ok result ↔ first = .ok result := by
  cases first with
  | error fault => simp [Except.mapError]
  | ok value => simp [Except.mapError]

/-- A verified element carries a signature, and its digest is that of the signed form. -/
theorem verifyEnvelopedSignature_form {Key : Type} {crypto : Crypto Key} {document : Document}
    {element : Element} {publicKey : Key}
    (verified : verifyEnvelopedSignature crypto document element publicKey = .ok ()) :
    (directSignature element).isSome ∧
      ∃ prefixes, signedForm crypto element =
        .ok (canonicalize element (signatureId element) prefixes) := by
  simp only [verifyEnvelopedSignature, bind_eq_ok, okOr_eq_ok] at verified
  obtain ⟨signature, signed, signedInfo, info, c14n, -, -, -, method, -, -, -, reference, single,
    id, -, -, -, -, -, transforms, listed, read, transformed, -⟩ := verified
  refine ⟨by rw [signed]; rfl, read.2, ?_⟩
  simp only [signedForm, bind_eq_ok, okOr_eq_ok]
  exact ⟨signature, signed, signedInfo, info, reference, single, transforms, listed, read,
    transformed, rfl⟩

end Checks

end Camelmailer.Xml
