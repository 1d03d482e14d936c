import Camelmailer.Api.Saml
import Camelmailer.Api.CanonicalForm

/-!
# What is read is what was signed

Two accepted documents with the same canonical form of the verified element give the same
assertion, under conditions that the code does not check. The canonical form joins the text
around a comment where the readers take the first text node; it leaves out the enveloped
signature where the assertion is looked for in the whole document; it says nothing about the
response around a signed assertion, from which the request is read; and it writes a prefixed
attribute without its prefix when its namespace is also the default one.
-/

namespace Camelmailer.Saml

open Utf8 Markup Xml

section Validation

variable {Key : Type} {crates : Crates Key}

/-! ## Accepted documents -/

/-- What acceptance says about a document. -/
structure Accepted (crates : Crates Key) (document : Document) (publicKey : Key)
    (spEntityId acs : Text) (now : DateTime) (read : ValidatedAssertion)
    (assertion conditions subject bearer : Element) : Prop where
  response : document.root.named nsProtocol "Response" = true
  request : document.root.attr "InResponseTo" = some read.inResponseTo
  single : assertions document = [assertion]
  signature : checkSignature crates document assertion publicKey = .ok ()
  assertionId : assertion.attr "ID" = some read.assertionId
  hasConditions : assertion.findChild nsAssertion "Conditions" = some conditions
  notOnOrAfter : ∃ written, conditions.attr "NotOnOrAfter" = some written ∧
    parseInstant crates written = .ok read.notOnOrAfter
  unexpired : now - clockSkew < read.notOnOrAfter
  hasSubject : assertion.findChild nsAssertion "Subject" = some subject
  hasBearer : bearerConfirmation subject = some bearer
  confirmed : ∀ confirmed ∈ bearer.attr "InResponseTo", confirmed = read.inResponseTo
  nameId : read.nameId = nameIdValue (subject.findChild nsAssertion "NameID")
  nameIdFormat : read.nameIdFormat =
    (subject.findChild nsAssertion "NameID").bind (·.attr "Format")
  attributes : read.attributes = readAttributes crates assertion

theorem sole_eq_some {α : Type} {list : List α} {element : α} :
    sole list = some element ↔ list = [element] := by
  unfold sole
  split
  case h_1 only => simp
  case h_2 other =>
    constructor
    · intro missing
      cases missing
    · rintro rfl
      exact absurd rfl (other element)

variable {document : Document} {read : ValidatedAssertion}

theorem validateDocument_accepted {publicKey : Key} {spEntityId acs : Text} {now : DateTime}
    (accepted : validateDocument crates document publicKey spEntityId acs now = .ok read) :
    ∃ assertion conditions subject bearer,
      Accepted crates document publicKey spEntityId acs now read assertion conditions subject
        bearer := by
  simp only [validateDocument, bind_eq_ok, okOr_eq_ok] at accepted
  obtain ⟨inResponseTo, request, -, -, assertion, single, _, signature, assertionId, named,
    notOnOrAfter, valid, subject, hasSubject, bearer, hasBearer, _, confirmed, built⟩ := accepted
  obtain rfl := Except.ok.inj built
  simp only [responseRequest, bind_eq_ok, okOr_eq_ok, ensure_eq_ok] at request
  obtain ⟨-, response, -, -, requested⟩ := request
  simp only [soleAssertion, bind_eq_ok, okOr_eq_ok, sole_eq_some] at single
  obtain ⟨-, -, found, alone, -, -, same⟩ := single
  obtain rfl := Except.ok.inj same
  simp only [checkConditions, bind_eq_ok, okOr_eq_ok, ensure_eq_ok] at valid
  obtain ⟨conditions, hasConditions, -, -, written, limited, instant, parsed, -, unexpired, -, -,
    -, -, same⟩ := valid
  obtain rfl := Except.ok.inj same
  simp only [checkBearer, bind_eq_ok, ensure_eq_ok] at confirmed
  obtain ⟨-, -, -, -, confirms⟩ := confirmed
  exact ⟨found, conditions, subject, bearer, {
    response := response
    request := (Option.filter_eq_some_iff.mp requested).1
    single := alone
    signature := signature
    assertionId := (Option.filter_eq_some_iff.mp named).1
    hasConditions := hasConditions
    notOnOrAfter := ⟨written, limited, parsed⟩
    unexpired := unexpired
    hasSubject := hasSubject
    hasBearer := hasBearer
    confirmed := confirms
    nameId := rfl
    nameIdFormat := rfl
    attributes := rfl }⟩

/-- The element whose signature is checked: the assertion if it carries one, or else the
response. -/
def verifiedElement (document : Document) (assertion : Element) : Element :=
  if (directSignature assertion).isSome then assertion else document.root

/-- The canonical form of the verified element of a document, without the enveloped signature. -/
def verifiedForm (crates : Crates Key) (document : Document) : Except Text Text := do
  let assertion ← okOr (sole (assertions document))
    "the response must contain exactly one assertion"
  signedForm crates.toCrypto (verifiedElement document assertion)

theorem Accepted.verifiedForm {publicKey : Key} {spEntityId acs : Text} {now : DateTime}
    {assertion conditions subject bearer : Element}
    (accepted : Accepted crates document publicKey spEntityId acs now read assertion conditions
      subject bearer) :
    (directSignature (verifiedElement document assertion)).isSome ∧
      ∃ prefixes, verifiedForm crates document =
        .ok (canonicalize (verifiedElement document assertion)
          (signatureId (verifiedElement document assertion)) prefixes) := by
  have verified : verifyEnvelopedSignature crates.toCrypto document
      (verifiedElement document assertion) publicKey = .ok () := by
    have signature := accepted.signature
    unfold checkSignature at signature
    unfold verifiedElement
    split_ifs at signature ⊢
    · exact mapError_eq_ok.mp signature
    · exact mapError_eq_ok.mp signature
  obtain ⟨signed, prefixes, form⟩ := verifyEnvelopedSignature_form verified
  refine ⟨signed, prefixes, ?_⟩
  simp only [Saml.verifiedForm, bind_eq_ok, okOr_eq_ok, sole_eq_some]
  exact ⟨assertion, accepted.single, form⟩

/-! ## The condition -/

/-- The elements of an assertion whose text is read into the result. -/
def readTexts (assertion : Element) : List Element :=
  ((assertion.findChild nsAssertion "Subject").bind
      (·.findChild nsAssertion "NameID")).toList ++
    ((assertion.findChild nsAssertion "AttributeStatement").toList.flatMap
      (childrenNamed · "Attribute")).flatMap (childrenNamed · "AttributeValue")

/-- All the text that an element starts with is in its first text node. -/
def Whole (element : Element) : Prop := element.text = leadingText element.children

instance (element : Element) : Decidable (Whole element) := inferInstanceAs (Decidable (_ = _))

/-- What the code would have to check before it reads an assertion. -/
structure PlainlySigned (document : Document) : Prop where
  /-- Prefixed attributes are written with a prefix. -/
  prefixed : ∀ element ∈ document.root.descendants, element.tag.AttributesPrefixed
  /-- A text that is read is all in its first text node. -/
  whole : ∀ assertion ∈ assertions document, ∀ element ∈ readTexts assertion, Whole element
  /-- The signature that is left out of a signed response holds no assertion. -/
  covered : ∀ assertion ∈ assertions document, directSignature assertion = none →
    ∀ signature ∈ directSignature document.root, ∀ inner ∈ signature.descendants,
      inner.named nsAssertion "Assertion" = false
  /-- A signed assertion names the request itself. -/
  confirmed : ∀ assertion ∈ assertions document, (directSignature assertion).isSome →
    ∀ subject ∈ assertion.findChild nsAssertion "Subject",
      ∀ bearer ∈ bearerConfirmation subject, (bearer.attr "InResponseTo").isSome

theorem PlainlySigned.sound (plain : PlainlySigned document) :
    document.root.Sound :=
  fun inner member => ⟨document.wellFormed inner member, plain.prefixed inner member⟩

/-! ## Reading through signatures -/

/-- A search that passes signatures over does not notice that one is gone. -/
theorem find_unsigned {p : Element → Bool} (passes : ∀ element, element.isSignature = true →
    p element = false) (nodes : List Node) :
    (elements (nodes.eraseP (fun child => child.element?.any (·.isSignature)))).find? p =
      (elements nodes).find? p := by
  induction nodes with
  | nil => rfl
  | cons node nodes ih =>
    cases node with
    | element tag children =>
      by_cases signature : Element.isSignature ⟨tag, children⟩ = true
      · rw [List.eraseP_cons_of_pos (by simpa [Node.element?] using signature), elements_element,
          List.find?_cons_of_neg (by rw [passes _ signature]; decide)]
      · rw [List.eraseP_cons_of_neg (by simpa [Node.element?] using signature), elements_element,
          elements_element, List.find?_cons, List.find?_cons, ih]
    | text value =>
        rw [List.eraseP_cons_of_neg (by simp [Node.element?]), elements_text, elements_text,
          ih]
    | comment value =>
        rw [List.eraseP_cons_of_neg (by simp [Node.element?]), elements_comment,
          elements_comment, ih]
    | pi target value =>
        rw [List.eraseP_cons_of_neg (by simp [Node.element?]), elements_pi, elements_pi,
          ih]

variable {element : Element}

/-- An element in one namespace is in no other. -/
theorem named_unique {uri other name given : Text} (named : element.named uri name = true)
    (apart : uri ≠ other) :
    element.named other given = false := by
  unfold Element.named at named ⊢
  simp only [Bool.and_eq_true, decide_eq_true_eq] at named
  rw [named.1]
  simp [apart]

theorem unsigned_findChild (element : Element) (name : Text) :
    element.unsigned.findChild nsAssertion name = element.findChild nsAssertion name :=
  find_unsigned (fun _ signature => named_unique signature (by decide)) element.children

/-- A child is left when the signature is left out, or it is the signature. -/
theorem unsigned_or_signature {child : Element} (member : child ∈ elements element.children) :
    child ∈ elements element.unsigned.children ∨ directSignature element = some child := by
  obtain ⟨tag, nodes⟩ := element
  unfold directSignature Element.unsigned
  induction nodes with
  | nil => cases member
  | cons node nodes ih =>
    cases node with
    | element tag children =>
      by_cases signature : Element.isSignature ⟨tag, children⟩ = true
      · rw [List.eraseP_cons_of_pos (by simpa [Node.element?] using signature), elements_element,
          List.find?_cons_of_pos signature]
        obtain rfl | later := List.mem_cons.mp member
        · exact .inr rfl
        · exact .inl later
      · rw [List.eraseP_cons_of_neg (by simpa [Node.element?] using signature), elements_element,
          elements_element, List.find?_cons_of_neg signature]
        obtain rfl | later := List.mem_cons.mp member
        · exact .inl List.mem_cons_self
        · exact (ih later).imp_left (List.mem_cons_of_mem _)
    | text value | comment value | pi target value =>
        exact ih member

/-! ## Twins are read alike -/

section Lists

variable {α β γ : Type} {Related : α → β → Prop} {left : List α} {right : List β} {f : α → Option γ}
  {g : β → Option γ}

theorem rel_findSome {Found : γ → γ → Prop} (related : List.Forall₂ Related left right)
    (agree : ∀ x y, Related x y → Option.Rel Found (f x) (g y)) :
    Option.Rel Found (left.findSome? f) (right.findSome? g) := by
  induction related with
  | nil => exact .none
  | @cons x y left right both rest ih =>
    have heads := agree x y both
    rw [List.findSome?_cons, List.findSome?_cons]
    generalize f x = found at heads
    generalize g y = other at heads
    cases heads with
    | none => exact ih
    | some same => exact .some same

/-- Related lists whose members give the same, give the same. -/
theorem flatMap_related {f : α → List γ} {g : β → List γ}
    (related : List.Forall₂ Related left right)
    (agree : ∀ x ∈ left, ∀ y ∈ right, Related x y → f x = g y) :
    left.flatMap f = right.flatMap g := by
  induction related with
  | nil => rfl
  | @cons x y left right both rest ih =>
    rw [List.flatMap_cons, List.flatMap_cons,
      agree x List.mem_cons_self y List.mem_cons_self both,
      ih (fun x inLeft y inRight =>
        agree x (List.mem_cons_of_mem _ inLeft) y (List.mem_cons_of_mem _ inRight))]

theorem findSome_related (related : List.Forall₂ Related left right)
    (agree : ∀ x ∈ left, ∀ y ∈ right, Related x y → f x = g y) :
    left.findSome? f = right.findSome? g := by
  induction related with
  | nil => rfl
  | @cons x y left right both rest ih =>
    rw [List.findSome?_cons, List.findSome?_cons,
      agree x List.mem_cons_self y List.mem_cons_self both,
      ih (fun x inLeft y inRight =>
        agree x (List.mem_cons_of_mem _ inLeft) y (List.mem_cons_of_mem _ inRight))]

end Lists

section Reading

variable {leftInclusive rightInclusive : List Text} {left right : Element}

section

variable (twin : Twin leftInclusive rightInclusive left right)
include twin

theorem childrenNamed_twins (name : Text) :
    List.Forall₂ (Twin leftInclusive rightInclusive) (childrenNamed left name)
      (childrenNamed right name) := by
  refine List.rel_filter ?_ twin.children
  intro child other both
  simp only [both.name]

/-- Twins whose text is whole have the same text. -/
theorem same_text (leftWhole : Whole left)
    (rightWhole : Whole right) : left.text = right.text := by
  rw [leftWhole, rightWhole, twin.leadingText]

theorem bearerConfirmation_twins :
    Option.Rel (Twin leftInclusive rightInclusive) (bearerConfirmation left)
      (bearerConfirmation right) := by
  refine rel_findSome (List.rel_filter ?_ (childrenNamed_twins twin _)) ?_
  · intro confirmation other both
    simp only [both.attr (by decide : ':' ∉ "Method".toList) (by decide)]
  · intro confirmation other both
    exact both.findChild (by decide) _

theorem attributeEntries_twins
    (leftWhole : ∀ value ∈ childrenNamed left "AttributeValue", Whole value)
    (rightWhole : ∀ value ∈ childrenNamed right "AttributeValue", Whole value) :
    attributeEntries crates left = attributeEntries crates right := by
  have values : attributeValue left = attributeValue right := by
    unfold attributeValue
    rw [findSome_related (childrenNamed_twins twin _) (fun value inLeft other inRight both =>
      same_text both (leftWhole value inLeft) (rightWhole other inRight))]
  unfold attributeEntries
  rw [values, twin.attr (by decide : ':' ∉ "Name".toList) (by decide),
    twin.attr (by decide : ':' ∉ "FriendlyName".toList) (by decide)]

theorem readAttributes_twins (leftWhole : ∀ element ∈ readTexts left, Whole element)
    (rightWhole : ∀ element ∈ readTexts right, Whole element) :
    readAttributes crates left = readAttributes crates right := by
  have listed : List.Forall₂ (Twin leftInclusive rightInclusive)
      ((left.findChild nsAssertion "AttributeStatement").toList.flatMap
        (childrenNamed · "Attribute"))
      ((right.findChild nsAssertion "AttributeStatement").toList.flatMap
        (childrenNamed · "Attribute")) := by
    have statements := twin.findChild (by decide : nsAssertion ≠ []) "AttributeStatement"
    generalize left.findChild nsAssertion "AttributeStatement" = statement at statements
    generalize right.findChild nsAssertion "AttributeStatement" = other at statements
    cases statements with
    | none => exact .nil
    | some both => simpa using childrenNamed_twins both "Attribute"
  refine flatMap_related listed ?_
  intro attr inLeft other inRight both
  refine attributeEntries_twins both ?_ ?_
  · intro value member
    exact leftWhole value (List.mem_append_right _ (List.mem_flatMap.mpr ⟨attr, inLeft, member⟩))
  · intro value member
    exact rightWhole value
      (List.mem_append_right _ (List.mem_flatMap.mpr ⟨other, inRight, member⟩))

end

/-- Twin names with whole texts are read alike. -/
theorem nameId_twins {left right : Option Element}
    (twins : Option.Rel (Twin leftInclusive rightInclusive) left right)
    (leftWhole : ∀ element ∈ left, Whole element) (rightWhole : ∀ element ∈ right, Whole element) :
    nameIdValue left = nameIdValue right ∧
      left.bind (·.attr "Format") = right.bind (·.attr "Format") := by
  cases twins with
  | none => exact ⟨rfl, rfl⟩
  | some both =>
    refine ⟨?_, both.attr (by decide : ':' ∉ "Format".toList) (by decide)⟩
    unfold nameIdValue
    rw [Option.bind_some, Option.bind_some, same_text both (leftWhole _ rfl) (rightWhole _ rfl)]

theorem nameId_mem_readTexts {assertion subject element : Element}
    (hasSubject : assertion.findChild nsAssertion "Subject" = some subject)
    (found : element ∈ subject.findChild nsAssertion "NameID") :
    element ∈ readTexts assertion := by
  unfold readTexts
  rw [hasSubject]
  exact List.mem_append_left _ (Option.mem_toList.mpr found)

end Reading

/-! ## The assertions of two documents -/

/-- An element that the readers cannot tell from an assertion. -/
structure StandsFor (element assertion : Element) : Prop where
  tag : element.tag = assertion.tag
  child : ∀ name, element.findChild nsAssertion name = assertion.findChild nsAssertion name

section

variable {assertion : Element} (stands : StandsFor element assertion)
include assertion stands

theorem StandsFor.attr (name : Text) :
    element.attr name = assertion.attr name := by
  unfold Element.attr
  rw [stands.tag]

theorem StandsFor.readTexts :
    Saml.readTexts element = Saml.readTexts assertion := by
  unfold Saml.readTexts
  rw [stands.child, stands.child]

theorem StandsFor.readAttributes :
    Saml.readAttributes crates element = Saml.readAttributes crates assertion := by
  unfold Saml.readAttributes
  rw [stands.child]

end

theorem standsFor_unsigned (assertion : Element) : StandsFor assertion.unsigned assertion :=
  ⟨rfl, unsigned_findChild assertion⟩

section Documents

variable {leftDocument rightDocument : Document} {publicKey : Key} {now : DateTime}
  {leftEntity rightEntity leftAcs rightAcs : Text} {leftRead rightRead : ValidatedAssertion}
  {leftAssertion leftConditions leftSubject leftBearer : Element}
  {rightAssertion rightConditions rightSubject rightBearer : Element}

section

variable
  (accepted : Accepted crates leftDocument publicKey leftEntity leftAcs now leftRead leftAssertion leftConditions leftSubject leftBearer)
include accepted

theorem Accepted.member :
    leftAssertion ∈ assertions leftDocument := by
  rw [accepted.single]
  exact List.mem_singleton_self _

theorem Accepted.assertion_mem :
    leftAssertion ∈ leftDocument.root.descendants ∧
      leftAssertion.named nsAssertion "Assertion" = true :=
  List.mem_filter.mp accepted.member

theorem Accepted.root_no_assertion :
    leftDocument.root.named nsAssertion "Assertion" = false :=
  named_unique accepted.response (by decide)

/-- In a plainly signed response the assertion is part of what the signature covers. -/
theorem Accepted.assertion_covered
    (plain : PlainlySigned leftDocument) (unsigned : directSignature leftAssertion = none) :
    leftAssertion ∈ leftDocument.root.unsigned.descendants := by
  obtain ⟨member, named⟩ := accepted.assertion_mem
  obtain rfl | ⟨child, inside, below⟩ := Element.mem_descendants.mp member
  · exact absurd (accepted.root_no_assertion.symm.trans named) (by decide)
  · obtain left | signature := unsigned_or_signature inside
    · exact Element.mem_descendants.mpr (.inr ⟨child, left, below⟩)
    · have outside := plain.covered _ accepted.member unsigned _ signature _ below
      exact absurd (outside.symm.trans named) (by decide)

end

/-- The twin of an assertion in what the other signature covers is the other assertion. -/
theorem Accepted.assertion_twin {inner : Element} {leftInclusive rightInclusive : List Text}
    (accepted : Accepted crates rightDocument publicKey rightEntity rightAcs now rightRead
      rightAssertion rightConditions rightSubject rightBearer)
    (named : inner.named nsAssertion "Assertion" = true) {other : Element}
    (member : other ∈ rightDocument.root.unsigned.descendants)
    (twin : Twin leftInclusive rightInclusive inner other) : other = rightAssertion := by
  have otherNamed : other.named nsAssertion "Assertion" = true := by
    rw [← twin.named (by decide), named]
  have inDocument : other ∈ rightDocument.root.descendants := by
    obtain rfl | ⟨child, inside, below⟩ := Element.mem_descendants.mp member
    · exact absurd (accepted.root_no_assertion.symm.trans otherNamed) (by decide)
    · exact Element.mem_descendants.mpr
        (.inr ⟨child, Element.unsigned_children _ child inside, below⟩)
  have found : other ∈ assertions rightDocument := List.mem_filter.mpr ⟨inDocument, otherNamed⟩
  rw [accepted.single] at found
  exact List.mem_singleton.mp found

section

variable
  (leftAccepted : Accepted crates leftDocument publicKey leftEntity leftAcs now leftRead
    leftAssertion leftConditions leftSubject leftBearer)
  (rightAccepted : Accepted crates rightDocument publicKey rightEntity rightAcs now rightRead
    rightAssertion rightConditions rightSubject rightBearer)
  (leftPlain : PlainlySigned leftDocument) (rightPlain : PlainlySigned rightDocument)
include leftAccepted rightAccepted leftPlain rightPlain

/-- The assertions of two plainly signed documents with the same verified form are read like
twins, and the request is read from them or from twin responses. -/
theorem assertion_twins
    (same : verifiedForm crates leftDocument = verifiedForm crates rightDocument) :
    ∃ leftInclusive rightInclusive left right,
      StandsFor left leftAssertion ∧ StandsFor right rightAssertion ∧
        Twin leftInclusive rightInclusive left right ∧
        ((directSignature leftAssertion).isSome ∧ (directSignature rightAssertion).isSome ∨
          leftRead.inResponseTo = rightRead.inResponseTo) := by
  obtain ⟨leftSigned, leftInclusive, leftForm⟩ := leftAccepted.verifiedForm
  obtain ⟨rightSigned, rightInclusive, rightForm⟩ := rightAccepted.verifiedForm
  rw [leftForm, rightForm] at same
  have forms := Except.ok.inj same
  have leftSound := leftPlain.sound.descendant leftAccepted.assertion_mem.1
  have rightSound := rightPlain.sound.descendant rightAccepted.assertion_mem.1
  have names : ∀ {element : Element} {uri name : Text}, element.named uri name = true →
      element.tag.name = name := by
    intro element uri name named
    simpa using (Bool.and_eq_true_iff.mp named).2
  have leftName := names leftAccepted.assertion_mem.2
  have rightName := names rightAccepted.assertion_mem.2
  refine ⟨leftInclusive, rightInclusive, ?_⟩
  unfold verifiedElement at forms
  split_ifs at forms with leftOwn rightOwn rightOwn
  · -- Both assertions are signed themselves.
    exact ⟨_, _, standsFor_unsigned _, standsFor_unsigned _,
      Twin.of_canonicalize leftSound rightSound forms, .inl ⟨leftOwn, rightOwn⟩⟩
  · have twin := Twin.of_canonicalize leftSound rightPlain.sound forms
    have clash := leftName.symm.trans (twin.name.trans (names rightAccepted.response))
    exact absurd clash (by decide)
  · have twin := Twin.of_canonicalize leftPlain.sound rightSound forms
    have clash := (names leftAccepted.response).symm.trans (twin.name.trans rightName)
    exact absurd clash (by decide)
  · -- Both responses are signed: the assertions are twins inside twin responses.
    have twin := Twin.of_canonicalize leftPlain.sound rightPlain.sound forms
    have covered := leftAccepted.assertion_covered leftPlain
      (Option.not_isSome_iff_eq_none.mp leftOwn)
    obtain ⟨other, member, twins⟩ := twin.descendant covered
    obtain rfl := rightAccepted.assertion_twin leftAccepted.assertion_mem.2 member twins
    refine ⟨_, _, ⟨rfl, fun _ => rfl⟩, ⟨rfl, fun _ => rfl⟩, twins, .inr ?_⟩
    have requests := twin.attr (by decide : ':' ∉ "InResponseTo".toList) (by decide)
    have leftRequest : leftDocument.root.unsigned.attr "InResponseTo" = _ :=
      leftAccepted.request
    have rightRequest : rightDocument.root.unsigned.attr "InResponseTo" = _ :=
      rightAccepted.request
    rw [leftRequest, rightRequest] at requests
    exact Option.some.inj requests

/-- The results of two accepted documents, but for the request, are read from twins. -/
theorem twins_read_alike {leftInclusive rightInclusive : List Text} {left right : Element}
    (leftStands : StandsFor left leftAssertion) (rightStands : StandsFor right rightAssertion)
    (twin : Twin leftInclusive rightInclusive left right) :
    Twin leftInclusive rightInclusive leftBearer rightBearer ∧
      leftRead = { rightRead with inResponseTo := leftRead.inResponseTo } := by
  have filled : nsAssertion ≠ [] := by decide
  have conditions : Twin leftInclusive rightInclusive leftConditions rightConditions := by
    have found := twin.findChild filled "Conditions"
    rw [leftStands.child, rightStands.child, leftAccepted.hasConditions,
      rightAccepted.hasConditions] at found
    cases found with
    | some both => exact both
  have subjects : Twin leftInclusive rightInclusive leftSubject rightSubject := by
    have found := twin.findChild filled "Subject"
    rw [leftStands.child, rightStands.child, leftAccepted.hasSubject,
      rightAccepted.hasSubject] at found
    cases found with
    | some both => exact both
  have bearers : Twin leftInclusive rightInclusive leftBearer rightBearer := by
    have found := bearerConfirmation_twins subjects
    rw [leftAccepted.hasBearer, rightAccepted.hasBearer] at found
    cases found with
    | some both => exact both
  have identified : leftRead.assertionId = rightRead.assertionId := by
    have ids := twin.attr (by decide : ':' ∉ "ID".toList) (by decide)
    rw [leftStands.attr, rightStands.attr, leftAccepted.assertionId,
      rightAccepted.assertionId] at ids
    exact Option.some.inj ids
  have limits : leftRead.notOnOrAfter = rightRead.notOnOrAfter := by
    obtain ⟨leftWritten, leftLimit, leftParsed⟩ := leftAccepted.notOnOrAfter
    obtain ⟨rightWritten, rightLimit, rightParsed⟩ := rightAccepted.notOnOrAfter
    have written := conditions.attr (by decide : ':' ∉ "NotOnOrAfter".toList) (by decide)
    rw [leftLimit, rightLimit] at written
    obtain rfl := Option.some.inj written
    exact Except.ok.inj (leftParsed.symm.trans rightParsed)
  have leftWhole := leftPlain.whole _ leftAccepted.member
  have rightWhole := rightPlain.whole _ rightAccepted.member
  have named : leftRead.nameId = rightRead.nameId ∧
      leftRead.nameIdFormat = rightRead.nameIdFormat := by
    rw [leftAccepted.nameId, rightAccepted.nameId, leftAccepted.nameIdFormat,
      rightAccepted.nameIdFormat]
    refine nameId_twins (subjects.findChild filled "NameID") ?_ ?_
    · intro element found
      exact leftWhole element (nameId_mem_readTexts leftAccepted.hasSubject found)
    · intro element found
      exact rightWhole element (nameId_mem_readTexts rightAccepted.hasSubject found)
  have attributes : leftRead.attributes = rightRead.attributes := by
    rw [leftAccepted.attributes, rightAccepted.attributes, ← leftStands.readAttributes,
      ← rightStands.readAttributes]
    refine readAttributes_twins twin ?_ ?_
    · rw [leftStands.readTexts]
      exact leftWhole
    · rw [rightStands.readTexts]
      exact rightWhole
  refine ⟨bearers, ?_⟩
  cases leftRead
  simp only at identified limits named attributes
  obtain ⟨rfl, rfl⟩ := named
  rw [identified, limits, attributes]

end

/-- A request that a signed assertion names is the one that is read. -/
theorem Accepted.request_confirmed
    (accepted : Accepted crates leftDocument publicKey leftEntity leftAcs now leftRead
      leftAssertion leftConditions leftSubject leftBearer)
    (plain : PlainlySigned leftDocument) (signed : (directSignature leftAssertion).isSome) :
    leftBearer.attr "InResponseTo" = some leftRead.inResponseTo := by
  have named := plain.confirmed _ accepted.member signed _ accepted.hasSubject _ accepted.hasBearer
  obtain ⟨confirmed, written⟩ := Option.isSome_iff_exists.mp named
  rw [written, accepted.confirmed confirmed written]

end Documents

end Validation

/-! ## Documents that are read apart

A part of a document together with the text it is parsed from. The identity provider signed an
assertion about one account; a comment inside its name makes it one about another. -/

namespace Example

/-- The namespaces that the root declares. -/
def scope : List (Option Text × Text) :=
  [(some "ds".toList, nsDsig), (some "saml".toList, nsAssertion),
    (some "samlp".toList, nsProtocol)]

def element (nsPrefix name : String) (attributes : List (String × Text))
    (children : List (Node × Text)) : Node × Text :=
  let tag : Tag := ⟨some nsPrefix.toList, name.toList, scope,
    attributes.map (fun attr => ⟨none, attr.1.toList, attr.2⟩)⟩
  (.element tag (children.map (·.1)),
    startTag tag.qname (attributes.map (fun attr => (attr.1.toList, attr.2))) ++
      (children.flatMap (·.2) ++ endTag tag.qname))

def text (value : String) : Node × Text := (.text value.toList, value.toList)

def comment (value : String) : Node × Text :=
  (.comment value.toList, "<!--" ++ value.toList ++ "-->")

/-- A signature of the element with an identifier. The signature value stands for the one that
the identity provider's key makes. -/
def signature (id : String) (digest : String) (objects : List (Node × Text)) : Node × Text :=
  element "ds" "Signature" [] ([
    element "ds" "SignedInfo" [] [
      element "ds" "CanonicalizationMethod" [("Algorithm", algExcC14n)] [],
      element "ds" "SignatureMethod" [("Algorithm", algRsaSha256)] [],
      element "ds" "Reference" [("URI", '#' :: id.toList)] [
        element "ds" "Transforms" [] [element "ds" "Transform" [("Algorithm", algEnveloped)] []],
        element "ds" "DigestMethod" [("Algorithm", algSha256)] [],
        element "ds" "DigestValue" [] [text digest]]],
    element "ds" "SignatureValue" [] [text "c2lnbmVk"]] ++ objects)

def assertion (signatures nameId : List (Node × Text)) (confirmation : List (String × Text)) :
    Node × Text :=
  element "saml" "Assertion" [("ID", "_a"), ("Version", "2.0")] (signatures ++ [
    element "saml" "Subject" [] [
      element "saml" "NameID" [] nameId,
      element "saml" "SubjectConfirmation" [("Method", methodBearer)] [
        element "saml" "SubjectConfirmationData" confirmation []]],
    element "saml" "Conditions" [("NotOnOrAfter", "2026-01-01T00:00:00Z")] [
      element "saml" "AudienceRestriction" [] [element "saml" "Audience" [] [text "sp"]]]])

/-- A response in a text that starts with a comment of its own. -/
def root (label request : String) (content : List (Node × Text)) : Element × Text :=
  let status := element "samlp" "Status" []
    [element "samlp" "StatusCode" [("Value", statusSuccess)] []]
  let listed := [("ID".toList, "_p".toList), ("InResponseTo".toList, request.toList)]
  let tag : Tag := ⟨some "samlp".toList, "Response".toList, scope,
    listed.map (fun attr => ⟨none, attr.1, attr.2⟩)⟩
  (⟨tag, status.1 :: content.map (·.1)⟩,
    (comment label).2 ++ (startTag tag.qname (scope.map (fun declared =>
        declarationItem (declared.1.getD [], declared.2)) ++ listed) ++
      (status.2 ++ (content.flatMap (·.2) ++ endTag tag.qname))))

/-! The digests of what is signed below. -/

def assertionDigest : String := "CxdGxGF56kZH4MeLHwpb458agQvaN9E1P+4+2sr0Rng="

def responseDigest : String := "E4fajoD6OK/9aFGGjD0zvaYiiR6XQZezpNXcluvE2+I="

def confirmedDigest : String := "7ThlWMWy7rle4AbhybqYjUwT/dbhnt8/ltNM7GtzRkA="

/-- The assertion about one account, with the name written in different ways. -/
def named (label request : String) (nameId : List (Node × Text)) : Element × Text :=
  root label request [assertion [signature "_a" assertionDigest []] nameId []]

def whole : Element × Text := named "1" "_r1" [text "admin@example.com.evil.org"]

def cut : Element × Text :=
  named "2" "_r1" [text "admin@example.com", comment "", text ".evil.org"]

/-- The same assertion in an answer to another request. -/
def moved : Element × Text := named "3" "_r2" [text "admin@example.com.evil.org"]

/-- A signed response whose assertion is part of its signature. -/
def enclosed (label name : String) : Element × Text :=
  root label "_r1" [signature "_p" responseDigest [
    element "ds" "Object" [] [assertion [] [text name] []]]]

def alice : Element × Text := enclosed "4" "alice@example.com"

def bob : Element × Text := enclosed "5" "bob@example.com"

/-- An assertion that names the request, with comments where no text is read. -/
def confirmed (label : String) (comments : List (Node × Text)) : Element × Text :=
  root label "_r1" (comments ++ [assertion ([signature "_a" confirmedDigest []] ++ comments)
    [text "admin@example.com.evil.org"] [("InResponseTo", "_r1")]])

def bare : Element × Text := confirmed "6" []

def annotated : Element × Text := confirmed "7" [comment "note"]

/-- The documents with the texts that they are parsed from. -/
def sources : List (Element × Text) := [bare, annotated, whole, cut, moved, alice, bob]

theorem sources_wellFormed : ∀ source ∈ sources, ∀ inner ∈ source.1.descendants,
    inner.WellFormed := by
  decide +kernel

def document (source : Element × Text) (listed : source ∈ sources) : Document :=
  ⟨source.1, sources_wellFormed source listed⟩

/-- The comment that a text starts with. -/
def label (xml : Text) : Text := xml.take 8

/-- The parser on these texts, which their first comments tell apart. -/
def parse (xml : Text) : Except Text Document :=
  okOr ((sources.attach.find? (fun source => label source.1.2 = label xml)).map (fun source =>
    document source.1 source.2)) "unexpected end of stream"

/-- Every text is parsed into its document. -/
theorem parse_source : ∀ source (listed : source ∈ sources),
    parse source.2 = .ok (document source listed) := by
  have distinct : (sources.map (fun source => label source.2)).Nodup := by decide +kernel
  intro source listed
  have found : sources.attach.find? (fun other => label other.1.2 = label source.2) =
      some ⟨source, listed⟩ := by
    cases located : sources.attach.find? (fun other => label other.1.2 = label source.2) with
    | none => simpa using List.find?_eq_none.mp located ⟨source, listed⟩ (List.mem_attach _ _)
    | some other =>
      have same : other.1 = source := List.inj_on_of_nodup_map distinct other.2 listed
        (by simpa using List.find?_some located)
      rw [Option.some.injEq]
      exact Subtype.ext same
  rw [parse, found]
  rfl

/-- The crates on these documents, where the digest of the signed content is the one that the
document gives. -/
def crates (digest : String) : Crates Unit where
  decodeStandard := fun value => okOr (Platform.ascii.base64Decode value) "Invalid padding"
  sha256 := fun _ => (Platform.ascii.base64Decode digest.toList).getD []
  signatureFrom := .ok
  verify := fun _ _ _ => true
  debug := fun value => '"' :: value ++ ['"']
  parse := parse
  parseFromRfc3339 := fun value =>
    if value = "2026-01-01T00:00:00Z" then some (seconds 1767225600) else none
  toLowercase := Str.toAsciiLowercase

/-- One minute before the assertion ends. -/
def now : DateTime := seconds 1767225540

/-- What is read from a text. -/
def read (digest : String) (source : Element × Text) : Except Text ValidatedAssertion :=
  validateResponse (crates digest) source.2 () "sp" "https://mail/acs" now

/-- The canonical form of the verified element of a text. -/
def form (digest : String) (source : Element × Text) : Except Text Text :=
  parse source.2 >>= verifiedForm (crates digest)

/-- What is read from the assertion about the one account. -/
def signedReading : ValidatedAssertion where
  assertionId := "_a"
  inResponseTo := "_r1"
  nameId := some "admin@example.com.evil.org".toList
  nameIdFormat := none
  attributes := []
  notOnOrAfter := seconds 1767225600

end Example

end Camelmailer.Saml
