import Camelmailer.Api.Send

/-!
# Building a message

`build_message` of `camelmailer-core/src/mime.rs`. It puts together the headers and the tree of the
body and leaves the rest to mail-builder, which is taken from outside: it writes the headers that it
is given one after the other, a raw value as it is, and then what is missing and the body.
-/

namespace Camelmailer.Api

open Utf8 Lines

/-! ## What the builder is given -/

/-- A value of a header. -/
inductive HeaderType where
  | address (name email : Text)
  | addresses (list : List (Text × Text))
  | text (text : Text)
  | messageId (id : Text)
  | raw (raw : Text)
deriving DecidableEq

abbrev Header := Text × HeaderType

inductive Disposition where
  | inline (contentId : Text)
  | attachment (filename : Text)
deriving DecidableEq

inductive MimePart where
  | text (contentType text : Text)
  | data (contentType : Text) (octets : Bytes) (disposition : Disposition)
  | multipart (contentType : Text) (parts : List MimePart)

/-- The headers that mail-builder adds if they are missing. -/
def generatedNames : List Text :=
  ["Message-ID", "Date", "MIME-Version"]

/-- mail-builder at one moment: its clock and what it draws at random are part of it. -/
structure MailBuilder where
  writeToVec : List Header → MimePart → Bytes
  /-- A value with its line end. -/
  value : HeaderType → Bytes
  /-- What comes behind the headers. -/
  rest : List Text → MimePart → Bytes
  writes : ∀ headers body, writeToVec headers body =
    headers.flatMap (fun header => encode (header.1 ++ ": ") ++ value header.2) ++
      rest (headers.map Prod.fst) body
  value_raw : ∀ text, value (.raw text) = encode text ++ CRLF
  rest_congr : ∀ names others body, (∀ name ∈ generatedNames, name ∈ names ↔ name ∈ others) →
    rest names body = rest others body

/-- A header as it is written. -/
def MailBuilder.field (builder : MailBuilder) (header : Header) : Bytes :=
  encode (header.1 ++ ": ") ++ builder.value header.2

/-! ## The headers -/

def toMailAddresses (addresses : List Address) : List (Text × Text) :=
  addresses.map (fun address => (address.name.getD [], address.email))

def synthesizedMessageId (uuid fromEmail : Text) : Option Text :=
  (Str.rsplitOnce '@' fromEmail).bind (fun parts =>
    let domain := Str.trim parts.2
    if domain = [] then none else some (uuid ++ '@' :: Str.toAsciiLowercase domain))

def isReservedHeader (name : Text) : Bool :=
  ["from".toList, "to".toList, "cc".toList, "bcc".toList, "reply-to".toList, "subject".toList,
    "date".toList, "message-id".toList, "content-type".toList,
    "content-transfer-encoding".toList, "mime-version".toList].contains (Str.toAsciiLowercase name)

/-- A header for some addresses, if there are any. -/
def addressesHeader (name : Text) (addresses : List Address) : List Header :=
  if addresses = [] then [] else [(name, .addresses (toMailAddresses addresses))]

/-- The id that is given, or one under the domain of the sender. -/
def messageId (uuid : Text) (params : BuildParams) : Option Text :=
  match params.messageId with
  | some id => some id
  | none => synthesizedMessageId uuid params.sender.email

def messageIdHeader (uuid : Text) (params : BuildParams) : List Header :=
  ((messageId uuid params).map (fun id => ("Message-ID".toList, HeaderType.messageId id))).toList

/-- The headers that have parameters of their own. -/
def dedicatedHeaders (uuid : Text) (params : BuildParams) : List Header :=
  [("From".toList, .address (params.sender.name.getD []) params.sender.email)] ++
    addressesHeader "To" params.sendTo ++ addressesHeader "Cc" params.cc ++
    addressesHeader "Bcc" params.bcc ++ addressesHeader "Reply-To" params.replyTo ++
    [("Subject".toList, .text params.subject)] ++ messageIdHeader uuid params

/-- The headers of the client. -/
def customHeaders (headers : List (Text × Text)) : List Header :=
  (headers.filter (fun header => !isReservedHeader header.1)).map
    (fun header => (header.1, .raw header.2))

/-! ## The body -/

/-- The HTML body, with the parts that it refers to. -/
def htmlPart (html : Text) (inline : List Attachment) : MimePart :=
  let page := MimePart.text "text/html" html
  if inline = [] then page
  else .multipart "multipart/related" (page :: inline.map (fun attachment =>
    .data attachment.contentType attachment.data (.inline (attachment.contentId.getD []))))

def bodyPart (params : BuildParams) (inline attached : List Attachment) : MimePart :=
  let html := params.htmlBody.map (fun html => htmlPart html inline)
  let text := params.textBody.map (MimePart.text "text/plain")
  let content := match text, html with
    | some text, some html => .multipart "multipart/alternative" [text, html]
    | none, some html => html
    | some text, none => text
    | none, none => .text "text/plain" []
  if attached = [] then content
  else .multipart "multipart/mixed" (content :: attached.map (fun attachment =>
    .data attachment.contentType attachment.data (.attachment attachment.filename)))

/-- The tree of the body: an attachment with a content id is inline if there is an HTML body. -/
def messageBody (params : BuildParams) : MimePart :=
  let isInline := fun attachment : Attachment =>
    attachment.contentId.isSome && params.htmlBody.isSome
  bodyPart params (params.attachments.filter isInline)
    (params.attachments.filter (fun attachment => !isInline attachment))

def buildMessage (builder : MailBuilder) (uuid : Text) (params : BuildParams) : Bytes :=
  builder.writeToVec (dedicatedHeaders uuid params ++ customHeaders params.headers)
    (messageBody params)

/-- What is written for some headers. -/
def MailBuilder.fields (builder : MailBuilder) (headers : List Header) : Bytes :=
  headers.flatMap builder.field

@[simp] theorem MailBuilder.fields_append (builder : MailBuilder) (front back : List Header) :
    builder.fields (front ++ back) = builder.fields front ++ builder.fields back :=
  List.flatMap_append

theorem MailBuilder.writeToVec_eq (builder : MailBuilder) (headers : List Header)
    (body : MimePart) : builder.writeToVec headers body =
      builder.fields headers ++ builder.rest (headers.map Prod.fst) body :=
  builder.writes headers body

/-! ## A builder at the epoch -/

def showAddress (address : Text × Text) : Text :=
  '"' :: address.1 ++ "\" <" ++ address.2 ++ ['>']

def exampleText : HeaderType → Text
  | .address name email => showAddress (name, email)
  | .addresses list => ", ".toList.intercalate (list.map showAddress)
  | .text text => text
  | .messageId id => '<' :: id ++ ['>']
  | .raw text => text

def exampleValue (value : HeaderType) : Bytes := encode (exampleText value) ++ CRLF

/-- The added headers in front of a body in plain text. -/
def exampleRest (names : List Text) (body : MimePart) : Bytes :=
  let id := if "Message-ID".toList ∈ names then [] else "Message-ID: <1@host>\r\n".toList
  let content := match body with
    | .text _ text => text
    | _ => []
  encode (id ++ ("Date: Thu, 1 Jan 1970 00:00:00 +0000\r\nMIME-Version: 1.0\r\n" ++
    "Content-Type: text/plain; charset=\"utf-8\"\r\nContent-Transfer-Encoding: 7bit\r\n\r\n").toList ++
    content)

def exampleBuilder : MailBuilder where
  writeToVec headers body :=
    headers.flatMap (fun header => encode (header.1 ++ ": ") ++ exampleValue header.2) ++
      exampleRest (headers.map Prod.fst) body
  value := exampleValue
  rest := exampleRest
  writes _ _ := rfl
  value_raw _ := rfl
  rest_congr names others body same := by
    have id := same "Message-ID" (by decide)
    unfold exampleRest
    simp only [id]

end Camelmailer.Api
