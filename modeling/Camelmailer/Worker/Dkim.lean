import Camelmailer.Core.HeaderFields

/-!
# What a DKIM signature is computed from

The part of `camelmailer-worker/src/dkim.rs` that cuts a message into its header fields and its
body, brings both into the relaxed form, and selects the fields that are signed.
-/

namespace Camelmailer.Dkim

open Utf8 Lines

/-! ## Cutting the message -/

/-- A line without the carriage returns and line feeds at its end. -/
def trimLineEnd (text : Text) : Text := text.rdropWhile (fun char => char = '\r' || char = '\n')

def crlfText : Text := ['\r', '\n']

/-- The loop of `split_message` over the lines: the fields so far, the one that is still open, and
how many octets have been read. -/
def splitLines : List Text → Option Text → Nat → List Bytes → List Text × Nat
  | headers, current, offset, [] => (headers ++ current.toList, offset)
  | headers, current, offset, line :: rest =>
      let trimmed := trimLineEnd (fromUtf8Lossy line)
      if trimmed = [] then (headers ++ current.toList, offset + line.length)
      else if isFolded trimmed then
        splitLines headers (current.map (fun header => header ++ crlfText ++ trimmed))
          (offset + line.length) rest
      else splitLines (headers ++ current.toList) (some trimmed) (offset + line.length) rest

/-- `split_message`: the header fields and the body. -/
def splitMessage (rawMessage : Bytes) : List Text × Bytes :=
  let (headers, offset) := splitLines [] none 0 (splitInclusive rawMessage)
  (headers, rawMessage.drop offset)

/-! ## The relaxed form -/

/-- A run of blanks and tabs becomes one blank. `afterSpace` tells whether the character before was
one of them. -/
def collapse : Bool → Text → Text
  | _, [] => []
  | afterSpace, char :: rest =>
      if char = ' ' || char = '\t' then
        if afterSpace then collapse true rest else ' ' :: collapse true rest
      else char :: collapse false rest

/-- `str::replace`, of a line end by a blank. -/
def replaceCrlf : Text → Text
  | '\r' :: '\n' :: rest => ' ' :: replaceCrlf rest
  | char :: rest => char :: replaceCrlf rest
  | [] => []

def canonicalizeHeader (platform : Platform) (rawHeader : Text) : Option (Text × Text) :=
  (Str.splitOnce ':' rawHeader).map (fun parts =>
    let unfolded := (replaceCrlf parts.2).map (fun char => if char = '\n' then ' ' else char)
    (platform.toLowercase (Str.trim parts.1), Str.trim (collapse false unfolded)))

/-- A line of the body in relaxed form. -/
def canonicalizeLine (line : Text) : Text :=
  Str.trimEnd (collapse false (line.rdropWhile (fun char => char = '\r')))

def canonicalizeBody (body : Bytes) : Bytes :=
  let lines := ((fromUtf8Lossy body).splitOn '\n').map canonicalizeLine
  let kept := lines.rdropWhile (fun line => line = [])
  if kept = [] then [] else encode (crlfText.intercalate kept) ++ CRLF

/-! ## The signature -/

/-- `SIGNED_HEADERS`. -/
def signedHeaders : List Text :=
  ["from", "sender", "reply-to", "to", "cc", "subject",
    "date", "message-id"]

/-- The fields that are signed: for each name the first one that has it. -/
def selectHeaders (platform : Platform) (rawMessage : Bytes) : List (Text × Text) :=
  let canonicalized := (splitMessage rawMessage).1.filterMap (canonicalizeHeader platform)
  signedHeaders.filterMap (fun name => canonicalized.find? (fun header => header.1 = name))

/-- A signed field as it is hashed. -/
def signedLine (header : Text × Text) : Text := header.1 ++ ':' :: header.2 ++ crlfText

/-- The field that carries a signature, with an empty `b=`. -/
def unsignedDkim (platform : Platform) (rawMessage : Bytes) (domain selector : Text)
    (timestamp : Int) : Text :=
  let names := (selectHeaders platform rawMessage).map Prod.fst
  let bodyHash := platform.base64Encode
    (platform.sha256 (canonicalizeBody (splitMessage rawMessage).2))
  "v=1; a=rsa-sha256; c=relaxed/relaxed; d=" ++ domain ++ "; s=" ++ selector ++
    "; t=" ++ decimal timestamp ++ "; h=" ++ [':'].intercalate names ++
    "; bh=" ++ bodyHash ++ "; b="

/-- What is signed: the selected fields, and the field of the signature itself. -/
def signingInput (platform : Platform) (rawMessage : Bytes) (domain selector : Text)
    (timestamp : Int) : Text :=
  let unsigned := unsignedDkim platform rawMessage domain selector timestamp
  let own := canonicalizeHeader platform ("DKIM-Signature: " ++ unsigned)
  (selectHeaders platform rawMessage).flatMap signedLine ++
    (own.map (fun header => header.1 ++ ':' :: header.2)).getD []

/-- `sign`, for a signer that signs octets with the key. -/
def sign (platform : Platform) (signer : Bytes → Bytes) (rawMessage : Bytes)
    (domain selector : Text) (timestamp : Int) : Text :=
  "DKIM-Signature: " ++ unsignedDkim platform rawMessage domain selector timestamp ++
    platform.base64Encode
      (signer (encode (signingInput platform rawMessage domain selector timestamp)))

end Camelmailer.Dkim
