import Camelmailer.Core.Model

/-!
# Generated trace headers

The values of the `Received` and `Received-SPF` headers that intake writes in
front of a message. Both are built from text the client controls: the HELO name
and the envelope sender.
-/

namespace Camelmailer

open Utf8

inductive ReceiveMethod where
  | smtp
  | http
deriving DecidableEq

def ReceiveMethod.asStr : ReceiveMethod → Text
  | .smtp => "SMTP"
  | .http => "HTTP"

/-- `received_header::generate`. In privacy mode the client's details are left out. -/
def receivedHeader (platform : Platform) (privacyMode : Bool) (helo resolvedHostname ipAddress : Text)
    (method : ReceiveMethod) (ourHostname : Text) (now : DateTime) : Text :=
  let header := "by " ++ ourHostname ++ " with " ++ method.asStr ++ "; " ++
    platform.rfc2822 now
  if privacyMode then header
  else "from " ++ helo ++ " (" ++ resolvedHostname ++ " [" ++ ipAddress ++
    "]) " ++ header

inductive SpfResult where
  | pass
  | fail
  | softFail
  | neutral
  | none
  | tempError
  | permError
deriving DecidableEq

def SpfResult.asStr : SpfResult → Text
  | .pass => "pass"
  | .fail => "fail"
  | .softFail => "softfail"
  | .neutral => "neutral"
  | .none => "none"
  | .tempError => "temperror"
  | .permError => "permerror"

/-- The comment of a `Received-SPF` header. -/
def spfComment (result : SpfResult) (receiver envelopeFrom clientIp : Text) : Text :=
  receiver ++ ": " ++ match result with
  | .pass => "domain of " ++ envelopeFrom ++ " designates " ++ clientIp ++
      " as permitted sender"
  | .fail => "domain of " ++ envelopeFrom ++ " does not designate " ++ clientIp ++
      " as permitted sender"
  | .softFail => "domain of transitioning " ++ envelopeFrom ++
      " does not designate " ++ clientIp ++ " as permitted sender"
  | .neutral => clientIp ++ " is neither permitted nor denied by domain of " ++ envelopeFrom
  | .none => envelopeFrom ++ " does not publish an SPF policy"
  | .tempError => "transient error resolving SPF for " ++ envelopeFrom
  | .permError => "permanent error evaluating SPF for " ++ envelopeFrom

def receivedSpfHeader (platform : Platform) (result : SpfResult) (receiver envelopeFrom : Text)
    (clientIp : IpAddr) (helo : Text) : Text :=
  let ip := platform.showIp clientIp
  let header := result.asStr ++ " (" ++ spfComment result receiver envelopeFrom ip ++
    ") client-ip=" ++ ip ++ "; envelope-from=<" ++ envelopeFrom ++ ">;"
  if helo = [] then header else header ++ " helo=" ++ helo ++ ";"

end Camelmailer
