import Camelmailer.Text.Lines
import Camelmailer.Text.Str

/-!
# The outgoing SMTP client

The part of `camelmailer-worker/src/smtp_client.rs` that writes a message after the
receiver has answered DATA with 354: lines are cut at line feeds, given CRLF line
ends, and a leading dot is doubled.
-/

namespace Camelmailer.Worker

open Utf8 Lines

/-- `send_line`: a command and its line end. -/
def sendLine (line : Text) : Bytes := encode line ++ CRLF

/-- The lines of a message. A final line feed does not begin another line. -/
def dataLines (rawMessage : Bytes) : List Bytes :=
  let lines := rawMessage.splitOn LF
  if lines.getLast? = some [] then lines.dropLast else lines

/-- A line without the carriage return of its line end. -/
def withoutCr (line : Bytes) : Bytes := (Str.stripLast CR line).getD line

/-- A line as it is written. -/
def wireLine (line : Bytes) : Bytes :=
  (if (withoutCr line).head? = some 0x2E then [0x2E] else []) ++ withoutCr line ++ CRLF

/-- `send_data`: the octets written for a message, the final dot included. -/
def sendData (rawMessage : Bytes) : Bytes :=
  (dataLines rawMessage).flatMap wireLine ++ sendLine ['.']

/-- The lines of a message are the complete ones and an unfinished one that is not
empty. -/
theorem dataLines_unlines (lines : List Bytes) (tail : Bytes)
    (unbroken : ∀ line ∈ lines, LF ∉ line) (open_ : LF ∉ tail) :
    dataLines (unlines lines ++ tail) = lines ++ (if tail = [] then [] else [tail]) := by
  have pieces : (unlines lines ++ tail).splitOn LF = lines ++ [tail] := by
    rw [splitOn_unlines lines tail unbroken, List.splitOn_eq_singleton open_]
  unfold dataLines
  rw [pieces]
  by_cases blank : tail = []
  · simp [blank]
  · simp [blank]

end Camelmailer.Worker
