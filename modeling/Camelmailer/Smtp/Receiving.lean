import Camelmailer.Smtp.Server
import Mathlib.Data.List.Infix

/-!
# Receiving a message

While a message is received, a line either ends it or becomes content. Whether it
ends it depends on the line and on how the line before ended: `Continues` follows this
over a sequence of lines. A sequence that continues is swallowed without a reply, and
the message grows by the lines, dot-unstuffed and with CRLF line ends.
-/

namespace Camelmailer.Smtp

open Utf8

/-- A session that is receiving a message. -/
structure Receiving (session : Session) : Prop where
  connected : session.state ≠ .preauth
  mode : session.inputMode = .data
  headers : session.headers.isSome = true

/-- What a sequence of message lines adds to the message. -/
def contentOf (lines : List Text) : Bytes :=
  lines.flatMap (fun line => encode (unstuff (chomp line)) ++ Lines.CRLF)

/-- The line that can end a message. -/
def dotLine : Text := ['.', '\r']

/-- Lines none of which ends the message, given how the line before them ended. -/
def Continues : Option Bool → List Text → Prop
  | _, [] => True
  | previous, line :: rest =>
      ¬ (line = dotLine ∧ previous = some true) ∧ Continues (some (hasCr line)) rest

/-- How the last of a sequence of lines ended. -/
def lastEnd (previous : Option Bool) (lines : List Text) : Option Bool :=
  lines.foldl (fun _ line => some (hasCr line)) previous

/-- A session reads a line that ends its message. -/
def Finishes (session : Session) (line : Text) : Prop :=
  endsMessage { session with crPresent := hasCr line } (chomp line)

instance (session : Session) (line : Text) : Decidable (Finishes session line) := by
  unfold Finishes endsMessage
  infer_instance

theorem eq_dotLine_iff (line : Text) : line = dotLine ↔ chomp line = ['.'] ∧ hasCr line = true := by
  constructor
  · rintro rfl
    exact ⟨rfl, rfl⟩
  · rintro ⟨dot, carriage⟩
    have last : line.getLast? = some '\r' := by simpa [hasCr] using carriage
    have chomped : chomp line = line.dropLast := by
      unfold chomp Str.stripLast
      rw [if_pos last]
      rfl
    have whole := List.dropLast_append_getLast? '\r' last
    rw [← chomped, dot] at whole
    exact whole.symm

variable {session : Session}

theorem finishes_iff (receiving : Receiving session) (line : Text) :
    Finishes session line ↔ line = dotLine ∧ session.previousCrPresent = some true := by
  unfold Finishes endsMessage endsData
  rw [eq_dotLine_iff]
  constructor
  · simpa using ended
  · intro ended
    exact ⟨receiving.connected, receiving.mode, by simpa using ended⟩

section

variable (platform : Platform) (env : Env) (line : Text) (receiving : Receiving session)
  (continued : ¬ Finishes session line)
include platform env line receiving continued

/-- A message line that does not end the message is received. -/
theorem dispatch_receives :
    dispatch platform env { session with crPresent := hasCr line } (chomp line) =
      receiveLine platform { session with crPresent := hasCr line } (chomp line) := by
  have unfinished : endsData { session with crPresent := hasCr line } (chomp line) ≠ true := by
    intro ended
    exact continued ⟨receiving.connected, receiving.mode, ended⟩
  unfold dispatch dataLine
  rw [if_neg receiving.connected, receiving.mode]
  exact if_neg unfinished

/-- A message line that does not end the message is swallowed, and nothing but the message and what
is kept about its headers and lines changes. -/
theorem sessionStep_content :
    ∃ headers key still, headers.isSome = session.headers.isSome ∧
      sessionStep platform session ⟨env, line⟩ = some (⟨.none, []⟩,
        { session with
          data := session.data.map (· ++ encode (unstuff (chomp line)) ++ Lines.CRLF)
          headers := headers
          headerKey := key
          receivingHeaders := still
          crPresent := hasCr line
          previousCrPresent := some (hasCr line) }) := by
  have dispatched := dispatch_receives platform env line receiving continued
  obtain ⟨missing, -⟩ | ⟨headers, key, still, present, received⟩ :=
    receiveLine_frame platform { session with crPresent := hasCr line } (chomp line)
  · exact absurd receiving.headers (by rw [show session.headers = none from missing]; simp)
  · refine ⟨headers, key, still, present, ?_⟩
    unfold sessionStep handle
    rw [dispatched, received]
    rfl

theorem sessionStep_receives :
    ∃ next, sessionStep platform session ⟨env, line⟩ = some (⟨.none, []⟩, next) ∧
      Receiving next ∧ next.previousCrPresent = some (hasCr line) ∧
      next.data = session.data.map (· ++ (encode (unstuff (chomp line)) ++ Lines.CRLF)) := by
  obtain ⟨headers, key, still, present, stepped⟩ :=
    sessionStep_content platform env line receiving continued
  refine ⟨_, stepped, ⟨receiving.connected, receiving.mode, ?_⟩, rfl, ?_⟩
  · exact present.trans receiving.headers
  · simp only [List.append_assoc]

end

/-- A sequence of lines that continues is swallowed, and all of it becomes content. -/
theorem run_receives (platform : Platform) (inputs : List LineInput) (receiving : Receiving session)
    (continued : Continues session.previousCrPresent (inputs.map LineInput.line)) :
    ∃ events final, Machine.run (sessionStep platform) session inputs = some (events, final) ∧
      (∀ event ∈ events, event.output = ⟨.none, []⟩ ∧ event.after.inputMode = .data) ∧
      Receiving final ∧
      final.previousCrPresent = lastEnd session.previousCrPresent (inputs.map LineInput.line) ∧
      final.data = session.data.map (· ++ contentOf (inputs.map LineInput.line)) := by
  induction inputs generalizing session with
  | nil => exact ⟨[], session, rfl, by simp, receiving, rfl, by simp [contentOf]⟩
  | cons input inputs ih =>
      obtain ⟨env, line⟩ := input
      obtain ⟨unfinished, rest⟩ := continued
      obtain ⟨next, stepped, still, ending, grown⟩ := sessionStep_receives platform env line receiving
        (fun finishes => unfinished ((finishes_iff receiving line).mp finishes))
      obtain ⟨events, final, ran, silent, after, lastly, whole⟩ :=
        ih still (by rw [ending]; exact rest)
      refine ⟨⟨session, ⟨env, line⟩, ⟨.none, []⟩, next⟩ :: events, final, ?_, ?_, after, ?_, ?_⟩
      · simp [Machine.run, stepped, ran]
      · intro event member
        rcases List.mem_cons.mp member with rfl | later
        · exact ⟨rfl, still.mode⟩
        · exact silent event later
      · rw [lastly, ending]
        rfl
      · rw [whole, grown]
        simp [contentOf, Function.comp_def]

end Camelmailer.Smtp
