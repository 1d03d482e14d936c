import Camelmailer.Api.Send
import Camelmailer.Smtp.PlainAddresses
import Camelmailer.Worker.Domains
import Camelmailer.Worker.Streams

/-!
# The lines of a dialogue

The client writes its commands one after the other, each with a line end, and puts addresses between
angle brackets. Nothing in it looks at what the addresses are made of. A line feed inside of one ends
the command there, and the other side takes what follows for the next; behind an angle bracket it
reads parameters.

An address that a session has read off a command line holds neither. One that has come over HTTP is
the text of the request.
-/

namespace Camelmailer.Worker.Dialogue

open Utf8 Lines

/-! ## Commands -/

section Commands

variable (externals : Externals) (params : SendParams) (rawMessage : Bytes)

def ehlo : Text := "EHLO " ++ params.heloHostname

def helo : Text := "HELO " ++ params.heloHostname

def mailFrom : Text := "MAIL FROM:<" ++ params.mailFrom ++ ['>']

def rcptTo : Text := "RCPT TO:<" ++ params.rcptTo ++ ['>']

/-- The commands up to the credentials. -/
def openings : List (List Text) :=
  [[ehlo params], [ehlo params, helo params], [ehlo params, "STARTTLS"],
    [ehlo params, "STARTTLS", ehlo params]]

def credentials : List Text :=
  (params.auth.map (fun auth => "AUTH PLAIN " ++ plainToken externals auth)).toList

/-- All that is written for one message. -/
def exchange (opening : List Text) : List Bytes :=
  (opening ++ credentials externals params ++
      [mailFrom params, rcptTo params, "DATA"]).map sendLine ++
    [(dataLines rawMessage).flatMap wireLine, sendLine ['.'], sendLine "QUIT"]

/-- The commands but for the credentials. -/
def commands : List Text :=
  [ehlo params, helo params, "STARTTLS", mailFrom params, rcptTo params, "DATA",
    ['.'], "QUIT"]

end Commands

/-- What the other side reads as the address of MAIL FROM or RCPT TO: what stands between the first
two angle brackets. -/
def pathOf (line : Text) : Option Text :=
  (Str.splitOnce '<' line).bind (fun parts => (Str.splitOnce '>' parts.2).map Prod.fst)

/-- On a connection there are the commands for one message, each is one line to the other side, and
the addresses that it reads are the ones that were meant. -/
structure CommandsRead (externals : Externals) (params : SendParams) (rawMessage : Bytes)
    (log : List Entry) : Prop where
  ordered : ∃ opening ∈ openings params, writes log <+: exchange externals params rawMessage opening
  lines : ∀ command ∈ commands params, sendLine command ∈ writes log →
    complete (sendLine command) = [encode command ++ [CR]]
  sender : sendLine (mailFrom params) ∈ writes log → pathOf (mailFrom params) = some params.mailFrom
  recipient : sendLine (rcptTo params) ∈ writes log → pathOf (rcptTo params) = some params.rcptTo

/-! ## A line -/

/-- A line without its line feed is one line to the other side. -/
theorem complete_sendLine_iff (line : Text) :
    complete (sendLine line) = [encode line ++ [CR]] ↔ '\n' ∉ line := by
  have spelled : sendLine line = (encode line ++ [CR]) ++ LF :: [] := by
    simp [sendLine, CRLF]
  constructor
  · intro one feed
    obtain ⟨tail, -, -, unbroken⟩ := stream_lines (sendLine line)
    rw [one] at unbroken
    refine unbroken _ (List.mem_singleton_self _) (List.mem_append_left _ ?_)
    exact feed_mem_encode.mpr feed
  · intro absent
    have unbroken : LF ∉ encode line ++ [CR] := by
      intro member
      rcases List.mem_append.mp member with within | last
      · exact absent (feed_mem_encode.mp within)
      · exact absurd (List.mem_singleton.mp last) (by decide)
    rw [spelled, complete_line _ _ unbroken]
    rfl

/-- Between angle brackets an address is read as it is if it closes none. -/
theorem pathOf_iff (front address : Text) (opening : '<' ∉ front) :
    pathOf (front ++ '<' :: (address ++ ['>'])) = some address ↔ '>' ∉ address := by
  have opened : Str.splitOnce '<' (front ++ '<' :: (address ++ ['>'])) =
      some (front, address ++ ['>']) := Str.splitOnce_eq_some.mpr ⟨rfl, opening⟩
  unfold pathOf
  rw [opened]
  dsimp only [Option.bind_some]
  constructor
  · intro read
    obtain ⟨⟨path, rest⟩, closed, rfl⟩ := Option.map_eq_some_iff.mp read
    exact (Str.splitOnce_eq_some.mp closed).2
  · intro absent
    rw [Str.splitOnce_eq_some.mpr ⟨rfl, absent⟩]
    rfl

theorem mailFrom_path (params : SendParams) :
    pathOf (mailFrom params) = some params.mailFrom ↔ '>' ∉ params.mailFrom :=
  pathOf_iff "MAIL FROM:" params.mailFrom (by decide)

theorem rcptTo_path (params : SendParams) :
    pathOf (rcptTo params) = some params.rcptTo ↔ '>' ∉ params.rcptTo :=
  pathOf_iff "RCPT TO:" params.rcptTo (by decide)

/-! ## What is written -/

section Writes

variable {externals : Externals} {params : SendParams} {rawMessage : Bytes}

/-- What a program writes is within some lines. -/
def Writes (lines : List Bytes) (program : Talk Attempt) : Prop :=
  Leaves program (fun added _ => writes added <+: lines)

variable {lines : List Bytes}

theorem Writes.silent (attempt : Attempt) :
    Writes lines (Pure.pure attempt : Talk Attempt) :=
  Leaves.pure _ List.nil_prefix

variable {stage : Stage}

/-- A question that has been answered has been written. -/
theorem Asked.writes_ok {written added : List Entry} {reply : Nat × Text}
    (asked : Asked stage written added (.ok reply)) : writes added = writes written := by
  obtain rfl := asked
  rw [writes_append]
  exact List.append_nil _

theorem Asked.writes_error {written added : List Entry} {error : Text}
    (asked : Asked stage written added (.error error)) : writes added <+: writes written :=
  List.IsPrefix.filterMap Entry.written asked

theorem Writes.orStop {line : Text} {accepts : Nat → Bool} {tls : Bool} {next : Talk Attempt}
    (continues : Writes lines next) :
    Writes (sendLine line :: lines) (orStop accepts tls (command stage line) next) := by
  refine (leaves_command stage line).bind ?_ ?_
  · intro added error asked
    exact asked.writes_error.trans ((List.cons_prefix_cons).mpr ⟨rfl, List.nil_prefix⟩)
  · rintro added ⟨code, response⟩ asked
    have rest : Writes lines (if accepts code then next
        else return .complete (classify code response tls)) := by
      split_ifs
      · exact continues
      · exact Writes.silent _
    refine rest.mono ?_
    intro more result within
    rw [writes_append, asked.writes_ok]
    exact (List.cons_prefix_cons).mpr ⟨rfl, within⟩

theorem writes_goodbye (outcome : SendOutcome) :
    Writes [sendLine "QUIT"] (sayGoodbye outcome) := by
  intro connection
  obtain ⟨added, log, holds⟩ := leaves_write (sendLine "QUIT") connection
  refine ⟨added, log, ?_⟩
  cases result : (write (sendLine "QUIT") connection).1 with
  | error error =>
      rw [result] at holds
      rw [holds]
      exact List.nil_prefix
  | ok done =>
      rw [result] at holds
      rw [holds]
      exact List.prefix_rfl

/-- All that is written for the message itself. -/
def transaction (params : SendParams) (rawMessage : Bytes) : List Bytes :=
  [mailFrom params, rcptTo params, "DATA"].map sendLine ++
    [(dataLines rawMessage).flatMap wireLine, sendLine ['.'], sendLine "QUIT"]

theorem writes_transfer (tls : Bool) :
    Writes (transaction params rawMessage) (transfer params rawMessage tls) := by
  refine Writes.orStop (Writes.orStop (Writes.orStop ?_))
  refine (leaves_transmit rawMessage).bind ?_ ?_
  · intro added error asked
    exact asked.writes_error.trans (List.prefix_append _ [sendLine "QUIT"])
  · rintro added ⟨code, response⟩ asked
    refine (writes_goodbye _).mono ?_
    intro more result within
    rw [writes_append, asked.writes_ok]
    exact (List.prefix_append_right_inj [_, _]).mpr within

/-- The credentials, and all that is written for the message. -/
def behindOpening (externals : Externals) (params : SendParams) (rawMessage : Bytes) : List Bytes :=
  (credentials externals params).map sendLine ++ transaction params rawMessage

theorem exchange_eq (opening : List Text) : exchange externals params rawMessage opening =
    opening.map sendLine ++ behindOpening externals params rawMessage := by
  unfold exchange behindOpening transaction
  simp only [List.map_append, List.append_assoc]

theorem writes_demandTls (tls : Bool) : Writes (behindOpening externals params rawMessage)
    (demandTls externals params rawMessage tls) := by
  unfold demandTls authenticate behindOpening credentials
  split_ifs
  · exact Writes.silent _
  · cases params.auth with
    | none => exact writes_transfer tls
    | some auth => exact Writes.orStop (writes_transfer tls)

theorem writes_upgrade (peer : Peer) :
    Writes (sendLine (ehlo params) :: behindOpening externals params rawMessage)
      (upgrade externals params rawMessage peer) := by
  unfold upgrade
  split
  · split_ifs
    · exact Writes.silent _
    · exact fun _ => ⟨[], (List.append_nil _).symm, List.nil_prefix⟩
  · refine (leaves_switchTo peer.secure).bind (fun _ _ failed => by cases failed.2) ?_
    rintro added ⟨⟩ ⟨rfl, -⟩
    have greeted : Writes (sendLine (ehlo params) :: behindOpening externals params rawMessage)
        (orStop isSuccess true (command .ehloSecure (ehlo params))
          (demandTls externals params rawMessage true)) := Writes.orStop (writes_demandTls true)
    exact greeted

/-- What a program writes is within one of some openings and what comes behind it. -/
def Opens (openings : List (List Text)) (rest : List Bytes) (added : List Entry) : Prop :=
  ∃ opening ∈ openings, writes added <+: opening.map sendLine ++ rest

variable {rest : List Bytes}

theorem writes_opens (opening : List Text) {program : Talk Attempt}
    (within : Writes (opening.map sendLine ++ rest) program) {openings : List (List Text)}
    (member : opening ∈ openings) : Leaves program (fun added _ => Opens openings rest added) :=
  within.mono (fun _ _ written => ⟨opening, member, written⟩)

/-- A command opens what the reply leads to. -/
theorem leaves_opens (openings : List (List Text)) {line : Text} {next : Nat × Text → Talk Attempt}
    {opening : List Text} (member : opening ∈ openings)
    (continues : ∀ reply, Leaves (next reply) (fun added _ => Opens openings rest added)) :
    Leaves (command stage line >>= next)
      (fun added _ => Opens (openings.map (line :: ·)) rest added) := by
  refine (leaves_command stage line).bind ?_ ?_
  · intro added error asked
    refine ⟨line :: opening, List.mem_map_of_mem member, asked.writes_error.trans ?_⟩
    exact (List.cons_prefix_cons).mpr ⟨rfl, List.nil_prefix⟩
  · intro added reply asked
    refine (continues reply).mono ?_
    rintro more result ⟨other, known, within⟩
    refine ⟨line :: other, List.mem_map_of_mem known, ?_⟩
    rw [writes_append, asked.writes_ok]
    exact (List.cons_prefix_cons).mpr ⟨rfl, within⟩

theorem opens_startTls (peer : Peer) (tls : Bool) :
    Leaves (startTls externals params rawMessage peer tls) (fun added _ =>
      Opens [["STARTTLS"], ["STARTTLS", ehlo params]]
        (behindOpening externals params rawMessage) added) := by
  refine leaves_opens [[], [ehlo params]] (List.mem_cons_self ..) ?_
  rintro ⟨code, response⟩
  dsimp only
  split_ifs with accepted required
  · exact writes_opens [ehlo params] (writes_upgrade peer) (by simp)
  · exact writes_opens [] (Writes.silent _) (by simp)
  · exact writes_opens [] (writes_demandTls tls) (by simp)

theorem opens_sayHello (peer : Peer) (tls allowStartTls : Bool) :
    Leaves (sayHello externals params rawMessage peer tls allowStartTls) (fun added _ =>
      Opens (openings params) (behindOpening externals params rawMessage) added) := by
  refine leaves_opens [[], [helo params], ["STARTTLS"],
    ["STARTTLS", ehlo params]] (List.mem_cons_self ..) ?_
  rintro ⟨code, ehloResponse⟩
  dsimp only
  split_ifs with refused wanted
  · have greeted : Writes ([helo params].map sendLine ++ behindOpening externals params rawMessage)
        (orStop isSuccess tls (command .helo (helo params))
          (demandTls externals params rawMessage tls)) := Writes.orStop (writes_demandTls tls)
    exact writes_opens [helo params] greeted (by simp)
  · refine (opens_startTls peer tls).mono ?_
    rintro added result ⟨opening, member, within⟩
    exact ⟨opening, List.mem_of_mem_drop (i := 2) member, within⟩
  · exact writes_opens [] (writes_demandTls tls) (by simp)

/-- What an attempt writes is within the commands of one message. -/
theorem trySend_ordered (peer : Peer) (allowStartTls : Bool) :
    ∃ opening ∈ openings params,
      writes (trySend externals params rawMessage peer allowStartTls).2 <+:
        exchange externals params rawMessage opening := by
  have first : [ehlo params] ∈ openings params := List.mem_cons_self ..
  have opens : Leaves (dialogue externals params rawMessage peer
      (decide (params.security = .implicitTls)) allowStartTls) (fun added _ =>
        Opens (openings params) (behindOpening externals params rawMessage) added) := by
    refine leaves_greeting.bind ?_ ?_
    · intro added error asked
      obtain rfl := List.prefix_nil.mp asked
      exact ⟨_, first, List.nil_prefix⟩
    · rintro added ⟨code, text⟩ rfl
      dsimp only
      split_ifs
      · exact opens_sayHello peer _ allowStartTls
      · exact Leaves.pure _ ⟨_, first, List.nil_prefix⟩
  obtain ⟨error, tried⟩ | ⟨added, result, tried, opening, member, within⟩ := trySend_leaves opens
  · rw [tried]
    exact ⟨_, first, List.nil_prefix⟩
  · rw [tried]
    refine ⟨opening, member, ?_⟩
    rw [exchange_eq]
    split_ifs <;> exact within

end Writes

theorem first_mem_connectionLogs (externals : Externals) (params : SendParams) (rawMessage : Bytes)
    (first second : Peer) : (trySend externals params rawMessage first true).2 ∈
      connectionLogs externals params rawMessage first second := by
  unfold connectionLogs
  split
  · next log tried => rw [tried]; exact List.mem_cons_self ..
  · next result log other tried => rw [tried]; exact List.mem_singleton_self _

theorem connectionLogs_ordered {externals : Externals} {params : SendParams} {rawMessage : Bytes}
    {first second : Peer} {log : List Entry}
    (member : log ∈ connectionLogs externals params rawMessage first second) :
    ∃ opening ∈ openings params, writes log <+: exchange externals params rawMessage opening := by
  have ordered (peer : Peer) (allowStartTls : Bool) {result : Except Text Attempt} {log : List Entry}
      (tried : trySend externals params rawMessage peer allowStartTls = (result, log)) :
      ∃ opening ∈ openings params, writes log <+: exchange externals params rawMessage opening := by
    have within := @trySend_ordered externals params rawMessage peer allowStartTls
    rwa [tried] at within
  unfold connectionLogs at member
  split at member
  · next refused tried =>
    rcases List.mem_cons.mp member with rfl | last
    · exact ordered first true tried
    · rw [List.mem_singleton.mp last]
      exact ordered second false rfl
  · next result other _ tried =>
    rw [List.mem_singleton.mp member]
    exact ordered first true tried

/-! ## A server that agrees -/

section Agreeing

variable {params : SendParams} {stage : Stage} {line : Text} {rest : List Bytes} {ending : Text}
  {log : List Entry} {tls : Bool}

/-- A reply that is its code. -/
def codeLine (code : Nat) : Bytes := encode (decimal code)

def codeEntry (stage : Stage) (code : Nat) : Entry := .reply stage code (decimal code)

/-- The codes that the server uses. -/
def agreeingCodes : List Nat := [220, 235, 250]

variable {code : Nat}

theorem readLines_code (known : code ∈ agreeingCodes) :
    readLines ending [] (codeLine code :: rest) = (.ok (code, decimal code), rest) := by
  have spelled : ∀ code ∈ agreeingCodes, continues (lineText (codeLine code)) = false ∧
      replyCode (lineText (codeLine code)) = code ∧
      Str.trim ([] ++ lineText (codeLine code) ++ ['\n']) = decimal code := by decide
  obtain ⟨single, numbered, shown⟩ := spelled code known
  unfold readLines
  dsimp only
  rw [single, numbered, shown, if_neg Bool.false_ne_true]

theorem readReply_run (known : code ∈ agreeingCodes) :
    readReply stage ⟨codeLine code :: rest, ending, [], log⟩ =
      (.ok (code, decimal code), ⟨rest, ending, [], log ++ [codeEntry stage code]⟩) := by
  unfold readReply
  rw [readLines_code known]
  rfl

theorem write_run (octets : Bytes) (lines : List Bytes) (ending : Text) (log : List Entry) :
    write octets ⟨lines, ending, [], log⟩ = (.ok (), ⟨lines, ending, [], log ++ [.wrote octets]⟩) :=
  rfl

theorem command_run (known : code ∈ agreeingCodes) :
    command stage line ⟨codeLine code :: rest, ending, [], log⟩ =
      (.ok (code, decimal code),
        ⟨rest, ending, [], log ++ [.wrote (sendLine line)] ++ [codeEntry stage code]⟩) := by
  unfold command
  rw [bind_ok (write_run (sendLine line) _ ending log)]
  exact readReply_run known

theorem orStop_run {accepts : Nat → Bool} {next : Talk Attempt} (known : code ∈ agreeingCodes)
    (accepted : accepts code = true) :
    orStop accepts tls (command stage line) next ⟨codeLine code :: rest, ending, [], log⟩ =
      next ⟨rest, ending, [],
        log ++ [.wrote (sendLine line)] ++ [codeEntry stage code]⟩ := by
  unfold orStop
  rw [bind_ok (command_run known)]
  dsimp only
  rw [if_pos accepted]

/-- From a connection on, the sender and the recipient are named. -/
def Names (params : SendParams) (program : Talk Attempt) (connection : Connection) : Prop :=
  connection.log <+: (program connection).2.log ∧
    .wrote (sendLine (mailFrom params)) ∈ (program connection).2.log ∧
    .wrote (sendLine (rcptTo params)) ∈ (program connection).2.log

/-- A program that goes on to name them. -/
theorem Names.of_run {program next : Talk Attempt} {connection later : Connection}
    (names : Names params next later) (ran : program connection = next later)
    (grows : connection.log <+: later.log) : Names params program connection := by
  unfold Names at names ⊢
  rw [ran]
  exact ⟨grows.trans names.1, names.2⟩

theorem grows_twice (log : List Entry) (first second : Entry) :
    log <+: log ++ [first] ++ [second] :=
  (List.prefix_append _ _).trans (List.prefix_append _ _)

/-- The replies from the credentials on. The server is gone after the recipient. -/
def lastCodes (params : SendParams) : List Nat :=
  match params.auth with
  | none => [250]
  | some _ => [235, 250]

theorem transfer_names :
    Names params (transfer params [] tls) ⟨[codeLine 250], ending, [], log⟩ := by
  have ran : transfer params [] tls ⟨[codeLine 250], ending, [], log⟩ =
      (.error ending, ⟨[], ending, [], log ++ [.wrote (sendLine (mailFrom params))] ++
        [codeEntry .mailFrom 250] ++ [.wrote (sendLine (rcptTo params))]⟩) := by
    unfold transfer
    rw [orStop_run (by decide) (by decide)]
    rfl
  unfold Names
  rw [ran]
  simp

theorem demandTls_names (externals : Externals)
    (allowed : ¬(params.security = .requireStartTls ∧ tls = false)) :
    Names params (demandTls externals params [] tls)
      ⟨(lastCodes params).map codeLine, ending, [], log⟩ := by
  unfold demandTls
  rw [if_neg allowed]
  unfold authenticate lastCodes
  cases params.auth with
  | none => exact transfer_names
  | some auth =>
      exact transfer_names.of_run (orStop_run (by decide) (by decide)) (grows_twice _ _ _)

/-- What the other side offers, and the names of all servers are valid. -/
def agreeing (params : SendParams) : Externals where
  toUppercase _ := if params.security = .requireStartTls then "STARTTLS" else []
  base64 _ := []
  validServerName _ := true

theorem wantsStartTls_agreeing (params : SendParams) (tls : Bool) (response : Text)
    (opened : params.security = .implicitTls ↔ tls = true) :
    wantsStartTls (agreeing params) params tls true response =
      decide (params.security = .requireStartTls) := by
  have offered : Str.contains "STARTTLS" "STARTTLS" = true := by decide
  have silent : Str.contains [] "STARTTLS" = false := by decide
  unfold wantsStartTls
  by_cases required : params.security = .requireStartTls
  · have plain : tls = false := by
      cases tls with
      | false => rfl
      | true =>
          rw [required] at opened
          cases opened.mpr rfl
    have offers : (agreeing params).toUppercase response = "STARTTLS" := if_pos required
    rw [offers, offered]
    simp [required, plain]
  · have offers : (agreeing params).toUppercase response = [] := if_neg required
    rw [offers, silent]
    simp [required]

/-- The codes after the greeting, until the stream is encrypted. -/
def plainCodes (params : SendParams) : List Nat :=
  250 :: (if params.security = .requireStartTls then [220] else lastCodes params)

/-- A server that accepts the client's name, its credentials and its sender. -/
def cooperating (params : SendParams) : Peer where
  lookup := .ok [⟨params.sourceIp.getD (.v4 0), params.port⟩]
  connectTo _ := .ok ()
  handshake _ := .ok ()
  plain := ⟨unlines ((220 :: plainCodes params).map codeLine), []⟩
  secure := ⟨unlines ((if params.security = .requireStartTls then 250 :: lastCodes params
    else 220 :: plainCodes params).map codeLine), []⟩
  failures := []

theorem complete_codes {codes : List Nat} (known : ∀ code ∈ codes, code ∈ agreeingCodes) :
    complete (unlines (codes.map codeLine)) = codes.map codeLine := by
  have single : ∀ code ∈ agreeingCodes, LF ∉ codeLine code := by decide
  have unbroken : ∀ line ∈ codes.map codeLine, LF ∉ line := by
    intro line member
    obtain ⟨code, included, rfl⟩ := List.mem_map.mp member
    exact single code (known code included)
  simpa using complete_unlines (codes.map codeLine) [] unbroken List.not_mem_nil

theorem lastCodes_known (params : SendParams) : ∀ code ∈ lastCodes params, code ∈ agreeingCodes := by
  unfold lastCodes
  cases params.auth with
  | none => exact (by decide : ∀ code ∈ [250], code ∈ agreeingCodes)
  | some _ => exact (by decide : ∀ code ∈ [235, 250], code ∈ agreeingCodes)

theorem plainCodes_known (params : SendParams) :
    ∀ code ∈ 220 :: plainCodes params, code ∈ agreeingCodes := by
  intro code member
  rcases List.mem_cons.mp member with rfl | member
  · decide
  · rcases List.mem_cons.mp member with rfl | member
    · decide
    · split_ifs at member
      · rw [List.mem_singleton.mp member]
        decide
      · exact lastCodes_known params code member

theorem startTls_names (required : params.security = .requireStartTls) :
    Names params (startTls (agreeing params) params [] (cooperating params) tls)
      ⟨[codeLine 220], ending, [], log⟩ := by
  have secured : complete (cooperating params).secure.octets =
      codeLine 250 :: (lastCodes params).map codeLine := by
    unfold cooperating
    rw [if_pos required, complete_codes]
    · rfl
    · intro code member
      rcases List.mem_cons.mp member with rfl | later
      · decide
      · exact lastCodes_known params code later
  have upgraded (log : List Entry) :
      Names params (upgrade (agreeing params) params [] (cooperating params))
        ⟨[], ending, [], log⟩ := by
    have greeted : Names params (orStop isSuccess true (command .ehloSecure (ehlo params))
        (demandTls (agreeing params) params [] true))
        ⟨codeLine 250 :: (lastCodes params).map codeLine, [], [], log ++ [.secured]⟩ :=
      (demandTls_names _ (fun both => Bool.noConfusion both.2)).of_run
        (orStop_run (by decide) (by decide)) (grows_twice _ _ _)
    refine greeted.of_run ?_ (List.prefix_append _ _)
    rw [← secured]
    rfl
  refine (upgraded _).of_run ?_ (grows_twice log (.wrote (sendLine "STARTTLS"))
    (codeEntry .startTls 220))
  unfold startTls
  rw [bind_ok (command_run (by decide))]
  rfl

theorem sayHello_names (opened : params.security = .implicitTls ↔ tls = true) :
    Names params (sayHello (agreeing params) params [] (cooperating params) tls true)
        ⟨(plainCodes params).map codeLine, ending, [], log⟩ ∧
      .wrote (sendLine (ehlo params)) ∈ (sayHello (agreeing params) params [] (cooperating params)
        tls true ⟨(plainCodes params).map codeLine, ending, [], log⟩).2.log := by
  have greeted (next : Talk Attempt)
      (names : Names params next ⟨(plainCodes params).tail.map codeLine, ending, [],
        log ++ [.wrote (sendLine (ehlo params))] ++ [codeEntry .ehlo 250]⟩)
      (ran : sayHello (agreeing params) params [] (cooperating params) tls true
          ⟨(plainCodes params).map codeLine, ending, [], log⟩ =
        next ⟨(plainCodes params).tail.map codeLine, ending, [],
          log ++ [.wrote (sendLine (ehlo params))] ++ [codeEntry .ehlo 250]⟩) :
      Names params (sayHello (agreeing params) params [] (cooperating params) tls true)
        ⟨(plainCodes params).map codeLine, ending, [], log⟩ ∧
      .wrote (sendLine (ehlo params)) ∈ (sayHello (agreeing params) params [] (cooperating params)
        tls true ⟨(plainCodes params).map codeLine, ending, [], log⟩).2.log := by
    refine ⟨names.of_run ran (grows_twice _ _ _), ?_⟩
    rw [ran]
    exact names.1.subset (by simp)
  have asked : command .ehlo ("EHLO " ++ params.heloHostname)
      ⟨(plainCodes params).map codeLine, ending, [], log⟩ =
        (.ok (250, decimal 250), ⟨(plainCodes params).tail.map codeLine, ending, [],
          log ++ [.wrote (sendLine (ehlo params))] ++ [codeEntry .ehlo 250]⟩) :=
    command_run (by decide)
  have wanted := wantsStartTls_agreeing params tls (decimal 250) opened
  by_cases required : params.security = .requireStartTls
  · refine greeted (startTls (agreeing params) params [] (cooperating params) tls) ?_ ?_
    · unfold plainCodes
      rw [if_pos required]
      exact startTls_names required
    · unfold sayHello
      rw [bind_ok asked]
      dsimp only
      rw [wanted, decide_eq_true required]
      rfl
  · refine greeted (demandTls (agreeing params) params [] tls) ?_ ?_
    · unfold plainCodes
      rw [if_neg required]
      exact demandTls_names _ (fun both => required both.1)
    · unfold sayHello
      rw [bind_ok asked]
      dsimp only
      rw [wanted, decide_eq_false required]
      rfl

/-- The server is told the name of the client, the sender and the recipient. -/
theorem trySend_names (params : SendParams) :
    ∀ line ∈ [ehlo params, mailFrom params, rcptTo params], sendLine line ∈
      writes (trySend (agreeing params) params [] (cooperating params) true).2 := by
  have connected : connect params (cooperating params) = .ok () := by
    unfold connect remoteAddresses cooperating
    cases params.sourceIp <;> simp [isIpv4, connectFirst, bind, Except.bind]
  have said (tls : Bool) (opened : params.security = .implicitTls ↔ tls = true) (log : List Entry) :
      ∀ line ∈ [ehlo params, mailFrom params, rcptTo params], .wrote (sendLine line) ∈
        (dialogue (agreeing params) params [] (cooperating params) tls true
          ⟨(220 :: plainCodes params).map codeLine, [], [], log⟩).2.log := by
    have greeted : dialogue (agreeing params) params [] (cooperating params) tls true
        ⟨(220 :: plainCodes params).map codeLine, [], [], log⟩ =
          sayHello (agreeing params) params [] (cooperating params) tls true
            ⟨(plainCodes params).map codeLine, [], [], log ++ [codeEntry .greeting 220]⟩ := by
      unfold dialogue orStop
      rw [List.map_cons, bind_ok (readReply_run (by decide))]
      rfl
    rw [greeted]
    obtain ⟨⟨-, sender, recipient⟩, introduced⟩ := sayHello_names opened
    simpa using ⟨introduced, sender, recipient⟩
  have opening := complete_codes (plainCodes_known params)
  intro line member
  refine List.mem_filterMap.mpr ⟨.wrote (sendLine line), ?_, rfl⟩
  unfold trySend
  rw [connected]
  by_cases implicit : params.security = .implicitTls
  · have optional : params.security ≠ .requireStartTls := by
      rw [implicit]
      exact nofun
    have arrives : complete (cooperating params).secure.octets =
        (220 :: plainCodes params).map codeLine := by
      rw [← opening]
      unfold cooperating
      rw [if_neg optional]
    have shaken : handshake (agreeing params) params (cooperating params) = .ok () := rfl
    rw [decide_eq_true implicit]
    dsimp only
    rw [if_pos rfl, shaken]
    rw [if_pos rfl, arrives]
    exact said true (by simp [implicit]) [.secured] line member
  · rw [decide_eq_false implicit]
    dsimp only
    rw [if_neg Bool.false_ne_true]
    rw [if_neg Bool.false_ne_true]
    have arrives : complete (cooperating params).plain.octets =
        (220 :: plainCodes params).map codeLine := opening
    rw [arrives]
    exact said false (by simp [implicit]) [] line member

end Agreeing

/-! ## Every message -/

/-- `SmtpSender::send`: what one endpoint is given for a message. -/
def paramsFor (settings : Settings) (endpoint : SendParams) (serverToken : Text)
    (message : StoredMessage) : SendParams :=
  { endpoint with
    mailFrom := returnPath settings message serverToken
    rcptTo := message.rcptTo }

/-- The commands of all connections for some parameters are read as they were meant. -/
def AllRead (params : SendParams) : Prop :=
  ∀ externals rawMessage first second,
    ∀ log ∈ connectionLogs externals params rawMessage first second,
      CommandsRead externals params rawMessage log

theorem allRead_iff (params : SendParams) : AllRead params ↔
    '\n' ∉ params.heloHostname ∧ Smtp.PlainAddress params.mailFrom ∧ Smtp.PlainAddress params.rcptTo := by
  constructor
  · intro all
    have read := all (agreeing params) [] (cooperating params) (cooperating params) _
      (first_mem_connectionLogs _ _ _ _ _)
    have written := trySend_names params
    have one (line : Text) (command : line ∈ commands params)
        (said : line ∈ [ehlo params, mailFrom params, rcptTo params]) : '\n' ∉ line :=
      (complete_sendLine_iff line).mp (read.lines line command (written line said))
    have introduced := one (ehlo params) (by simp [commands]) (by simp)
    have sender := one (mailFrom params) (by simp [commands]) (by simp)
    have recipient := one (rcptTo params) (by simp [commands]) (by simp)
    refine ⟨fun feed => introduced ?_, ⟨fun feed => sender ?_, ?_⟩, fun feed => recipient ?_, ?_⟩
    · exact List.mem_append_right _ feed
    · exact List.mem_append_left _ (List.mem_append_right _ feed)
    · exact (mailFrom_path params).mp (read.sender (written _ (by simp)))
    · exact List.mem_append_left _ (List.mem_append_right _ feed)
    · exact (rcptTo_path params).mp (read.recipient (written _ (by simp)))
  · rintro ⟨introduced, ⟨senderLine, senderPath⟩, recipientLine, recipientPath⟩
    intro externals rawMessage first second log member
    refine ⟨connectionLogs_ordered member, ?_, fun _ => (mailFrom_path params).mpr senderPath,
      fun _ => (rcptTo_path params).mpr recipientPath⟩
    have unbroken : ∀ command ∈ commands params, '\n' ∉ command := by
      have joined {front back : Text} (first : '\n' ∉ front) (second : '\n' ∉ back) :
          '\n' ∉ front ++ back := fun feed => (List.mem_append.mp feed).elim first second
      unfold commands
      rw [List.forall_mem_cons, List.forall_mem_cons, List.forall_mem_cons, List.forall_mem_cons,
        List.forall_mem_cons]
      exact ⟨joined (by decide) introduced, joined (by decide) introduced, by decide,
        joined (joined (by decide) senderLine) (by decide),
        joined (joined (by decide) recipientLine) (by decide), by decide⟩
    intro command known _
    exact (complete_sendLine_iff command).mpr (unbroken command known)

/-- Whatever the other side replies: for every message the commands are one line each, in order, with
the addresses of the message, if and only if there is no line feed in the name of the client and in
the addresses, and the addresses close no angle bracket. So it is for the outgoing messages of every
session. The messages of a request over HTTP have the addresses of the request. -/
theorem commands_read_iff (settings : Settings) (endpoint : SendParams) (serverToken : Text)
    (message : StoredMessage) :
    (AllRead (paramsFor settings endpoint serverToken message) ↔
      '\n' ∉ endpoint.heloHostname ∧ Smtp.PlainAddress (returnPath settings message serverToken) ∧
        Smtp.PlainAddress message.rcptTo) ∧
    (∀ (platform : Platform) (listener : Smtp.Listener) (traceId peer : Text)
      (socket : List Bytes) (envs : List Smtp.Env), message.toQueuedMessage ∈ Smtp.handedOver
        (Smtp.handleConnection platform listener traceId peer socket envs).trace →
      message.scope = .outgoing → Smtp.PlainAddress message.mailFrom ∧ Smtp.PlainAddress message.rcptTo) ∧
    ∀ (api : Api.ApiPlatform) (reads : Api.SendReads) (server : Server) (body : Api.SendMessage)
      (pending : Int) (messages : List SendPlanMessage),
      Api.prepareSend api reads server body pending = .ok messages →
      message.toQueuedMessage ∈ messages.map (fun planned => planned.message) →
      (∃ sender, body.sender = some sender ∧ message.mailFrom = sender.email) ∧
        ∃ recipient ∈ body.sendTo ++ body.cc ++ body.bcc, message.rcptTo = recipient.email := by
  refine ⟨allRead_iff _, ?_, ?_⟩
  · intro platform listener traceId peer socket envs handed outgoing
    exact Smtp.handedOver_plain handed outgoing
  · intro api reads server body pending messages prepared member
    obtain ⟨sender, attachments, domainId, streamId, isBroadcast, label, named, -, -, -, rfl⟩ :=
      Api.prepareSend_built prepared
    obtain ⟨planned, included, same⟩ := List.mem_map.mp member
    obtain ⟨index, bound, rfl⟩ := List.mem_mapIdx.mp included
    refine ⟨⟨sender, named, ?_⟩, _, List.getElem_mem bound, ?_⟩
    · rw [← same]
      rfl
    · rw [← same]
      rfl

/-- What a client hands over that authenticates and submits one message. -/
def submitted : List QueuedMessage :=
  Smtp.handedOver (Smtp.handleConnection .ascii
    { config := { Smtp.exampleConfig with authRequiresTls := false }
      mode := .smtp
      proxyProtocol := false
      spf := none
      tlsAcceptor := none }
    "t" "192.0.2.1"
    [encode ("EHLO c\r\nAUTH PLAIN AABh\r\nMAIL FROM:<me@a.example>\r\nRCPT TO:<x@y.example>\r\n" ++
      "DATA\r\nFrom: me@a.example\r\n\r\n.\r\n").toList]
    (List.replicate 8 Smtp.exampleEnv)).trace

/-- Its commands are read as they were meant, and so are those for a request over HTTP to the same
address. -/
theorem plain_messages_read :
    (∃ message : StoredMessage, message.toQueuedMessage ∈ submitted ∧
      AllRead (paramsFor exampleSettings exampleParams [] message)) ∧
    ∃ message : StoredMessage, message.mailFrom = "me@a.example" ∧
      message.rcptTo = "x@y.example" ∧
      AllRead (paramsFor exampleSettings exampleParams [] message) := by
  constructor
  · have checked : submitted.any (fun message => message.scope == .outgoing) = true := by
      decide +kernel
    obtain ⟨message, handed, scope⟩ := List.any_eq_true.mp checked
    let row : StoredMessage := { message with id := 1, token := [], createdAt := 0 }
    obtain ⟨sender, recipient⟩ := (commands_read_iff exampleSettings exampleParams [] row).2.1 _ _ _ _
      _ _ handed (beq_iff_eq.mp scope)
    refine ⟨row, handed, ?_⟩
    exact (commands_read_iff exampleSettings exampleParams [] row).1.mpr
      ⟨by decide +kernel, sender, recipient⟩
  · obtain ⟨planned, made⟩ : ∃ planned, Api.prepareSend Domains.sendingApi Domains.answering
        (Smtp.exampleServer 1) (Domains.requestTo "x@y.example") 0 = .ok [planned] := ⟨_, rfl⟩
    let row : StoredMessage := { planned.message with id := 1, token := [], createdAt := 0 }
    obtain ⟨⟨sender, named, sent⟩, recipient, included, stored⟩ :=
      (commands_read_iff exampleSettings exampleParams [] row).2.2 _ _ _ _ _ _ made
        (List.mem_singleton_self _)
    obtain rfl := Option.some.inj named
    obtain rfl := List.mem_singleton.mp included
    refine ⟨row, sent, stored, ?_⟩
    apply (commands_read_iff exampleSettings exampleParams [] row).1.mpr
    have plainSender : returnPath exampleSettings row [] = "me@a.example" := sent
    rw [plainSender, stored]
    decide +kernel

/-- An address that goes on behind its angle bracket. -/
def forgedRecipient : Text := "x@y.example>\r\nRCPT TO:<evil@z.example"

def forgedParams : SendParams :=
  { exampleParams with mailFrom := "me@a.example", rcptTo := forgedRecipient }

/-- A request over HTTP with such an address is accepted. The server that its message is sent to
reads two RCPT TO commands. -/
theorem forged_recipient_accepted :
    (∃ messages, Api.prepareSend Domains.sendingApi Domains.answering (Smtp.exampleServer 1)
        (Domains.requestTo forgedRecipient) 0 = .ok messages ∧
      messages.map (fun planned => (planned.message.mailFrom, planned.message.rcptTo)) =
        [(forgedParams.mailFrom, forgedParams.rcptTo)]) ∧
    ((writes (trySend exampleExternals forgedParams exampleOctets agreeable true).2)[2]?).map
        complete = some (["RCPT TO:<x@y.example>\r".toList, "RCPT TO:<evil@z.example>\r".toList].map
          encode) ∧
    ¬ AllRead forgedParams := by
  refine ⟨⟨_, rfl, rfl⟩, by decide +kernel, ?_⟩
  intro all
  have read := (all exampleExternals exampleOctets agreeable agreeable _
    (first_mem_connectionLogs _ _ _ _ _)).lines (rcptTo forgedParams) (by decide +kernel)
    (by decide +kernel)
  exact absurd read (by decide +kernel)

end Camelmailer.Worker.Dialogue
