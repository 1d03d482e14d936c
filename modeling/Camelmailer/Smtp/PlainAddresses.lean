import Camelmailer.Smtp.Server

/-!
# Addresses that a session reads

An address is read off one line, which has no line feed, and ends in front of the first angle
bracket that closes. So neither the sender nor a recipient that a client submits to contains one or
the other. An address that is put together for the token of a route is another matter, but that mail
comes in.
-/

namespace Camelmailer.Smtp

open Utf8

/-- An address in one line that closes no angle bracket. -/
def PlainAddress (address : Text) : Prop := '\n' ∉ address ∧ '>' ∉ address

instance (address : Text) : Decidable (PlainAddress address) :=
  inferInstanceAs (Decidable (_ ∧ _))

/-! ## Reading an address -/

theorem trim_subset (text : Text) : Str.trim text ⊆ text := by
  intro char member
  have inner : char ∈ Str.trimStart text := (List.rdropWhile_prefix _ _).subset member
  exact (List.dropWhile_suffix _).subset inner

theorem stripPrefix_subset {front text rest : Text} (stripped : Str.stripPrefix front text = some rest) :
    rest ⊆ text := by
  unfold Str.stripPrefix at stripped
  split_ifs at stripped
  obtain rfl := Option.some.inj stripped
  exact (List.drop_suffix _ _).subset

theorem stripPrefixCi_subset {data word rest : Text} (stripped : stripPrefixCi data word = some rest) :
    rest ⊆ data := by
  unfold stripPrefixCi at stripped
  split_ifs at stripped
  · obtain ⟨⟨front, back⟩, cut, same⟩ := Option.map_eq_some_iff.mp stripped
    obtain ⟨rfl, -⟩ := Str.splitAtByte_some _ _ _ _ cut
    split_ifs at same
    · obtain rfl := same
      exact List.subset_append_right _ _
    · obtain rfl := same
      exact List.Subset.refl _
  · obtain rfl := Option.some.inj stripped
    exact List.Subset.refl _

theorem rsplitOnce_subset (separator : Char) (text : Text) :
    ((Str.rsplitOnce separator text).map Prod.snd).getD text ⊆ text := by
  cases split : Str.rsplitOnce separator text with
  | none => exact List.Subset.refl _
  | some parts =>
      intro char member
      rw [(Str.rsplitOnce_eq_some.mp split).1]
      exact List.mem_append_right _ (List.mem_cons_of_mem _ member)

/-- What comes before the first separator. -/
theorem splitOnce_front (separator : Char) (text : Text) :
    ((Str.splitOnce separator text).map Prod.fst).getD text ⊆ text ∧
      separator ∉ ((Str.splitOnce separator text).map Prod.fst).getD text := by
  cases split : Str.splitOnce separator text with
  | none => exact ⟨List.Subset.refl _, Str.splitOnce_eq_none.mp split⟩
  | some parts =>
      obtain ⟨whole, absent⟩ := Str.splitOnce_eq_some.mp split
      refine ⟨?_, absent⟩
      intro char member
      rw [whole]
      exact List.mem_append_left _ member

theorem extractAddress_plain {data command address : Text}
    (read : extractAddress data command = some address) (unbroken : '\n' ∉ data) :
    PlainAddress address := by
  obtain ⟨rest, stripped, same⟩ := Option.bind_eq_some_iff.mp read
  obtain rfl := Option.some.inj same
  generalize colon : (Str.stripPrefix [':'] (Str.trimStart rest)).getD (Str.trimStart rest) = argument
  have within : argument ⊆ data := by
    have start : Str.trimStart rest ⊆ data :=
      fun char member => stripPrefixCi_subset stripped ((List.dropWhile_suffix _).subset member)
    cases found : Str.stripPrefix [':'] (Str.trimStart rest) with
    | none =>
        rw [found] at colon
        obtain rfl := colon
        exact start
    | some behind =>
        rw [found] at colon
        obtain rfl := colon
        exact fun char member => start (stripPrefix_subset found member)
  generalize opened : ((Str.rsplitOnce '<' (Str.trimStart argument)).map Prod.snd).getD
    (Str.trimStart argument) = path
  have inside : path ⊆ data := by
    intro char member
    rw [← opened] at member
    exact within ((List.dropWhile_suffix _).subset (rsplitOnce_subset _ _ member))
  obtain ⟨front, closed⟩ := splitOnce_front '>' path
  exact ⟨fun feed => unbroken (inside (front (trim_subset _ feed))),
    fun bracket => closed (trim_subset _ bracket)⟩

theorem before_subset {pattern text front : Text} (found : Str.before pattern text = some front) :
    front ⊆ text := by
  induction text generalizing front with
  | nil =>
      unfold Str.before at found
      split_ifs at found
      obtain rfl := Option.some.inj found
      exact List.nil_subset _
  | cons char rest ih =>
      unfold Str.before at found
      split_ifs at found
      · obtain rfl := Option.some.inj found
        exact List.nil_subset _
      · obtain ⟨inner, later, rfl⟩ := Option.map_eq_some_iff.mp found
        exact List.cons_subset_cons _ (ih later)

theorem senderLine_subset (data : Text) : senderLine data ⊆ data := by
  unfold senderLine
  cases found : Str.before "AUTH=" data with
  | none => exact List.Subset.refl _
  | some front =>
      intro char member
      exact before_subset found ((List.rdropWhile_prefix _ _).subset member)

theorem chomp_subset (line : Text) : chomp line ⊆ line := by
  unfold chomp Str.stripLast
  split_ifs
  · exact (List.dropLast_prefix _).subset
  · exact List.Subset.refl _

/-! ## The invariant -/

/-- The sender of a session and the recipients that its client submits to. -/
structure PlainEnvelope (session : Session) : Prop where
  sender : ∀ address ∈ session.mailFrom, PlainAddress address
  recipients : ∀ recipient ∈ session.recipients, recipient.kind = .credential →
    PlainAddress recipient.rcptTo

section Step

variable {platform : Platform} {env : Env} {session : Session} {data : Text} {step : Step}

theorem PlainEnvelope.of_none (unsent : session.mailFrom = none) (vacant : session.recipients = []) :
    PlainEnvelope session := by
  refine ⟨?_, ?_⟩
  · rw [unsent]
    exact fun _ => nofun
  · rw [vacant]
    exact fun _ member => absurd member List.not_mem_nil

/-- The sender that MAIL FROM leaves is the address on its line. -/
theorem dispatch_sender (command : commandOf session data = some .mailFrom)
    (reacted : dispatch platform env session data = some step) :
    step.session.mailFrom = session.mailFrom ∨ ∃ address,
      extractAddress (senderLine data) "MAIL FROM" = some address ∧
      step.session.mailFrom = some address := by
  have waiting : session.state ≠ .preauth := by
    intro preauth
    rw [commandOf_preauth data preauth] at command
    cases command
  unfold dispatch at reacted
  rw [if_neg waiting, commandOf_inputMode command] at reacted
  unfold handleCommand at reacted
  rw [commandOf_recognize command] at reacted
  dsimp only at reacted
  unfold mailFromCommand at reacted
  split_ifs at reacted
  · obtain ⟨address, read, rfl⟩ := Option.map_eq_some_iff.mp reacted
    exact .inr ⟨address, read, rfl⟩
  · obtain rfl := Option.some.inj reacted
    exact .inl rfl

theorem Enveloped.plain (envelope : Enveloped platform env session data step)
    (plain : PlainEnvelope session) (unbroken : '\n' ∉ data) : PlainEnvelope step.session := by
  cases envelope with
  | refused => exact ⟨plain.sender, plain.recipients⟩
  | recorded recipient designated =>
      refine ⟨plain.sender, ?_⟩
      intro other member outgoing
      rcases List.mem_append.mp member with earlier | last
      · exact plain.recipients other earlier outgoing
      · obtain rfl := List.mem_singleton.mp last
        cases designated with
        | submission named => exact extractAddress_plain named.1 unbroken
        | bounce => cases outgoing
        | routeToken => cases outgoing
        | route => cases outgoing

/-- One line without a line feed keeps the invariant. -/
theorem dispatch_plain (reacted : dispatch platform env session data = some step)
    (plain : PlainEnvelope session) (unbroken : '\n' ∉ data) : PlainEnvelope step.session := by
  have reaction := dispatch_reaction reacted
  cases reaction
  case greeted => exact .of_none rfl rfl
  case reset => exact .of_none rfl rfl
  case sender address command ready =>
    refine ⟨?_, fun _ member => absurd member List.not_mem_nil⟩
    intro other named
    rcases dispatch_sender command reacted with same | ⟨found, read, same⟩
    · exact plain.sender other (same ▸ named)
    · have known : some found = some other := same.symm.trans named
      obtain rfl := Option.some.inj known
      exact extractAddress_plain read (fun feed => unbroken (senderLine_subset data feed))
  case recipient settled calls inner command ready checked envelope =>
    have settledPlain : PlainEnvelope settled := by
      cases checked <;> exact ⟨plain.sender, plain.recipients⟩
    exact envelope.plain settledPlain unbroken
  case authenticated last outcome =>
    cases outcome <;> exact ⟨plain.sender, plain.recipients⟩
  case concluded connected mode ended finished =>
    obtain ⟨text, calls, -, rfl⟩ := finishData_concluded finished
    exact .of_none rfl rfl
  all_goals exact ⟨plain.sender, plain.recipients⟩

theorem serveLine_plain {spf : Option SpfContext} {driver next : Driver} {input : LineInput}
    {response : Response} (served : serveLine platform spf driver input = some (response, next))
    (plain : PlainEnvelope driver.session) (unbroken : '\n' ∉ input.line) :
    PlainEnvelope next.session := by
  obtain ⟨checked, spfChecked, stepped, -⟩ := serveLine_inv served
  obtain ⟨value, annotated⟩ := checkSpf_frame spfChecked
  obtain ⟨step, dispatched, -, after⟩ := sessionStep_dispatch stepped
  rw [annotated] at dispatched
  have kept := dispatch_plain dispatched ⟨plain.sender, plain.recipients⟩
    (fun feed => unbroken (chomp_subset input.line feed))
  rw [after]
  exact ⟨kept.sender, kept.recipients⟩

end Step

/-! ## The lines of a connection -/

/-- A line that has been read has no line feed. -/
theorem readLine_unbroken {stream rest : LineStream} {line : Text}
    (read : stream.readLine = some (line, rest)) : '\n' ∉ line := by
  intro feed
  obtain ⟨-, ended⟩ | ⟨octets, behind, next, cut, found, -⟩ :=
    LineStream.readFrom_spec stream.buffer stream.incoming
  · cases ended.symm.trans read
  · cases found.symm.trans read
    obtain ⟨missing, -⟩ | ⟨first, remainder, same, -, unbroken⟩ :=
      Lines.cutLine_spec (LineStream.octets ⟨stream.incoming, stream.buffer⟩)
    · cases missing.symm.trans cut
    · cases same.symm.trans cut
      exact unbroken (ascii_mem_decode octets '\n' (by decide) feed)

/-- No line of a trace has a line feed. -/
def Unbroken (events : List ServeEvent) : Prop := ∀ event ∈ events, '\n' ∉ event.input.line

theorem Unbroken.nil : Unbroken [] := fun _ member => absurd member List.not_mem_nil

theorem Unbroken.cons {event : ServeEvent} {events : List ServeEvent}
    (first : '\n' ∉ event.input.line) (rest : Unbroken events) : Unbroken (event :: events) := by
  intro other member
  rcases List.mem_cons.mp member with rfl | later
  · exact first
  · exact rest other later

theorem driveSession_unbroken (platform : Platform) (spf : Option SpfContext) (envs : List Env)
    (driver : Driver) (stream : LineStream) :
    Unbroken (driveSession platform spf envs driver stream).trace := by
  induction envs generalizing driver stream with
  | nil => exact .nil
  | cons env envs ih =>
      unfold driveSession
      cases read : stream.readLine with
      | none => exact .nil
      | some parts =>
          obtain ⟨line, rest⟩ := parts
          dsimp only
          have unbroken := readLine_unbroken read
          cases serveLine platform spf driver ⟨env, line⟩ with
          | none => exact .nil
          | some reaction =>
              dsimp only
              split_ifs
              · exact .cons unbroken .nil
              · exact .cons unbroken .nil
              · exact .cons unbroken (ih _ _)

theorem handleConnection_unbroken (platform : Platform) (listener : Listener) (traceId peer : Text)
    (socket : List Bytes) (envs : List Env) :
    Unbroken (handleConnection platform listener traceId peer socket envs).trace := by
  have encrypted (session : Session) (incoming : List Bytes) (remaining : List Env) :
      Unbroken (encryptedPhase platform listener session incoming remaining) := by
    unfold encryptedPhase
    split
    · exact .nil
    · exact driveSession_unbroken _ _ _ _ _
  unfold handleConnection Served.trace
  cases listener.mode with
  | smtps => exact encrypted _ _ _
  | smtp =>
      have first := driveSession_unbroken platform listener.spf envs
        ⟨listener.session platform traceId peer, false⟩ (.new socket)
      dsimp only
      split
      · intro event member
        rcases List.mem_append.mp member with early | late
        · exact first event early
        · exact encrypted _ _ _ event late
      · rw [List.append_nil]
        exact first

/-- The addresses of an outgoing message that a connection hands over. -/
theorem handedOver_plain {platform : Platform} {listener : Listener} {traceId peer : Text}
    {socket : List Bytes} {envs : List Env} {message : QueuedMessage}
    (handed : message ∈
      handedOver (handleConnection platform listener traceId peer socket envs).trace)
    (outgoing : message.scope = .outgoing) :
    PlainAddress message.mailFrom ∧ PlainAddress message.rcptTo := by
  have unbroken := handleConnection_unbroken platform listener traceId peer socket envs
  have invariant := handleConnection_invariant platform listener
    (fun past driver => Unbroken past → PlainEnvelope driver.session) traceId peer socket envs
    (fun tls _ => by unfold Listener.session; split_ifs <;> exact .of_none rfl rfl)
    (by
      intro past before input response after earlier served lines
      refine serveLine_plain served (earlier (fun event member => lines event (by simp [member]))) ?_
      exact lines ⟨before, input, response, after⟩ (by simp))
    (fun past driver earlier lines => ⟨(earlier lines).sender, (earlier lines).recipients⟩)
  obtain ⟨event, member, within⟩ := List.mem_flatMap.mp handed
  obtain ⟨front, back, split⟩ := List.append_of_mem member
  obtain ⟨earlier, served⟩ := invariant front event back split
  have plain := earlier (fun other before => unbroken other (by
    rw [split]
    exact List.mem_append_left _ before))
  obtain ⟨value, content, domainId, recipient, recorded, built⟩ := serveLine_built served within
  obtain ⟨-, stored, sent, -, scope, -⟩ := queuedMessage_spec built
  have kind : recipient.kind = .credential := by
    rw [outgoing] at scope
    cases known : recipient.kind with
    | credential => rfl
    | bounce => rw [known] at scope; cases scope
    | route => rw [known] at scope; cases scope
  refine ⟨?_, ?_⟩
  · rw [sent]
    cases named : event.before.session.mailFrom with
    | none => exact ⟨by simp, by simp⟩
    | some address => exact plain.sender address named
  · rw [stored]
    exact plain.recipients recipient recorded kind

end Camelmailer.Smtp
