import Camelmailer.Api.Handler

/-!
# Operator controls under concurrent edits

An operator suspends servers and organizations and sets their limits, while tenants edit
their servers. Every one of these requests reads a whole record, changes some of its fields
and writes the whole record back. Between the two steps another request can write the same
record, and what it has written is then undone.

It is not when a record is still as the request has read it at the moment it is written
back.
-/

namespace Camelmailer.Api.OperatorControl

open Utf8 Db Requests

/-! ## The records -/

inductive ServerMode where
  | live
  | development
deriving DecidableEq

/-- All columns of a server. A threshold is only copied, as the bits of a float. -/
structure ServerRow extends Server where
  uuid : Text
  name : Text
  mode : ServerMode
  suspensionReason : Option Text
  logSmtpData : Bool
  ipPoolId : Option Id
  trackOpens : Bool
  trackClicks : Bool
  spamThreshold : Option UInt64
  outboundSpamThreshold : Option UInt64
  bounceHookUrl : Option Text
  deliveryHookUrl : Option Text
  inboundDomain : Option Text
  color : Option Text
deriving DecidableEq

structure RetentionOverrides where
  messageContentDays : Option Nat := none
  messageMetadataDays : Option Nat := none
  webhookLogDays : Option Nat := none
  dmarcReportDays : Option Nat := none
deriving DecidableEq

/-- The policy of an organization with its retention periods. -/
structure PolicyRow extends OrganizationPolicy where
  retention : RetentionOverrides := {}
deriving DecidableEq

/-- An organization with the columns of its policy. -/
structure ControlledOrganization extends Organization where
  policy : PolicyRow
deriving DecidableEq

structure Tables where
  organizations : List ControlledOrganization
  servers : List ServerRow

namespace Tables

def findServer (tables : Tables) (id : Id) : Option ServerRow :=
  tables.servers.find? (fun server => server.id = id)

def findOrganization (tables : Tables) (id : Id) : Option ControlledOrganization :=
  tables.organizations.find? (fun organization => organization.id = id)

def organizationByPermalink (tables : Tables) (permalink : Text) : Option Organization :=
  (tables.organizations.find? (fun organization => organization.permalink = permalink)).map
    ControlledOrganization.toOrganization

def serverByPermalink (tables : Tables) (organizationId : Id) (permalink : Text) :
    Option ServerRow :=
  tables.servers.find? (fun server =>
    server.organizationId = organizationId ∧ server.permalink = permalink)

/-- The columns that `update_server` sets, on the row that is there. -/
def setColumns (server row : ServerRow) : ServerRow :=
  { server with
    id := row.id
    uuid := row.uuid
    organizationId := row.organizationId
    permalink := row.permalink
    token := row.token
    ipPoolId := row.ipPoolId }

def updateServer (tables : Tables) (server : ServerRow) : Tables :=
  { tables with servers := tables.servers.map (fun row =>
      if row.id = server.id then setColumns server row else row) }

def organizationPolicy (tables : Tables) (id : Id) : PolicyRow :=
  ((tables.findOrganization id).map ControlledOrganization.policy).getD {}

def setOrganizationPolicy (tables : Tables) (id : Id) (policy : PolicyRow) :
    Except StoreError (Unit × Tables) :=
  if tables.organizations.any (fun organization => organization.id = id) then
    .ok ((), { tables with organizations := tables.organizations.map (fun organization =>
      if organization.id = id then { organization with policy := policy } else organization) })
  else .error (.other ("organization " ++ decimal id ++ " not found"))

end Tables

/-! ## The requests -/

inductive Command : Type → Type where
  | organizationByPermalink (permalink : Text) : Command (Except StoreError (Option Organization))
  | serverByPermalink (organizationId : Id) (permalink : Text) :
      Command (Except StoreError (Option ServerRow))
  | updateServer (server : ServerRow) : Command (Except StoreError ServerRow)
  | organizationPolicy (organizationId : Id) : Command (Except StoreError PolicyRow)
  | setOrganizationPolicy (organizationId : Id) (policy : PolicyRow) :
      Command (Except StoreError Unit)

/-- The body of `servers_update`. A field that is absent is left alone; a send limit can also
be set to null. -/
structure UpdateServer where
  name : Option Text := none
  mode : Option Text := none
  trackOpens : Option Bool := none
  trackClicks : Option Bool := none
  spamThreshold : Option UInt64 := none
  outboundSpamThreshold : Option UInt64 := none
  bounceHookUrl : Option Text := none
  deliveryHookUrl : Option Text := none
  inboundDomain : Option Text := none
  broadcastPhysicalAddress : Option Text := none
  color : Option Text := none
  sendLimit : Option (Option Int) := none
deriving DecidableEq

/-- The body's retention periods, absent or null or a number of days. -/
structure UpdateRetention where
  messageContentDays : Option (Option Int) := none
  messageMetadataDays : Option (Option Int) := none
  webhookLogDays : Option (Option Int) := none
  dmarcReportDays : Option (Option Int) := none
deriving DecidableEq

/-- The body of `limits_update`. -/
structure UpdateLimits where
  monthlySendLimit : Option (Option Int) := none
  suspended : Option Bool := none
  suspensionReason : Option (Option Text) := none
  retention : Option UpdateRetention := none
deriving DecidableEq

def accessDenied (message : Text) : ApiError := ⟨403, "AccessDenied", message⟩

/-- The mode that a body names, or the present one. -/
def newMode (debug : Text → Text) (present : ServerMode) : Option Text → Except ApiError ServerMode
  | none => .ok present
  | some mode =>
      if mode = "Live" then .ok .live
      else if mode = "Development" then .ok .development
      else .error (validationError ("Mode " ++ debug mode ++ " is not a valid mode"))

/-- The send limit that a body names, or the present one. -/
def newSendLimit (principal : Principal) (present : Option Int) :
    Option (Option Int) → Except ApiError (Option Int)
  | none => .ok present
  | some limit =>
      if !principal.isRoot then
        .error (accessDenied "Only a global administrator can change a server's send limit")
      else if limit.any (fun limit => limit < 0) then
        .error (validationError "Send limit must be zero or greater, or null for unlimited")
      else .ok limit

/-- What `servers_update` makes of a server. -/
def UpdateServer.edit (debug : Text → Text) (principal : Principal) (body : UpdateServer)
    (server : ServerRow) : Except ApiError ServerRow := do
  let mode ← newMode debug server.mode body.mode
  let sendLimit ← newSendLimit principal server.sendLimit body.sendLimit
  return { server with
    name := body.name.getD server.name
    mode := mode
    trackOpens := body.trackOpens.getD server.trackOpens
    trackClicks := body.trackClicks.getD server.trackClicks
    spamThreshold := body.spamThreshold.or server.spamThreshold
    outboundSpamThreshold := body.outboundSpamThreshold.or server.outboundSpamThreshold
    bounceHookUrl := body.bounceHookUrl.or server.bounceHookUrl
    deliveryHookUrl := body.deliveryHookUrl.or server.deliveryHookUrl
    inboundDomain := body.inboundDomain.or server.inboundDomain
    broadcastPhysicalAddress := body.broadcastPhysicalAddress.or server.broadcastPhysicalAddress
    color := body.color.or server.color
    sendLimit := sendLimit }

def adminReason : Text := "Suspended via Admin API"

def applyDays (target : Option Nat) : Option (Option Int) → Except Text (Option Nat)
  | none => .ok target
  | some none => .ok none
  | some (some days) =>
      if 0 ≤ days ∧ days ≤ 36500 then .ok (some days.toNat)
      else .error ("Retention periods must be between 0 (keep forever) and 36500 days, " ++
        "or null to inherit")

/-- The retention periods after `limits_update`. -/
def UpdateRetention.edit (body : UpdateRetention) (retention : RetentionOverrides) :
    Except Text RetentionOverrides := do
  let content ← applyDays retention.messageContentDays body.messageContentDays
  let metadata ← applyDays retention.messageMetadataDays body.messageMetadataDays
  let webhooks ← applyDays retention.webhookLogDays body.webhookLogDays
  let reports ← applyDays retention.dmarcReportDays body.dmarcReportDays
  return ⟨content, metadata, webhooks, reports⟩

/-- The reason for a suspension after `limits_update`. It is cleared with the suspension, and
a suspension without one is given the default. -/
def UpdateLimits.reason (body : UpdateLimits) (policy : PolicyRow) : Option Text :=
  let cleared := if body.suspended = some false then none else policy.suspensionReason
  let named := body.suspensionReason.getD cleared
  if body.suspended.getD policy.suspended && named.isNone then some adminReason else named

/-- The monthly limit that a body names, or the present one. -/
def newMonthlySendLimit (present : Option Int) : Option (Option Int) → Except Text (Option Int)
  | none => .ok present
  | some limit =>
      if limit.any (fun limit => limit < 0) then
        .error "Monthly send limit must be zero or greater, or null for unlimited"
      else .ok limit

/-- The retention periods that a body names, or the present ones. -/
def newRetention (present : RetentionOverrides) :
    Option UpdateRetention → Except Text RetentionOverrides
  | none => .ok present
  | some body => body.edit present

/-- What `limits_update` makes of a policy. -/
def UpdateLimits.edit (body : UpdateLimits) (policy : PolicyRow) : Except Text PolicyRow := do
  let limit ← newMonthlySendLimit policy.monthlySendLimit body.monthlySendLimit
  let retention ← newRetention policy.retention body.retention
  return {
    monthlySendLimit := limit
    suspended := body.suspended.getD policy.suspended
    suspensionReason := body.reason policy
    retention := retention }

inductive Call where
  | serversUpdate (principal : Principal) (organization permalink : Text) (body : UpdateServer)
  | serversSuspend (organization permalink : Text) (reason : Option Text)
  | serversUnsuspend (organization permalink : Text)
  | limitsUpdate (principal : Principal) (organization : Text) (body : UpdateLimits)
  | organizationSuspend (principal : Principal) (organization : Text) (reason : Option Text)
  | organizationUnsuspend (principal : Principal) (organization : Text)

/-- The record that a request has written. -/
inductive Reply where
  | server (server : ServerRow)
  | limits (policy : PolicyRow)

abbrev Handler : Type → Type 1 := Program Command ApiError

/-- `find_server`, which has to find one. -/
def findServer (organization permalink : Text) : Handler ServerRow := do
  let organization ← ask (.organizationByPermalink organization)
  let organization ← require organization notFound
  let server ← ask (.serverByPermalink organization.id permalink)
  require server notFound

/-- A server is read, edited and written back. -/
def editServer (organization permalink : Text) (edit : ServerRow → Except ApiError ServerRow) :
    Handler Reply := do
  let server ← findServer organization permalink
  let edited ← checked (edit server)
  let written ← ask (.updateServer edited)
  return .server written

def requireRoot (principal : Principal) : Handler Unit :=
  demand principal.isRoot (accessDenied
    "Only an installation administrator can change an organization's limits")

/-- `apply`: a policy is read, changed and written back. -/
def applyChange (organization : Text) (change : PolicyRow → Except Text PolicyRow) :
    Handler Reply := do
  let organization ← ask (.organizationByPermalink organization)
  let organization ← require organization notFound
  let policy ← ask (.organizationPolicy organization.id)
  let changed ← checked ((change policy).mapError validationError)
  ask (.setOrganizationPolicy organization.id changed)
  return .limits changed

/-- What a request makes of a server. -/
def Call.editServer (debug : Text → Text) : Call → ServerRow → Except ApiError ServerRow
  | serversUpdate principal _ _ body => body.edit debug principal
  | serversSuspend _ _ reason => fun server => .ok { server with
      suspended := true
      suspensionReason := reason.or (some adminReason) }
  | serversUnsuspend _ _ => fun server => .ok { server with
      suspended := false
      suspensionReason := none }
  | _ => .ok

/-- What a request makes of a policy. -/
def Call.changePolicy : Call → PolicyRow → Except Text PolicyRow
  | limitsUpdate _ _ body => body.edit
  | organizationSuspend _ _ reason => fun policy => .ok { policy with
      suspended := true
      suspensionReason := some ((reason.filter (fun reason => reason ≠ [])).getD adminReason) }
  | organizationUnsuspend _ _ => fun policy => .ok { policy with
      suspended := false
      suspensionReason := none }
  | _ => .ok

/-- The handlers. -/
def handler (debug : Text → Text) (call : Call) : Handler Reply :=
  match call with
  | .serversUpdate _ organization permalink _ =>
      OperatorControl.editServer organization permalink (call.editServer debug)
  | .serversSuspend organization permalink _ =>
      OperatorControl.editServer organization permalink (call.editServer debug)
  | .serversUnsuspend organization permalink =>
      OperatorControl.editServer organization permalink (call.editServer debug)
  | .limitsUpdate principal organization _ => do
      requireRoot principal
      applyChange organization call.changePolicy
  | .organizationSuspend principal organization _ => do
      requireRoot principal
      applyChange organization call.changePolicy
  | .organizationUnsuspend principal organization => do
      requireRoot principal
      applyChange organization call.changePolicy

/-- A command is answered by the tables, unless it fails. -/
def execute (fault : Option StoreError) {β : Type} (command : Command β) (tables : Tables) :
    Option (β × Tables) :=
  some (match command with
    | .organizationByPermalink permalink =>
        attempted fault (.ok (tables.organizationByPermalink permalink, tables)) tables
    | .serverByPermalink organizationId permalink =>
        attempted fault (.ok (tables.serverByPermalink organizationId permalink, tables)) tables
    | .updateServer server =>
        attempted fault (.ok (server, tables.updateServer server)) tables
    | .organizationPolicy organizationId =>
        attempted fault (.ok (tables.organizationPolicy organizationId, tables)) tables
    | .setOrganizationPolicy organizationId policy =>
        attempted fault (tables.setOrganizationPolicy organizationId policy) tables)

/-- The requests over both records. Nothing else writes them. -/
def service (debug : Text → Text) :
    Service Tables Call (Option StoreError) Empty Command ApiError Reply where
  handler := handler debug
  execute := execute
  disturb := fun outside _ => outside.elim

/-! ## Fields -/

inductive FieldValue where
  | text (value : Text)
  | optionalText (value : Option Text)
  | flag (value : Bool)
  | mode (value : ServerMode)
  | limit (value : Option Int)
  | threshold (value : Option UInt64)
  | identifier (value : Option Id)
  | days (value : Option Nat)
deriving DecidableEq

inductive ServerField where
  | id | uuid | organizationId | name | permalink | token | mode | suspended | suspensionReason
  | privacyMode | logSmtpData | allowSender | ipPoolId | trackOpens | trackClicks | sendLimit
  | spamThreshold | outboundSpamThreshold | bounceHookUrl | deliveryHookUrl | inboundDomain
  | broadcastPhysicalAddress | color | defaultStreamId
deriving DecidableEq

def ServerField.read (server : ServerRow) : ServerField → FieldValue
  | id => .identifier (some server.id)
  | uuid => .text server.uuid
  | organizationId => .identifier (some server.organizationId)
  | name => .text server.name
  | permalink => .text server.permalink
  | token => .text server.token
  | mode => .mode server.mode
  | suspended => .flag server.suspended
  | suspensionReason => .optionalText server.suspensionReason
  | privacyMode => .flag server.privacyMode
  | logSmtpData => .flag server.logSmtpData
  | allowSender => .flag server.allowSender
  | ipPoolId => .identifier server.ipPoolId
  | trackOpens => .flag server.trackOpens
  | trackClicks => .flag server.trackClicks
  | sendLimit => .limit server.sendLimit
  | spamThreshold => .threshold server.spamThreshold
  | outboundSpamThreshold => .threshold server.outboundSpamThreshold
  | bounceHookUrl => .optionalText server.bounceHookUrl
  | deliveryHookUrl => .optionalText server.deliveryHookUrl
  | inboundDomain => .optionalText server.inboundDomain
  | broadcastPhysicalAddress => .optionalText server.broadcastPhysicalAddress
  | color => .optionalText server.color
  | defaultStreamId => .identifier server.defaultStreamId

inductive PolicyField where
  | monthlySendLimit | suspended | suspensionReason | messageContentDays | messageMetadataDays
  | webhookLogDays | dmarcReportDays
deriving DecidableEq

def PolicyField.read (policy : PolicyRow) : PolicyField → FieldValue
  | monthlySendLimit => .limit policy.monthlySendLimit
  | suspended => .flag policy.suspended
  | suspensionReason => .optionalText policy.suspensionReason
  | messageContentDays => .days policy.retention.messageContentDays
  | messageMetadataDays => .days policy.retention.messageMetadataDays
  | webhookLogDays => .days policy.retention.webhookLogDays
  | dmarcReportDays => .days policy.retention.dmarcReportDays

/-- The fields that a body names. -/
def UpdateServer.names (body : UpdateServer) : ServerField → Bool
  | .name => body.name.isSome
  | .mode => body.mode.isSome
  | .trackOpens => body.trackOpens.isSome
  | .trackClicks => body.trackClicks.isSome
  | .spamThreshold => body.spamThreshold.isSome
  | .outboundSpamThreshold => body.outboundSpamThreshold.isSome
  | .bounceHookUrl => body.bounceHookUrl.isSome
  | .deliveryHookUrl => body.deliveryHookUrl.isSome
  | .inboundDomain => body.inboundDomain.isSome
  | .broadcastPhysicalAddress => body.broadcastPhysicalAddress.isSome
  | .color => body.color.isSome
  | .sendLimit => body.sendLimit.isSome
  | _ => false

/-- The fields of a policy that a body names. Who names the suspension names its reason. -/
def UpdateLimits.names (body : UpdateLimits) : PolicyField → Bool
  | .monthlySendLimit => body.monthlySendLimit.isSome
  | .suspended => body.suspended.isSome
  | .suspensionReason => body.suspensionReason.isSome || body.suspended.isSome
  | .messageContentDays => body.retention.any (fun retention => retention.messageContentDays.isSome)
  | .messageMetadataDays =>
      body.retention.any (fun retention => retention.messageMetadataDays.isSome)
  | .webhookLogDays => body.retention.any (fun retention => retention.webhookLogDays.isSome)
  | .dmarcReportDays => body.retention.any (fun retention => retention.dmarcReportDays.isSome)

/-- The fields of a server that a request names. -/
def Call.namesServer : Call → ServerField → Bool
  | serversUpdate _ _ _ body, field => body.names field
  | serversSuspend _ _ _, field => field = .suspended ∨ field = .suspensionReason
  | serversUnsuspend _ _, field => field = .suspended ∨ field = .suspensionReason
  | _, _ => false

/-- The fields of a policy that a request names. -/
def Call.namesPolicy : Call → PolicyField → Bool
  | limitsUpdate _ _ body, field => body.names field
  | organizationSuspend _ _ _, field => field = .suspended ∨ field = .suspensionReason
  | organizationUnsuspend _ _, field => field = .suspended ∨ field = .suspensionReason
  | _, _ => false

/-- A field of a record in the tables. -/
inductive Field where
  | server (id : Id) (field : ServerField)
  | policy (organizationId : Id) (field : PolicyField)
deriving DecidableEq

def Tables.value (tables : Tables) : Field → Option FieldValue
  | .server id field => (tables.findServer id).map field.read
  | .policy id field => (tables.findOrganization id).map (fun found => field.read found.policy)

/-- What a request that has completed its write has written to a field that it names. -/
def written (field : Field) (entry : Call × Answered Command) : Option FieldValue :=
  match field, entry with
  | .server id field, (call, ⟨.updateServer server, .ok _⟩) =>
      if server.id = id ∧ call.namesServer field = true then some (field.read server) else none
  | .policy id field, (call, ⟨.setOrganizationPolicy organizationId policy, .ok _⟩) =>
      if organizationId = id ∧ call.namesPolicy field = true then some (field.read policy) else none
  | _, _ => none

abbrev Step := Event Tables Call (Option StoreError) Empty Command ApiError Reply

/-- A field after one more step, if its value is always the last one written by name. -/
def settle (field : Field) (value : Option FieldValue) (event : Step) : Option FieldValue :=
  ((answered event).bind (written field)).or value

/-! ## The condition -/

/-- The server that a request has read. -/
def readServer (history : List (Answered Command)) : Option ServerRow :=
  history.findSome? (fun
    | ⟨.serverByPermalink _ _, .ok server⟩ => server
    | _ => none)

/-- The policy that a request has read. -/
def readPolicy (history : List (Answered Command)) : Option (Id × PolicyRow) :=
  history.findSome? (fun
    | ⟨.organizationPolicy id, .ok policy⟩ => some (id, policy)
    | _ => none)

/-- A record that is written back still is as the request has read it. A suspended
organization has a reason, as every request that suspends one gives it. -/
def Current : Due Tables Call (Option StoreError) Command ApiError Reply → Prop
  | ⟨state, _, _, request, .updateServer server⟩ =>
      state.tables.findServer server.id = readServer request.history
  | ⟨state, _, _, request, .setOrganizationPolicy id _⟩ =>
      (state.tables.findOrganization id).map (fun found => (id, found.policy)) =
        readPolicy request.history ∧
      ∀ found ∈ state.tables.findOrganization id,
        found.policy.suspended = true → found.policy.suspensionReason.isSome = true
  | _ => True

instance : DecidablePred Current
  | ⟨state, _, _, request, .updateServer server⟩ =>
      inferInstanceAs (Decidable (state.tables.findServer server.id = readServer request.history))
  | ⟨state, _, _, request, .setOrganizationPolicy id _⟩ =>
      inferInstanceAs (Decidable ((state.tables.findOrganization id).map
          (fun found => (id, found.policy)) = readPolicy request.history ∧
        ∀ found ∈ state.tables.findOrganization id,
          found.policy.suspended = true → found.policy.suspensionReason.isSome = true))
  | ⟨_, _, _, _, .organizationByPermalink _⟩ => .isTrue trivial
  | ⟨_, _, _, _, .serverByPermalink _ _⟩ => .isTrue trivial
  | ⟨_, _, _, _, .organizationPolicy _⟩ => .isTrue trivial

/-! ## What a request changes -/

section Edits

variable {debug : Text → Text} {call : Call}

/-- A body changes no field of a server that it does not name. -/
theorem UpdateServer.edit_unnamed {principal : Principal} {body : UpdateServer}
    {server edited : ServerRow} {field : ServerField}
    (done : body.edit debug principal server = .ok edited) (unnamed : body.names field = false) :
    field.read edited = field.read server := by
  obtain ⟨mode, moded, rest⟩ := bind_eq_ok.mp done
  obtain ⟨limit, limited, rest⟩ := bind_eq_ok.mp rest
  obtain rfl := Except.ok.inj rest
  cases field
  case mode =>
    rw [Option.isSome_eq_false_iff.mp unnamed |> Option.isNone_iff_eq_none.mp] at moded
    exact congrArg _ (Except.ok.inj moded).symm
  case sendLimit =>
    rw [Option.isSome_eq_false_iff.mp unnamed |> Option.isNone_iff_eq_none.mp] at limited
    exact congrArg _ (Except.ok.inj limited).symm
  all_goals
    simp only [UpdateServer.names, Option.isSome_eq_false_iff, Option.isNone_iff_eq_none] at unnamed
    simp only [ServerField.read, unnamed, Option.getD_none, Option.none_or]

theorem Call.editServer_unnamed {server edited : ServerRow} {field : ServerField}
    (done : call.editServer debug server = .ok edited) (unnamed : call.namesServer field = false) :
    field.read edited = field.read server := by
  cases call with
  | serversUpdate principal organization permalink body =>
      exact UpdateServer.edit_unnamed done unnamed
  | serversSuspend organization permalink reason | serversUnsuspend organization permalink =>
      obtain rfl := Except.ok.inj done
      cases field <;> first | rfl | cases unnamed
  | limitsUpdate _ _ _
  | organizationSuspend _ _ _
  | organizationUnsuspend _ _ => exact congrArg field.read (Except.ok.inj done).symm

theorem applyDays_absent {target result : Option Nat} {change : Option (Option Int)}
    (done : applyDays target change = .ok result) (absent : change.isSome = false) :
    result = target := by
  cases change with
  | none => exact (Except.ok.inj done).symm
  | some days => cases absent

/-- A body changes no retention period that it does not name. -/
theorem newRetention_absent {present result : RetentionOverrides} {change : Option UpdateRetention}
    (done : newRetention present change = .ok result) :
    (change.any (fun body => body.messageContentDays.isSome) = false →
      result.messageContentDays = present.messageContentDays) ∧
    (change.any (fun body => body.messageMetadataDays.isSome) = false →
      result.messageMetadataDays = present.messageMetadataDays) ∧
    (change.any (fun body => body.webhookLogDays.isSome) = false →
      result.webhookLogDays = present.webhookLogDays) ∧
    (change.any (fun body => body.dmarcReportDays.isSome) = false →
      result.dmarcReportDays = present.dmarcReportDays) := by
  cases change with
  | none =>
      obtain rfl := Except.ok.inj done
      exact ⟨fun _ => rfl, fun _ => rfl, fun _ => rfl, fun _ => rfl⟩
  | some body =>
      obtain ⟨content, first, rest⟩ := bind_eq_ok.mp done
      obtain ⟨metadata, second, rest⟩ := bind_eq_ok.mp rest
      obtain ⟨webhooks, third, rest⟩ := bind_eq_ok.mp rest
      obtain ⟨reports, fourth, rest⟩ := bind_eq_ok.mp rest
      obtain rfl := Except.ok.inj rest
      exact ⟨applyDays_absent first, applyDays_absent second, applyDays_absent third,
        applyDays_absent fourth⟩

/-- A body that names neither the suspension nor its reason keeps the reason of a policy that
gives one when it has to. -/
theorem UpdateLimits.reason_unnamed {body : UpdateLimits} {policy : PolicyRow}
    (reasoned : policy.suspended = true → policy.suspensionReason.isSome = true)
    (unnamed : body.names .suspensionReason = false) :
    body.reason policy = policy.suspensionReason := by
  obtain ⟨reason, suspended⟩ := Bool.or_eq_false_iff.mp unnamed
  rw [Option.isSome_eq_false_iff, Option.isNone_iff_eq_none] at reason suspended
  unfold UpdateLimits.reason
  rw [reason, suspended]
  simp only [reduceCtorEq, if_false, Option.getD_none]
  split
  · next missing =>
      obtain ⟨off, none⟩ := Bool.and_eq_true_iff.mp missing
      have some := reasoned off
      rw [Option.isNone_iff_eq_none.mp none] at some
      cases some
  · rfl

/-- A body changes no field of a policy that it does not name. -/
theorem UpdateLimits.edit_unnamed {body : UpdateLimits} {policy changed : PolicyRow}
    {field : PolicyField}
    (reasoned : policy.suspended = true → policy.suspensionReason.isSome = true)
    (done : body.edit policy = .ok changed) (unnamed : body.names field = false) :
    field.read changed = field.read policy := by
  obtain ⟨limit, limited, rest⟩ := bind_eq_ok.mp done
  obtain ⟨retention, retained, rest⟩ := bind_eq_ok.mp rest
  obtain rfl := Except.ok.inj rest
  obtain ⟨content, metadata, webhooks, reports⟩ := newRetention_absent retained
  cases field with
  | monthlySendLimit =>
      rw [Option.isSome_eq_false_iff.mp unnamed |> Option.isNone_iff_eq_none.mp] at limited
      exact congrArg _ (Except.ok.inj limited).symm
  | suspended =>
      rw [UpdateLimits.names, Option.isSome_eq_false_iff, Option.isNone_iff_eq_none] at unnamed
      simp only [PolicyField.read, unnamed, Option.getD_none]
  | suspensionReason => exact congrArg _ (UpdateLimits.reason_unnamed reasoned unnamed)
  | messageContentDays => exact congrArg _ (content unnamed)
  | messageMetadataDays => exact congrArg _ (metadata unnamed)
  | webhookLogDays => exact congrArg _ (webhooks unnamed)
  | dmarcReportDays => exact congrArg _ (reports unnamed)

theorem Call.changePolicy_unnamed {policy changed : PolicyRow} {field : PolicyField}
    (reasoned : policy.suspended = true → policy.suspensionReason.isSome = true)
    (done : call.changePolicy policy = .ok changed) (unnamed : call.namesPolicy field = false) :
    field.read changed = field.read policy := by
  cases call with
  | limitsUpdate principal organization body =>
      exact UpdateLimits.edit_unnamed reasoned done unnamed
  | organizationSuspend principal organization reason
  | organizationUnsuspend principal organization =>
      obtain rfl := Except.ok.inj done
      cases field <;> first | rfl | cases unnamed
  | serversUpdate _ _ _ _
  | serversSuspend _ _ _
  | serversUnsuspend _ _ => exact congrArg field.read (Except.ok.inj done).symm

end Edits

/-! ## What a request writes -/

/-- A record that is written back is the edited form of the one that has been read. -/
def Edited (debug : Text → Text) (call : Call) (history : List (Answered Command)) :
    ∀ β, Command β → Prop
  | _, .updateServer edited => ∃ server, readServer history = some server ∧
      call.editServer debug server = .ok edited
  | _, .setOrganizationPolicy id changed => ∃ policy, readPolicy history = some (id, policy) ∧
      call.changePolicy policy = .ok changed
  | _, _ => True

section Promise

variable {debug : Text → Text} {call : Call} {organization permalink : Text}

theorem editServer_edited :
    Program.Safe (Edited debug call) (fun _ _ => True)
      (editServer organization permalink (call.editServer debug)) [] := by
  simp only [editServer, findServer, Program.bind_bind]
  apply ask_safe trivial (fun _ => trivial)
  intro found
  apply require_safe (fun _ => trivial)
  intro owner _
  apply ask_safe trivial (fun _ => trivial)
  intro found
  apply require_safe (fun _ => trivial)
  intro server present
  apply checked_safe (fun _ _ => trivial)
  intro edited done
  refine ask_safe ?_ (fun _ => trivial) (fun _ => ?_)
  · refine ⟨server, ?_, done⟩
    rw [present]
    rfl
  · trivial

theorem applyChange_edited {principal : Principal} :
    Program.Safe (Edited debug call) (fun _ _ => True)
      (do requireRoot principal; applyChange organization call.changePolicy) [] := by
  apply demand_safe (fun _ => trivial)
  intro _
  apply ask_safe trivial (fun _ => trivial)
  intro found
  apply require_safe (fun _ => trivial)
  intro owner _
  apply ask_safe trivial (fun _ => trivial)
  intro policy
  apply checked_safe (fun _ _ => trivial)
  intro changed done
  refine ask_safe ?_ (fun _ => trivial) (fun _ => ?_)
  · refine ⟨policy, rfl, ?_⟩
    cases outcome : call.changePolicy policy with
    | error message =>
        rw [outcome] at done
        cases done
    | ok value =>
        rw [outcome] at done
        exact congrArg _ (Except.ok.inj done)
  · trivial

theorem handler_edited (debug : Text → Text) (call : Call) :
    Program.Safe (Edited debug call) (fun _ _ => True) ((service debug).handler call) [] := by
  cases call with
  | serversUpdate | serversSuspend | serversUnsuspend => exact editServer_edited
  | limitsUpdate | organizationSuspend | organizationUnsuspend => exact applyChange_edited

end Promise

/-! ## What the tables hold afterwards -/

/-- The identity of a server does not change with an edit. -/
theorem setColumns_edited {debug : Text → Text} {call : Call} {server edited : ServerRow}
    (done : call.editServer debug server = .ok edited) :
    Tables.setColumns edited server = edited := by
  have same (field : ServerField) (unnamed : call.namesServer field = false) :
      field.read edited = field.read server := Call.editServer_unnamed done unnamed
  have id := same .id (by cases call <;> rfl)
  have uuid := same .uuid (by cases call <;> rfl)
  have owner := same .organizationId (by cases call <;> rfl)
  have permalink := same .permalink (by cases call <;> rfl)
  have token := same .token (by cases call <;> rfl)
  have pool := same .ipPoolId (by cases call <;> rfl)
  simp only [ServerField.read, FieldValue.identifier.injEq, FieldValue.text.injEq,
    Option.some.injEq] at id uuid owner permalink token pool
  unfold Tables.setColumns
  rw [← id, ← uuid, ← owner, ← permalink, ← token, ← pool]

theorem findServer_update (tables : Tables) (server : ServerRow) (id : Id) :
    (tables.updateServer server).findServer id = (tables.findServer id).map (fun row =>
      if row.id = server.id then Tables.setColumns server row else row) := by
  unfold Tables.updateServer Tables.findServer
  rw [List.find?_map]
  congr 2
  funext row
  simp only [Function.comp_apply]
  split <;> rfl

theorem findServer_id {tables : Tables} {id : Id} {server : ServerRow}
    (found : tables.findServer id = some server) : server.id = id := by
  simpa using List.find?_some found

theorem findOrganization_id {tables : Tables} {id : Id} {organization : ControlledOrganization}
    (found : tables.findOrganization id = some organization) : organization.id = id := by
  simpa using List.find?_some found

section

variable {tables after : Tables} {id : Id} {policy : PolicyRow} {nothing : Unit}
  (set : tables.setOrganizationPolicy id policy = .ok (nothing, after)) (other : Id)
include tables after id policy nothing set other

/-- The organizations after a policy has been set. -/
theorem findOrganization_set :
    after.findOrganization other = (tables.findOrganization other).map (fun organization =>
      if organization.id = id then { organization with policy := policy } else organization) := by
  unfold Tables.setOrganizationPolicy at set
  split at set
  · obtain ⟨-, rfl⟩ := Prod.mk.inj (Except.ok.inj set)
    unfold Tables.findOrganization
    rw [List.find?_map]
    congr 2
    funext organization
    simp only [Function.comp_apply]
    split <;> rfl
  · cases set

theorem findServer_set :
    after.findServer other = tables.findServer other := by
  unfold Tables.setOrganizationPolicy at set
  split at set
  · obtain ⟨-, rfl⟩ := Prod.mk.inj (Except.ok.inj set)
    rfl
  · cases set

end

/-- A server that is written back as it has been read changes in the fields that the request
names, and in no others. -/
theorem value_updateServer {debug : Text → Text} {call : Call} {tables : Tables}
    {server edited : ServerRow} (result : ServerRow)
    (current : tables.findServer edited.id = some server)
    (done : call.editServer debug server = .ok edited) (field : Field) :
    (tables.updateServer edited).value field =
      (written field (call, ⟨.updateServer edited, .ok result⟩)).or (tables.value field) := by
  cases field with
  | policy id field => rfl
  | server id field =>
      simp only [Tables.value, written, findServer_update]
      by_cases same : edited.id = id
      · subst same
        simp only [current, Option.map_some, findServer_id current, if_true, setColumns_edited done]
        split_ifs with named
        · rfl
        · rw [Call.editServer_unnamed done (by simpa using named)]
          rfl
      · rw [if_neg (fun both => same both.1), Option.none_or]
        cases found : tables.findServer id with
        | none => rfl
        | some row =>
            have other : row.id ≠ edited.id := fun equal =>
              same (equal.symm.trans (findServer_id found))
            simp only [Option.map_some, if_neg other]

/-- The same for a policy. -/
theorem value_setOrganizationPolicy {call : Call} {tables after : Tables} {id : Id}
    {found : ControlledOrganization} {changed : PolicyRow} {nothing : Unit}
    (current : tables.findOrganization id = some found)
    (reasoned : found.policy.suspended = true → found.policy.suspensionReason.isSome = true)
    (done : call.changePolicy found.policy = .ok changed)
    (set : tables.setOrganizationPolicy id changed = .ok (nothing, after)) (field : Field) :
    after.value field =
      (written field (call, ⟨.setOrganizationPolicy id changed, .ok nothing⟩)).or
        (tables.value field) := by
  cases field with
  | server id field => simp only [Tables.value, findServer_set set, written, Option.none_or]
  | policy other field =>
      simp only [Tables.value, written, findOrganization_set set]
      by_cases same : id = other
      · subst same
        simp only [current, Option.map_some, findOrganization_id current, if_true]
        split_ifs with named
        · rfl
        · rw [Call.changePolicy_unnamed reasoned done (by simpa using named)]
          rfl
      · rw [if_neg (fun both => same both.1), Option.none_or]
        cases there : tables.findOrganization other with
        | none => rfl
        | some row =>
            have distinct : row.id ≠ id := fun equal =>
              same (equal.symm.trans (findOrganization_id there))
            simp only [Option.map_some, if_neg distinct]

/-- What one answered command does to a field. -/
theorem execute_settles {debug : Text → Text}
    {state : Requests.State Tables Call Command ApiError Reply}
    {index : Nat} {fault : Option StoreError} {request : Request Call Command ApiError Reply}
    {β : Type} {command : Command β} {answer : β} {tables : Tables}
    (executed : execute fault command state.tables = some (answer, tables))
    (promise : Edited debug request.call request.history β command)
    (current : Current ⟨state, index, fault, request, command⟩) (field : Field) :
    tables.value field =
      (written field (request.call, ⟨command, answer⟩)).or (state.tables.value field) := by
  obtain executed := Option.some.inj executed
  cases command with
  | organizationByPermalink permalink | serverByPermalink organizationId permalink
  | organizationPolicy organizationId =>
      obtain ⟨error, rfl, rfl⟩ | ⟨value, rfl, done⟩ := attempted_cases executed
      · cases field <;> rfl
      · obtain ⟨-, rfl⟩ := Prod.mk.inj (Except.ok.inj done)
        cases field <;> rfl
  | updateServer edited =>
      obtain ⟨error, rfl, rfl⟩ | ⟨rfl, rfl⟩ := attempted_ok_cases executed
      · cases field <;> rfl
      · obtain ⟨server, read, edits⟩ := promise
        exact value_updateServer edited (current.trans read) edits field
  | setOrganizationPolicy id changed =>
      obtain ⟨error, rfl, rfl⟩ | ⟨value, rfl, set⟩ := attempted_cases executed
      · cases field <;> rfl
      · obtain ⟨policy, read, changes⟩ := promise
        obtain ⟨unchanged, reasoned⟩ := current
        rw [read, Option.map_eq_some_iff] at unchanged
        obtain ⟨found, there, same⟩ := unchanged
        obtain ⟨-, rfl⟩ := Prod.mk.inj same
        exact value_setOrganizationPolicy there (reasoned found there) changes set field

/-- What one step does to a field. -/
theorem step_settles {debug : Text → Text}
    {before after : Requests.State Tables Call Command ApiError Reply}
    {action : Requests.Action Call (Option StoreError) Empty} {output : Unit}
    (faithful : Faithful (Edited debug) (fun _ _ _ => True) before)
    (reaction : (service debug).step before action = some (output, after))
    (current : Answering Current ⟨before, action, output, after⟩) (field : Field) :
    after.tables.value field =
      settle field (before.tables.value field) ⟨before, action, output, after⟩ := by
  obtain ⟨call, rfl, rfl⟩ | ⟨index, fault, request, β, command, next, answer, tables, rfl, found,
    sends, executed, rfl⟩ | ⟨outside, -⟩ := (service debug).step_cases reaction
  · rfl
  · have promise := faithful index request found
    rw [sends] at promise
    rw [settle, answered_continued found]
    exact execute_settles executed promise.1 (current _ (due_answer found sends)) field
  · exact outside.elim

/-- One organization with one server. -/
def exampleTables : Tables where
  organizations := [{ id := 1, permalink := ['o'], policy := {} }]
  servers := [{
    id := 2, organizationId := 1, permalink := ['s'], token := ['t'], suspended := false
    privacyMode := false, allowSender := false, sendLimit := none
    uuid := ['u'], name := ['n'], mode := .live, suspensionReason := none
    logSmtpData := false, ipPoolId := none, trackOpens := true, trackClicks := true
    spamThreshold := none, outboundSpamThreshold := none, bounceHookUrl := none
    deliveryHookUrl := none, inboundDomain := none, color := none }]

/-- A member of the organization. -/
def exampleMember : Principal := .user ⟨7, "m@o.example", false⟩

/-- The member renames the server, and the operator suspends it. -/
def renameServer : Requests.Action Call (Option StoreError) Empty :=
  .start (.serversUpdate exampleMember ['o'] ['s'] { name := some ['m'] })

def suspendServer : Requests.Action Call (Option StoreError) Empty :=
  .start (.serversSuspend ['o'] ['s'] none)

end Camelmailer.Api.OperatorControl
