import Camelmailer.Api.ProvisioningRules

/-!
# Whom a sign-in through a connection reaches

`resolve_org_user` checks the domain of the address that the identity provider asserts. The
person who is signed in has this address, or has been linked to the connection under the asserted
subject before, and then has had an address in a domain of the organization when that was done.
The address can have changed since, and the organization can have given the domain up.
-/

namespace Camelmailer.Api.Directory.TenantSso

open Utf8 Db Requests Paths
open AuthApi (Profile)
open SingleUse (NewUser Invitation)

/-! ## What is on record of a sign-in -/

/-- The requests that sign in through a connection. -/
def isTenant : Call → Bool
  | .orgCallback _ => true
  | .orgAcs _ _ => true
  | _ => false

/-- An answer by which the identity provider of a connection asserts a subject and an address. -/
def Asserts (functions : Functions) (id : Id) (uid email : Text) (entry : Answered Command) : Prop :=
  (∃ code claims, entry = ⟨.identify (.connection id) code, .ok claims⟩ ∧ uid = claims.subject ∧
    email = claimedEmail functions claims) ∨
  ∃ response assertion, entry = ⟨.validateResponse (.connection id) response, .ok assertion⟩ ∧
    extractEmail functions assertion = some email ∧ uid = (present assertion.nameId).getD email

/-- A connection has been loaded, and its provider has asserted a subject and an address. -/
def Introduced (functions : Functions) (history : List (Answered Command))
    (connection : OrgSsoConnection) (uid email : Text) : Prop :=
  ∃ id, (⟨.orgSsoConnection id, .ok (some connection)⟩ : Answered Command) ∈ history ∧
    ∃ entry ∈ history, Asserts functions id uid email entry

/-- The domain of an address has been found to be verified by an organization. -/
def Verified (history : List (Answered Command)) (organizationId : Id) (email : Text) : Prop :=
  (⟨.organizationForVerifiedEmailDomain (domainOf email), .ok (some organizationId)⟩ :
    Answered Command) ∈ history

/-- A user has been found under an address, or created with it. -/
def Met (history : List (Answered Command)) (email : Text) (user : Profile) : Prop :=
  (⟨.userByEmail email, .ok (some user)⟩ : Answered Command) ∈ history ∨
    ∃ new : NewUser, new.emailAddress = email ∧
      (⟨.createUser new, .ok user⟩ : Answered Command) ∈ history

/-- A user has been found under a subject. -/
def Linked (history : List (Answered Command)) (connection : OrgSsoConnection) (uid : Text)
    (user : Profile) : Prop :=
  (⟨.userBySsoIdentity (connectionProvider connection.id) uid, .ok (some user)⟩ :
    Answered Command) ∈ history

section Kept

variable {functions : Functions} {history later : List (Answered Command)} {id : Id}
  {connection : OrgSsoConnection} {uid email : Text} {user : Profile}

theorem Introduced.kept (introduced : Introduced functions history connection uid email)
    (longer : history <+: later) : Introduced functions later connection uid email := by
  obtain ⟨id, loaded, entry, seen, asserts⟩ := introduced
  exact ⟨id, longer.subset loaded, entry, longer.subset seen, asserts⟩

theorem Met.kept (met : Met history email user) (longer : history <+: later) :
    Met later email user := by
  rcases met with found | ⟨new, own, made⟩
  · exact .inl (longer.subset found)
  · exact .inr ⟨new, own, longer.subset made⟩

end Kept

/-! ## What the sign-ins promise -/

/-- An identity is linked by a social provider, or by a connection whose organization has verified
the domain of the address under which the user has been met. A session of a sign-in through a
connection is for a user who has been met like this or was linked. -/
def Bound (functions : Functions) (settings : Settings) (call : Call)
    (history : List (Answered Command)) (β : Type) (command : Command β) : Prop :=
  match command with
  | .linkSsoIdentity userId provider subject =>
      (∃ federation, (provider, federation) ∈ settings.ssoProviders) ∨
      ∃ connection email user, Introduced functions history connection subject email ∧
        Verified history connection.organizationId email ∧ Met history email user ∧
        user.id = userId ∧ provider = connectionProvider connection.id
  | .createSession userId _ _ => isTenant call = true → ∃ connection uid email user,
      Introduced functions history connection uid email ∧
      Verified history connection.organizationId email ∧ user.id = userId ∧
      (Met history email user ∨ Linked history connection uid user)
  | _ => True

def Any (_ : Call) (_ : List (Answered Command)) (_ : Except ApiError Reply) : Prop := True

section Promises

variable {functions : Functions} {settings : Settings} {call : Call}
  {history : List (Answered Command)}

theorem plain_bound (functions : Functions) (settings : Settings) (call : Call)
    (history : List (Answered Command)) (β : Type) (command : Command β)
    (plain : letsIn command = false) : Bound functions settings call history β command := by
  cases command <;> trivial

/-- Nothing is demanded of a command that links no identity in a request that is no sign-in
through a connection. -/
theorem unlinked_bound (other : isTenant call = false) (history : List (Answered Command))
    (β : Type) (command : Command β) (unlinked : links command = false) :
    Bound functions settings call history β command := by
  cases command
  case createSession userId tokenHash expiresAt =>
    intro tenant
    rw [other] at tenant
    cases tenant
  all_goals trivial

/-- A part of a request that lets nobody in. -/
theorem plain_safe {γ : Type} {program : Handler γ} {next : γ → Handler Reply}
    (sends : program.Sends Plain)
    (continues : ∀ later result, history <+: later →
      Program.Safe (Bound functions settings call) (Any call) (next result) later) :
    Program.Safe (Bound functions settings call) (Any call) (program >>= next) history :=
  sends.safe_bind (fun later β command _ plain => plain_bound _ _ _ later β command plain.2)
    (fun _ _ _ => trivial) continues

/-- The end of a sign-in through a connection. -/
theorem completeLogin_bound {connection : OrgSsoConnection} {uid email event : Text}
    {user : Profile} (introduced : Introduced functions history connection uid email)
    (verified : Verified history connection.organizationId email)
    (reached : Met history email user ∨ Linked history connection uid user) :
    Program.Safe (Bound functions settings call) (Any call)
      (completeLogin functions settings user event) history := by
  apply plain_safe audit_sends
  intro later _ longer
  unfold issueSession
  simp only [Program.bind_bind]
  apply perform_safe trivial
  intro token
  apply perform_safe trivial
  intro now
  have extended : history <+: later ++ [⟨.generateToken, token⟩] ++ [⟨.now, now⟩] :=
    longer.trans ((List.prefix_append _ _).trans (List.prefix_append _ _))
  refine ask_safe (fun _ => ⟨connection, uid, email, user, introduced.kept extended,
    extended.subset verified, rfl, ?_⟩) (fun _ => trivial) (fun _ => trivial)
  rcases reached with met | linked
  · exact .inl (met.kept extended)
  · exact .inr (extended.subset linked)

section Resolve

variable {connection : OrgSsoConnection} {uid email name : Text} {next : Profile → Handler Reply}
  (continues : ∀ later user, Introduced functions later connection uid email →
    Verified later connection.organizationId email →
    (Met later email user ∨ Linked later connection uid user) →
    Program.Safe (Bound functions settings call) (Any call) (next user) later)

include continues

/-- A user who has been met is linked. -/
theorem link_bound {user : Profile} {rest : Handler Unit}
    (introduced : Introduced functions history connection uid email)
    (verified : Verified history connection.organizationId email)
    (met : Met history email user) (plain : rest.Sends Plain) :
    Program.Safe (Bound functions settings call) (Any call) (do
      ask (.linkSsoIdentity user.id (connectionProvider connection.id) uid)
      rest
      next user) history := by
  refine ask_safe (.inr ⟨connection, email, user, introduced, verified, met, rfl, rfl⟩)
    (fun _ => trivial) (fun _ => ?_)
  apply plain_safe plain
  intro later _ longer
  have extended := (List.prefix_append _ _).trans longer
  exact continues later user (introduced.kept extended) (extended.subset verified)
    (.inl (met.kept extended))

section

variable (introduced : Introduced functions history connection uid email)
include introduced

theorem provisionOrgUser_bound (verified : Verified history connection.organizationId email) :
    Program.Safe (Bound functions settings call) (Any call)
      (provisionOrgUser settings connection uid email name >>= next) history := by
  unfold provisionOrgUser provisioned
  simp only [Program.bind_bind]
  apply demand_safe (fun _ => trivial)
  intro _
  apply created_safe trivial (fun _ _ => trivial) (fun _ _ _ => trivial)
  intro later user longer made
  apply perform_safe trivial
  intro _
  have extended := longer.trans (List.prefix_append later [⟨.userRegistered user.id, ()⟩])
  have joins : (do
      ask (.upsertMembership connection.organizationId user.id connection.defaultRole)
      audit (some user.id) (some user.emailAddress) "sso.provision" :
        Handler Unit).Sends Plain :=
    (ask_sends ⟨rfl, rfl⟩).bind (fun _ => audit_sends)
  have met : Met (later ++ [⟨.userRegistered user.id, ()⟩]) email user :=
    .inr ⟨_, rfl, List.mem_append_left _ made⟩
  have linked := link_bound continues (introduced.kept extended) (extended.subset verified) met joins
  simp only [Program.bind_bind] at linked
  exact linked

theorem linkOrgUser_bound (verified : Verified history connection.organizationId email) :
    Program.Safe (Bound functions settings call) (Any call)
      (linkOrgUser settings connection uid email name >>= next) history := by
  unfold linkOrgUser
  rw [Program.bind_bind]
  apply ask_safe trivial (fun _ => trivial)
  intro known
  have extended : history <+: history ++ [⟨.userByEmail email, .ok known⟩] :=
    List.prefix_append _ _
  cases known with
  | none =>
      exact provisionOrgUser_bound continues (introduced.kept extended) (extended.subset verified)
  | some user =>
      simp only [Program.bind_bind]
      apply plain_safe ensureEnabled_sends
      intro later _ longer
      have whole := extended.trans longer
      have met : Met later email user := .inl (longer.subset
        (List.mem_append_right _ (List.mem_singleton_self _)))
      exact link_bound continues (introduced.kept whole) (whole.subset verified) met
        ensureMembership_sends

theorem resolveOrgUser_bound :
    Program.Safe (Bound functions settings call) (Any call)
      (resolveOrgUser settings connection uid email name >>= next) history := by
  unfold resolveOrgUser
  simp only [Program.bind_bind]
  apply demand_safe (fun _ => trivial)
  intro _
  apply ask_safe trivial (fun _ => trivial)
  intro owner
  apply demand_safe (fun _ => trivial)
  intro own
  obtain rfl : owner = some connection.organizationId := of_decide_eq_true own
  apply ask_safe trivial (fun _ => trivial)
  intro linked
  have checks := List.prefix_append history
    [⟨.organizationForVerifiedEmailDomain (domainOf email), .ok (some connection.organizationId)⟩]
  have extended := checks.trans (List.prefix_append _
    [⟨.userBySsoIdentity (connectionProvider connection.id) uid, .ok linked⟩])
  have verified : Verified (history ++
      [⟨.organizationForVerifiedEmailDomain (domainOf email),
        .ok (some connection.organizationId)⟩] ++
      [⟨.userBySsoIdentity (connectionProvider connection.id) uid, .ok linked⟩])
      connection.organizationId email :=
    List.mem_append_left _ (List.mem_append_right _ (List.mem_singleton_self _))
  cases linked with
  | none => exact linkOrgUser_bound continues (introduced.kept extended) verified
  | some user =>
      simp only [Program.bind_bind]
      apply plain_safe ensureEnabled_sends
      intro later _ longer
      apply plain_safe ensureMembership_sends
      intro last _ further
      have whole := longer.trans further
      refine continues last user (introduced.kept (extended.trans whole))
        (whole.subset verified) (.inr (whole.subset ?_))
      exact List.mem_append_right _ (List.mem_singleton_self _)

end

end Resolve

/-- A connection that has been loaded. -/
theorem loadEnabledConnection_bound {id : Id} {next : OrgSsoConnection → Handler Reply}
    (continues : ∀ connection, Program.Safe (Bound functions settings call) (Any call)
      (next connection) (history ++ [⟨.orgSsoConnection id, .ok (some connection)⟩])) :
    Program.Safe (Bound functions settings call) (Any call)
      (loadEnabledConnection id >>= next) history := by
  unfold loadEnabledConnection
  rw [Program.bind_bind]
  apply ask_safe trivial (fun _ => trivial)
  intro found
  apply require_safe (fun _ => trivial)
  intro connection enabled
  obtain ⟨rfl, -⟩ := Option.filter_eq_some_iff.mp enabled
  exact continues connection

theorem orgCallback_bound {query : LoginStates.CallbackQuery} :
    Program.Safe (Bound functions settings (.orgCallback query)) (Any (.orgCallback query))
      (orgCallback functions settings query) [] := by
  apply checked_safe (fun _ _ => trivial)
  rintro ⟨code, state⟩ _
  apply require_safe (fun _ => trivial)
  intro id _
  apply askOther_safe trivial (fun _ => trivial)
  intro _
  apply loadEnabledConnection_bound
  intro connection
  apply demand_safe (fun _ => trivial)
  intro _
  apply askOther_safe trivial (fun _ => trivial)
  intro claims
  apply resolveOrgUser_bound
  · intro later user introduced verified reached
    exact completeLogin_bound introduced verified reached
  · exact ⟨id, by simp, ⟨.identify (.connection id) code, .ok claims⟩, by simp,
      .inl ⟨code, claims, rfl, rfl, rfl⟩⟩

theorem orgAcs_bound {relayState samlResponse : Option Text} :
    Program.Safe (Bound functions settings (.orgAcs relayState samlResponse))
      (Any (.orgAcs relayState samlResponse))
      (orgAcs functions settings relayState samlResponse) [] := by
  apply require_safe (fun _ => trivial)
  intro id _
  apply loadEnabledConnection_bound
  intro connection
  apply demand_safe (fun _ => trivial)
  intro _
  apply require_safe (fun _ => trivial)
  intro response _
  apply askOther_safe trivial (fun _ => trivial)
  intro assertion
  apply demand_safe (fun _ => trivial)
  intro _
  apply plain_safe acceptAssertion_sends
  intro later _ longer
  apply require_safe (fun _ => trivial)
  intro email extracted
  apply resolveOrgUser_bound
  · intro later user introduced verified reached
    exact completeLogin_bound introduced verified reached
  · exact ⟨id, longer.subset (by simp), ⟨.validateResponse (.connection id) response,
      .ok assertion⟩, longer.subset (by simp), .inr ⟨response, assertion, rfl, extracted, rfl⟩⟩

/-- A command that links no identity but those of social providers. -/
def SocialLinks (settings : Settings) (β : Type) (command : Command β) : Prop :=
  match command with
  | .linkSsoIdentity _ provider _ => ∃ federation, (provider, federation) ∈ settings.ssoProviders
  | _ => True

/-- A social sign-in links an identity of its own provider. -/
theorem ssoCallback_bound {id : Text} {query : LoginStates.CallbackQuery} :
    Program.Safe (Bound functions settings (.ssoCallback id query)) (Any (.ssoCallback id query))
      (ssoCallback functions settings id query) [] := by
  have sends : (ssoCallback functions settings id query).Sends (SocialLinks settings) := by
    apply ssoCallback_sends
    · intro β command ordinary
      cases command <;> first | trivial | cases ordinary.1
    · intro provider member userId subject
      exact ⟨provider.2, member⟩
  apply sends.safe
  · intro later β command social
    cases command
    case linkSsoIdentity userId provider subject => exact .inl social
    all_goals exact unlinked_bound rfl later _ _ rfl
  · intro later result
    trivial

theorem handler_bound (functions : Functions) (settings : Settings) (call : Call) :
    Program.Safe (Bound functions settings call) (Any call)
      ((service functions settings).handler call) [] := by
  cases linking : isLinking call with
  | false =>
      have other : isTenant call = false := by cases call <;> first | rfl | cases linking
      exact (handler_unlinked linking).safe
        (fun later β command unlinked => unlinked_bound other later β command unlinked)
        (fun _ _ => trivial)
  | true =>
      cases call with
      | ssoCallback id query => exact ssoCallback_bound
      | orgCallback query => exact orgCallback_bound
      | orgAcs relayState samlResponse => exact orgAcs_bound
      | _ => cases linking

end Promises

/-! ## What is true of the store -/

section Tables

variable {store : StoreKind} {choice : Choice} {tables after : Tables}

/-- A user who has been met is in the table, with the address. -/
theorem respond_met {email : Text} {user : Profile} {β : Type} {command : Command β} {answer : β}
    (responds : respond store choice command tables = (answer, after))
    (meets : (⟨command, answer⟩ : Answered Command) = ⟨.userByEmail email, .ok (some user)⟩ ∨
      ∃ new : NewUser, new.emailAddress = email ∧
        (⟨command, answer⟩ : Answered Command) = ⟨.createUser new, .ok user⟩) :
    user ∈ after.users.rows ∧ Str.eqIgnoreAsciiCase user.emailAddress email = true := by
  rcases meets with found | ⟨new, rfl, made⟩
  · cases found
    have done := attempted_ok responds
    obtain ⟨there, rfl⟩ := Prod.mk.inj (Except.ok.inj done)
    exact Tables.mem_of_userByEmail there
  · cases made
    have done := attempted_ok responds
    obtain ⟨own, fresh, rfl⟩ := Tables.createUser_ok done
    refine ⟨(Table.mem_insert fresh).mpr (.inl rfl), ?_⟩
    rw [own]
    exact beq_self_eq_true _

/-- The domain of an address has been verified by the organization that the store names. -/
theorem respond_verified {domain : Text} {organizationId : Id}
    (responds : respond store choice (.organizationForVerifiedEmailDomain domain) tables =
      (.ok (some organizationId), after)) :
    tables.organizationForVerifiedEmailDomain domain = some organizationId := by
  have done := attempted_ok responds
  exact (Prod.mk.inj (Except.ok.inj done)).1

/-- A user who has been found under a subject is linked to it. -/
theorem respond_linked {provider subject : Text} {user : Profile}
    (responds : respond store choice (.userBySsoIdentity provider subject) tables =
      (.ok (some user), after)) :
    ⟨provider, subject, user.id⟩ ∈ tables.identities := by
  have done := attempted_ok responds
  obtain ⟨row, there, found⟩ := Option.bind_eq_some_iff.mp (Prod.mk.inj (Except.ok.inj done)).1
  obtain ⟨rfl, rfl⟩ : row.provider = provider ∧ row.subject = subject := by
    simpa using List.find?_some there
  have own : user.id = row.userId := (Table.find_some found).2
  rw [own]
  exact List.mem_of_find?_eq_some there

/-- A connection that has been loaded is in the table. -/
theorem respond_loaded {id : Id} {connection : OrgSsoConnection}
    (responds : respond store choice (.orgSsoConnection id) tables =
      (.ok (some connection), after)) :
    connection ∈ tables.connections.rows ∧ connection.id = id := by
  have done := attempted_ok responds
  exact Table.find_some (Prod.mk.inj (Except.ok.inj done)).1

end Tables

/-! ## The invariant -/

/-- An answer that has shown a connection of an organization. -/
def Shows (id organizationId : Id) (entry : Answered Command) : Prop :=
  ∃ connection, entry = ⟨.orgSsoConnection id, .ok (some connection)⟩ ∧
    connection.id = id ∧ connection.organizationId = organizationId

/-- A connection of an organization is in the table, or has been seen there. -/
def Owned (state : Requesting) (id organizationId : Id) : Prop :=
  (∃ row ∈ state.tables.connections.rows, row.id = id ∧ row.organizationId = organizationId) ∨
    state.Recorded (fun _ entry => Shows id organizationId entry)

/-- What stands behind an identity: it has been there from the start, is one of a social provider,
or has been linked for a user who has been met under an address in a verified domain. -/
def Vouched (functions : Functions) (settings : Settings) (initial : List SsoIdentity)
    (state : Requesting) (row : SsoIdentity) : Prop :=
  row ∈ initial ∨ (∃ federation, (row.provider, federation) ∈ settings.ssoProviders) ∨
  ∃ (index : Nat) (request : Request Call Command ApiError Reply),
    state.requests[index]? = some request ∧
    ∃ connection email user, Introduced functions request.history connection row.subject email ∧
      Verified request.history connection.organizationId email ∧ Met request.history email user ∧
      user.id = row.userId ∧ row.provider = connectionProvider connection.id

structure Inv (functions : Functions) (settings : Settings) (initial : List SsoIdentity)
    (state : Requesting) : Prop where
  /-- A connection never changes its organization. -/
  owned : ∀ id organizationId, Owned state id organizationId →
    id < state.tables.connections.next ∧
      ∀ other, Owned state id other → other = organizationId
  linked : ∀ row ∈ state.tables.identities, Vouched functions settings initial state row
  found : ∀ request ∈ state.requests, ∀ provider subject user,
    (⟨.userBySsoIdentity provider subject, .ok (some user)⟩ : Answered Command) ∈ request.history →
    Vouched functions settings initial state ⟨provider, subject, user.id⟩
  loaded : ∀ request ∈ state.requests, ∀ id connection,
    (⟨.orgSsoConnection id, .ok (some connection)⟩ : Answered Command) ∈ request.history →
    connection.id = id

section Steps

variable {functions : Functions} {settings : Settings} {initial : List SsoIdentity}
  {state after : Requesting}

theorem Vouched.kept {row : SsoIdentity} (vouched : Vouched functions settings initial state row)
    (grows : state.Extends after) : Vouched functions settings initial after row := by
  rcases vouched with old | social | ⟨index, request, there, connection, email, user, introduced,
    verified, met, own, provider⟩
  · exact .inl old
  · exact .inr (.inl social)
  · obtain ⟨later, present, -, longer⟩ := grows index request there
    exact .inr (.inr ⟨index, later, present, connection, email, user, introduced.kept longer,
      longer.subset verified, met.kept longer, own, provider⟩)

variable {index : Nat} {request : Request Call Command ApiError Reply} {choice : Choice} {β : Type}
  {command : Command β} {answer : β} {tables : Tables} {program : Handler Reply}

/-- A connection that is owned after an answer was owned before, or is new. -/
theorem owned_continued {id organizationId : Id} (found : state.requests[index]? = some request)
    (responds : respond settings.store choice command state.tables = (answer, tables))
    (owned : Owned ({ state with tables := tables }.put index
      (request.continued command answer program)) id organizationId) :
    Owned state id organizationId ∨ (id = state.tables.connections.next ∧
      ∃ row ∈ tables.connections.rows, row.id = id ∧ row.organizationId = organizationId) := by
  rcases owned with ⟨row, member, rfl, rfl⟩ | recorded
  · rcases (respond_connections responds).2 row member with ⟨old, there, same, own⟩ | new
    · exact .inl (.inl ⟨old, there, same, own⟩)
    · exact .inr ⟨new, row, member, rfl, rfl⟩
  · rcases State.Recorded.of_continued found recorded with old | ⟨connection, same, rfl, rfl⟩
    · exact .inl (.inr old)
    · cases same
      exact .inl (.inl ⟨connection, (respond_loaded responds).1, rfl, rfl⟩)

theorem Inv.owned_answer (inv : Inv functions settings initial state)
    (found : state.requests[index]? = some request)
    (responds : respond settings.store choice command state.tables = (answer, tables))
    (id organizationId : Id)
    (owned : Owned ({ state with tables := tables }.put index
      (request.continued command answer program)) id organizationId) :
    id < tables.connections.next ∧ ∀ other, Owned ({ state with tables := tables }.put index
      (request.continued command answer program)) id other → other = organizationId := by
  have grows := (respond_connections responds).1
  rcases owned_continued found responds owned with old | ⟨fresh, row, member, rfl, rfl⟩
  · obtain ⟨below, alone⟩ := inv.owned id organizationId old
    refine ⟨Nat.lt_of_lt_of_le below grows, fun other too => ?_⟩
    rcases owned_continued found responds too with before | ⟨fresh, -⟩
    · exact alone other before
    · exact absurd below (Nat.not_lt_of_le (Nat.le_of_eq fresh.symm))
  · refine ⟨tables.connections.below row member, fun other too => ?_⟩
    rcases owned_continued found responds too with before | ⟨-, there, present, same, rfl⟩
    · have below := (inv.owned row.id other before).1
      exact absurd below (Nat.not_lt_of_le (Nat.le_of_eq fresh.symm))
    · rw [Table.unique present member same]

theorem Inv.linked_answer (inv : Inv functions settings initial state)
    (found : state.requests[index]? = some request)
    (promise : Bound functions settings request.call request.history β command)
    (responds : respond settings.store choice command state.tables = (answer, tables))
    (row : SsoIdentity) (member : row ∈ tables.identities) :
    Vouched functions settings initial ({ state with tables := tables }.put index
      (request.continued command answer program)) row := by
  have grows : state.Extends ({ state with tables := tables }.put index
      (request.continued command answer program)) := State.extends_continued found
  rcases respond_identities responds member with old | new
  · exact (inv.linked row old).kept grows
  · cases new
    rcases promise with social | ⟨connection, email, user, evidence⟩
    · exact .inr (.inl social)
    · have vouched : Vouched functions settings initial state row :=
        .inr (.inr ⟨index, request, found, connection, email, user, evidence⟩)
      exact vouched.kept grows

theorem Inv.kept (functions : Functions) (settings : Settings) (initial : List SsoIdentity) :
    Kept (service functions settings) (Bound functions settings) (fun _ => True)
      (Inv functions settings initial) where
  start := by
    intro state call inv
    have grows := State.extends_opened (service functions settings) state call
    have back {id organizationId : Id} (owned : Owned { state with
        requests := state.requests ++ [(service functions settings).opened call] } id
        organizationId) : Owned state id organizationId := by
      rcases owned with stored | recorded
      · exact .inl stored
      · exact .inr recorded.of_opened
    refine ⟨fun id organizationId owned => ?_, fun row member => (inv.linked row member).kept grows,
      ?_, ?_⟩
    · obtain ⟨below, alone⟩ := inv.owned id organizationId (back owned)
      exact ⟨below, fun other too => alone other (back too)⟩
    · intro request member provider subject user seen
      rcases List.mem_append.mp member with old | new
      · exact (inv.found request old provider subject user seen).kept grows
      · cases List.mem_singleton.mp new
        cases seen
    · intro request member id connection seen
      rcases List.mem_append.mp member with old | new
      · exact inv.loaded request old id connection seen
      · cases List.mem_singleton.mp new
        cases seen
  answer := by
    intro state index choice request β command next answer tables inv found promise executed _
    have responds := Option.some.inj executed
    have grows : state.Extends ({ state with tables := tables }.put index
        (request.continued command answer (next answer))) := State.extends_continued found
    refine ⟨inv.owned_answer found responds, inv.linked_answer found promise responds, ?_, ?_⟩
    · intro other member provider subject user seen
      obtain ⟨place, present⟩ := List.mem_iff_getElem?.mp member
      obtain ⟨-, rfl⟩ | ⟨-, unchanged⟩ := State.put_cases present
      · rcases List.mem_append.mp seen with old | new
        · exact (inv.found request (List.mem_of_getElem? found) provider subject user old).kept grows
        · cases List.mem_singleton.mp new
          exact (inv.linked _ (respond_linked responds)).kept grows
      · exact (inv.found other (List.mem_of_getElem? unchanged) provider subject user seen).kept grows
    · intro other member id connection seen
      obtain ⟨place, present⟩ := List.mem_iff_getElem?.mp member
      obtain ⟨-, rfl⟩ | ⟨-, unchanged⟩ := State.put_cases present
      · rcases List.mem_append.mp seen with old | new
        · exact inv.loaded request (List.mem_of_getElem? found) id connection old
        · cases List.mem_singleton.mp new
          exact (respond_loaded responds).2
      · exact inv.loaded other (List.mem_of_getElem? unchanged) id connection seen
  disturb := by
    intro state outside tables inv disturbed
    cases outside with
    | organizationDeleted deleted =>
        obtain rfl := Option.some.inj disturbed
        have back {id organizationId : Id} (owned : Owned { state with
            tables := state.tables.deleteOrganization deleted } id organizationId) :
            Owned state id organizationId := by
          rcases owned with ⟨row, member, own⟩ | recorded
          · exact .inl ⟨row, List.mem_of_mem_filter member, own⟩
          · exact .inr recorded
        refine ⟨fun id organizationId owned => ?_, inv.linked, inv.found, inv.loaded⟩
        obtain ⟨below, alone⟩ := inv.owned id organizationId (back owned)
        exact ⟨below, fun other too => alone other (back too)⟩

end Steps

/-! ## Whom a session is for -/

/-- An event that answers a request. -/
def At (index : Nat) (event : DirectoryStep) : Prop := ∃ choice, event.input = .answer index choice

/-- Events of a request that signs in through a connection: the connection is loaded, its provider
asserts a subject and an address, and the domain of the address is verified by the organization of
the connection. -/
structure SignIn (functions : Functions) (events : List DirectoryStep) (index : Nat)
    (connectionId organizationId : Id) (uid email : Text) : Prop where
  loads : ∃ event ∈ events, ∃ call connection,
    AnswersTo index call ⟨.orgSsoConnection connectionId, .ok (some connection)⟩ event ∧
    connection.organizationId = organizationId
  asserts : ∃ event ∈ events, ∃ call entry, AnswersTo index call entry event ∧
    Asserts functions connectionId uid email entry
  verified : ∃ event ∈ events, At index event ∧
    event.before.tables.organizationForVerifiedEmailDomain (domainOf email) = some organizationId

/-- Events of a request that has found or created a user, and has found the domain of the user's
address to be verified by an organization. -/
structure Meets (events : List DirectoryStep) (index : Nat) (organizationId : Id)
    (user : Profile) : Prop where
  present : ∃ event ∈ events, At index event ∧ user ∈ event.after.tables.users.rows
  verified : ∃ event ∈ events, At index event ∧
    event.before.tables.organizationForVerifiedEmailDomain (domainOf user.emailAddress) =
      some organizationId

section Events

variable {functions : Functions} {settings : Settings} {front : List DirectoryStep}
  {state : Requesting} {index : Nat} {request : Request Call Command ApiError Reply}
  {connection : OrgSsoConnection} {uid email : Text} {user : Profile}

/-- What has been answered before a state is on record in it. -/
def Accounted (functions : Functions) (settings : Settings) (front : List DirectoryStep)
    (state : Requesting) : Prop :=
  (∀ (index : Nat) request, state.requests[index]? = some request → ∀ entry ∈ request.history,
    ∃ past ∈ front, AnswersTo index request.call entry past) ∧
  ∀ past ∈ front, (service functions settings).step past.before past.input =
    some (past.output, past.after)

section

variable (accounted : Accounted functions settings front state)
  (there : state.requests[index]? = some request)
include accounted there

theorem Accounted.responded {β : Type} {command : Command β} {answer : β}
    (seen : (⟨command, answer⟩ : Answered Command) ∈ request.history) :
    ∃ past ∈ front, AnswersTo index request.call ⟨command, answer⟩ past ∧ ∃ choice,
      respond settings.store choice command past.before.tables = (answer, past.after.tables) := by
  obtain ⟨past, member, answers⟩ := accounted.1 index request there _ seen
  obtain ⟨choice, executed⟩ := answered_executed (accounted.2 past member) answers.2
  exact ⟨past, member, answers, choice, Option.some.inj executed⟩

theorem Accounted.verified {organizationId : Id}
    (verified : Verified request.history organizationId email) :
    ∃ event ∈ front, At index event ∧
      event.before.tables.organizationForVerifiedEmailDomain (domainOf email) =
        some organizationId := by
  obtain ⟨past, member, ⟨own, -⟩, choice, responds⟩ := accounted.responded there verified
  exact ⟨past, member, own, respond_verified responds⟩

theorem Accounted.signIn (introduced : Introduced functions request.history connection uid email)
    (named : ∀ id, (⟨.orgSsoConnection id, .ok (some connection)⟩ : Answered Command) ∈
      request.history → connection.id = id)
    (verified : Verified request.history connection.organizationId email) :
    SignIn functions front index connection.id connection.organizationId uid email := by
  obtain ⟨id, loaded, entry, seen, asserts⟩ := introduced
  obtain rfl := named id loaded
  obtain ⟨loading, before, answers⟩ := accounted.1 index request there _ loaded
  obtain ⟨telling, earlier, tells⟩ := accounted.1 index request there _ seen
  exact ⟨⟨loading, before, request.call, connection, answers, rfl⟩,
    ⟨telling, earlier, request.call, entry, tells, asserts⟩, accounted.verified there verified⟩

theorem Accounted.meets {organizationId : Id}
    (verified : Verified request.history organizationId email)
    (met : Met request.history email user) : Meets front index organizationId user := by
  have present : ∃ event ∈ front, At index event ∧ user ∈ event.after.tables.users.rows ∧
      Str.eqIgnoreAsciiCase user.emailAddress email = true := by
    rcases met with found | ⟨new, own, made⟩
    · obtain ⟨past, member, ⟨own, -⟩, choice, responds⟩ := accounted.responded there found
      exact ⟨past, member, own, respond_met responds (.inl rfl)⟩
    · obtain ⟨past, member, ⟨at_, -⟩, choice, responds⟩ := accounted.responded there made
      exact ⟨past, member, at_, respond_met responds (.inr ⟨new, own, rfl⟩)⟩
  obtain ⟨meeting, member, own, stored, same⟩ := present
  obtain ⟨check, before, mine, holds⟩ := accounted.verified there verified
  refine ⟨⟨meeting, member, own, stored⟩, check, before, mine, ?_⟩
  unfold Tables.organizationForVerifiedEmailDomain at holds ⊢
  rw [normalizeDomain_of_eq same]
  exact holds

end

end Events

theorem connectionProvider_injective {first second : Id}
    (same : connectionProvider first = connectionProvider second) : first = second :=
  decimal_injective (List.append_cancel_left same)

/-- The user whom a sign-in through a connection issues a session for. -/
def issued (event : DirectoryStep) : Option Id :=
  match answered event with
  | some (call, ⟨.createSession userId _ _, .ok ()⟩) => if isTenant call then some userId else none
  | _ => none

theorem issued_cases {event : DirectoryStep} {userId : Id} (signedIn : issued event = some userId) :
    ∃ call tokenHash expiresAt, isTenant call = true ∧
      answered event = some (call, ⟨.createSession userId tokenHash expiresAt, .ok ()⟩) := by
  unfold issued at signedIn
  split at signedIn
  · next call user tokenHash expiresAt answers =>
      split_ifs at signedIn with tenant
      cases signedIn
      exact ⟨call, tokenHash, expiresAt, tenant, answers⟩
  · cases signedIn

def exampleDomain : OrgEmailDomain :=
  { organizationId := 1, domain := "acme.example", verificationToken := [], id := 1,
    verified := true }

def exampleConnection : OrgSsoConnection :=
  { organizationId := 1, kind := .github, name := "Acme", enabled := true, config := .null,
    defaultRole := .member, autoProvision := true, id := 1 }

/-- An organization with a verified domain and a connection. -/
def exampleTables : Tables where
  users := .empty 1
  identities := []
  invitations := []
  domains := (Table.empty 1).insert exampleDomain rfl
  connections := (Table.empty 1).insert exampleConnection rfl
  nextInvitation := 1

/-- A sign-in through the connection, whose provider asserts a subject and an address. -/
def signIn (index times : Nat) : List DirectoryAction :=
  .start (.orgCallback { code := some "c".toList, state := some "1~s".toList }) ::
    List.replicate times (.answer index
      { claims := .ok { subject := "7", email := some "a@acme.example".toList } })

/-- A user signs in and is created, gets another address, and signs in again. -/
def signInAgain : List DirectoryAction :=
  signIn 0 15 ++
    .start (.usersUpdate 1 { emailAddress := some "a@other.example".toList }) ::
    List.replicate 2 (.answer 1 {}) ++
    signIn 2 12

end Camelmailer.Api.Directory.TenantSso
