import Camelmailer.Api.Provisioning

/-!
# What the parts of the endpoints send

Rules for the parts that the endpoints are made of. Most of them send neither a command that
writes a user or an invitation, nor one that lets somebody in.
-/

namespace Camelmailer.Api.Directory

open Utf8 Db Requests Paths
open AuthApi (Profile)
open SingleUse (NewUser Invitation)

/-- A command that writes an address. -/
def writesAddress {β : Type} : Command β → Bool
  | .createUser _ => true
  | .updateUser _ => true
  | .createInvitation _ => true
  | _ => false

/-- A command that lets somebody in, now or later. -/
def letsIn {β : Type} : Command β → Bool
  | .linkSsoIdentity _ _ _ => true
  | .createSession _ _ _ => true
  | _ => false

/-- A command that does neither. -/
def Plain (β : Type) (command : Command β) : Prop :=
  writesAddress command = false ∧ letsIn command = false

section Sends

variable {functions : Functions} {settings : Settings}

theorem askOther_sends {β : Type} {command : Command (Except ApiError β)}
    {Kind : ∀ β, Command β → Prop} (kind : Kind _ command) : (askOther command).Sends Kind := by
  refine ⟨kind, fun answer => ?_⟩
  cases answer <;> trivial

variable {event : Text}

theorem audit_sends {userId : Option Id} {emailAddress : Option Text} :
    (audit userId emailAddress event).Sends Plain :=
  (Program.Sends.perform ⟨rfl, rfl⟩).bind (fun _ => trivial)

theorem hashed_sends {password : Text} : (hashed password).Sends Plain := by
  refine ⟨⟨rfl, rfl⟩, fun answer => ?_⟩
  cases answer <;> trivial

theorem checkLength_sends {password : Text} : (checkLength settings password).Sends Plain :=
  demand_sends

theorem checkCaptcha_sends {token : Option Text} : (checkCaptcha settings token).Sends Plain := by
  unfold checkCaptcha
  split_ifs
  · exact require_sends.bind (fun _ => askOther_sends ⟨rfl, rfl⟩)
  · trivial

variable {organizationId : Id}

theorem isMember_sends {email : Text} :
    (isMember organizationId email).Sends Plain := by
  refine ⟨⟨rfl, rfl⟩, fun answer => ?_⟩
  match answer with
  | .error error => trivial
  | .ok none => trivial
  | .ok (some user) => exact (Program.Sends.perform ⟨rfl, rfl⟩).bind (fun _ => trivial)

theorem initialDigest_sends {password : Option Text} :
    (initialDigest settings password).Sends Plain := by
  unfold initialDigest
  split
  · trivial
  · exact checkLength_sends.bind (fun _ => hashed_sends.bind (fun _ => trivial))

variable {userId : Id}

theorem isActive_sends : (isActive userId).Sends Plain :=
  (askWith_sends ⟨rfl, rfl⟩).bind (fun _ => trivial)

variable {user : Profile}

theorem applyActive_sends {active : Bool} :
    (applyActive user active).Sends Plain := by
  refine isActive_sends.bind (fun wasActive => ?_)
  split_ifs
  · trivial
  · exact (askWith_sends ⟨rfl, rfl⟩).bind (fun _ => audit_sends)
  · exact (askWith_sends ⟨rfl, rfl⟩).bind (fun _ =>
      (Program.Sends.perform ⟨rfl, rfl⟩).bind (fun _ => audit_sends))

theorem deactivated_sends {active : Bool} :
    (deactivated user active).Sends Plain := by
  unfold deactivated
  split_ifs
  · trivial
  · exact applyActive_sends

theorem activatePatched_sends {active : Option Bool} :
    (activatePatched user active).Sends Plain := by
  cases active with
  | none => trivial
  | some active => exact applyActive_sends

theorem findUser_sends {id : Text} : (findUser id).Sends Plain :=
  require_sends.bind (fun _ => (askWith_sends ⟨rfl, rfl⟩).bind (fun _ => require_sends))

theorem ensureEnabled_sends : (ensureEnabled userId).Sends Plain :=
  (ask_sends ⟨rfl, rfl⟩).bind (fun _ => demand_sends)

theorem ensureMembership_sends {role : Role} :
    (ensureMembership organizationId userId role).Sends Plain := by
  refine (ask_sends ⟨rfl, rfl⟩).bind (fun found => ?_)
  cases found with
  | none => exact ask_sends ⟨rfl, rfl⟩
  | some role => trivial

theorem welcomed_sends : (welcomed user event).Sends Plain :=
  audit_sends.bind (fun _ => Program.Sends.perform ⟨rfl, rfl⟩)

theorem acceptAssertion_sends {assertion : Saml.ValidatedAssertion} :
    (acceptAssertion assertion).Sends Plain :=
  (ask_sends ⟨rfl, rfl⟩).bind (fun _ => demand_sends.bind (fun _ =>
    (ask_sends ⟨rfl, rfl⟩).bind (fun _ => demand_sends)))

theorem requireOrg_sends {permalink : Text} : (requireOrg permalink).Sends Plain :=
  (ask_sends ⟨rfl, rfl⟩).bind (fun _ => require_sends)

variable {id : Id}

theorem requireDomain_sends :
    (requireDomain organizationId id).Sends Plain :=
  (ask_sends ⟨rfl, rfl⟩).bind (fun _ => require_sends)

theorem requireConnection_sends :
    (requireConnection organizationId id).Sends Plain :=
  (ask_sends ⟨rfl, rfl⟩).bind (fun _ => require_sends)

theorem proveOrForce_sends {domain : OrgEmailDomain} {force isAdminKey : Bool} :
    (proveOrForce settings domain force isAdminKey).Sends Plain := by
  unfold proveOrForce
  split_ifs
  · exact demand_sends
  · refine ⟨⟨rfl, rfl⟩, fun answer => ?_⟩
    cases answer with
    | error error => trivial
    | ok records => exact demand_sends

/-- The requests that neither write an address nor let anybody in. -/
def isPlain : Call → Bool
  | .usersDestroy _ => true
  | .scimDelete _ => true
  | .domainsCreate _ _ => true
  | .domainsVerify _ _ _ _ => true
  | .domainsDestroy _ _ => true
  | .connectionsCreate _ _ => true
  | .connectionsUpdate _ _ _ => true
  | .connectionsDestroy _ _ => true
  | _ => false

theorem handler_sends {call : Call} (plain : isPlain call = true) :
    (handler functions settings call).Sends Plain := by
  cases call with
  | usersDestroy id =>
      exact (ask_sends ⟨rfl, rfl⟩).bind (fun _ => require_sends.bind (fun _ =>
        (ask_sends ⟨rfl, rfl⟩).bind (fun _ => trivial)))
  | scimDelete id =>
      exact findUser_sends.bind (fun _ => applyActive_sends.bind (fun _ => trivial))
  | domainsCreate permalink domain =>
      exact requireOrg_sends.bind (fun _ => (Program.Sends.perform ⟨rfl, rfl⟩).bind (fun _ =>
        (ask_sends ⟨rfl, rfl⟩).bind (fun _ => trivial)))
  | domainsVerify permalink id force isAdminKey =>
      exact requireOrg_sends.bind (fun _ => requireDomain_sends.bind (fun _ =>
        proveOrForce_sends.bind (fun _ => (ask_sends ⟨rfl, rfl⟩).bind (fun _ =>
          (Program.Sends.perform ⟨rfl, rfl⟩).bind (fun _ => trivial)))))
  | domainsDestroy permalink id =>
      exact requireOrg_sends.bind (fun _ => requireDomain_sends.bind (fun _ =>
        (ask_sends ⟨rfl, rfl⟩).bind (fun _ => trivial)))
  | connectionsCreate permalink body =>
      exact requireOrg_sends.bind (fun _ => require_sends.bind (fun _ =>
        demand_sends.bind (fun _ => checked_sends.bind (fun _ => checked_sends.bind (fun _ =>
          (ask_sends ⟨rfl, rfl⟩).bind (fun _ => trivial))))))
  | connectionsUpdate permalink id body =>
      exact requireOrg_sends.bind (fun _ => requireConnection_sends.bind (fun _ =>
        checked_sends.bind (fun _ => (ask_sends ⟨rfl, rfl⟩).bind (fun _ =>
          require_sends.bind (fun _ => trivial)))))
  | connectionsDestroy permalink id =>
      exact requireOrg_sends.bind (fun _ => requireConnection_sends.bind (fun _ =>
        (ask_sends ⟨rfl, rfl⟩).bind (fun _ => trivial)))
  | _ => cases plain

/-! ### Requests that link no identity and invite nobody -/

/-- A command that links an identity. -/
def links {β : Type} : Command β → Bool
  | .linkSsoIdentity _ _ _ => true
  | _ => false

/-- A command that stores an invitation. -/
def invites {β : Type} : Command β → Bool
  | .createInvitation _ => true
  | _ => false

/-- A command that does neither. -/
def Ordinary (β : Type) (command : Command β) : Prop :=
  links command = false ∧ invites command = false

def Unlinked (β : Type) (command : Command β) : Prop := links command = false

def Uninviting (β : Type) (command : Command β) : Prop := invites command = false

section Kinds

variable {γ : Type} {program : Handler γ}

theorem Plain.ordinary (sends : program.Sends Plain) : program.Sends Ordinary := by
  apply sends.mono
  intro β command plain
  cases command <;> first | exact ⟨rfl, rfl⟩ | (cases plain.1; done) | cases plain.2

theorem Ordinary.unlinked (sends : program.Sends Ordinary) : program.Sends Unlinked :=
  sends.mono (fun _ _ ordinary => ordinary.1)

theorem Ordinary.uninviting (sends : program.Sends Ordinary) : program.Sends Uninviting :=
  sends.mono (fun _ _ ordinary => ordinary.2)

end Kinds

theorem created_sends {render : StoreError → ApiError} {new : NewUser} :
    (created settings render new).Sends Ordinary := by
  refine Program.Sends.bind ?_ (fun _ => checked_sends)
  unfold createUser
  cases settings.store with
  | postgres => exact Program.Sends.perform ⟨rfl, rfl⟩
  | memory =>
      refine ⟨⟨rfl, rfl⟩, fun taken => ?_⟩
      cases taken with
      | true => trivial
      | false => exact Program.Sends.perform ⟨rfl, rfl⟩

theorem provisioned_sends {new : NewUser} : (provisioned settings new).Sends Ordinary :=
  created_sends.bind (fun _ => (Program.Sends.perform ⟨rfl, rfl⟩).bind (fun _ => trivial))

/-- What is sent for a session writes no address. -/
theorem issueSession_sends {Kind : ∀ β, Command β → Prop} (draws : Kind _ .generateToken)
    (looks : Kind _ .now)
    (signsIn : ∀ tokenHash expiresAt, Kind _ (.createSession user.id tokenHash expiresAt)) :
    (issueSession functions settings user).Sends Kind :=
  (Program.Sends.perform draws).bind (fun _ => (Program.Sends.perform looks).bind (fun _ =>
    (ask_sends (signsIn _ _)).bind (fun _ => trivial)))

theorem completeLogin_sends :
    (completeLogin functions settings user event).Sends Ordinary :=
  (Plain.ordinary audit_sends).bind (fun _ =>
    (issueSession_sends ⟨rfl, rfl⟩ ⟨rfl, rfl⟩ (fun _ _ => ⟨rfl, rfl⟩)).bind (fun _ => trivial))

theorem register_sends {body : Registration} :
    (register functions settings body).Sends Ordinary := by
  refine demand_sends.bind (fun _ => require_sends.bind (fun email => require_sends.bind
    (fun firstName => require_sends.bind (fun lastName => require_sends.bind (fun password => ?_)))))
  refine demand_sends.bind (fun _ => (Plain.ordinary checkLength_sends).bind (fun _ =>
    (Plain.ordinary checkCaptcha_sends).bind (fun _ => created_sends.bind (fun user => ?_))))
  refine (Plain.ordinary hashed_sends).bind (fun _ => (ask_sends ⟨rfl, rfl⟩).bind (fun _ =>
    (Plain.ordinary audit_sends).bind (fun _ => ?_)))
  exact (Program.Sends.perform ⟨rfl, rfl⟩).bind (fun _ => (Program.Sends.perform ⟨rfl, rfl⟩).bind (fun _ =>
    (issueSession_sends ⟨rfl, rfl⟩ ⟨rfl, rfl⟩ (fun _ _ => ⟨rfl, rfl⟩)).bind (fun _ => trivial)))

theorem invitationsCreate_sends {permalink : Text} {isOwner : Bool} {principal : Option Id}
    {emailAddress role : Option Text} :
    (invitationsCreate functions settings permalink isOwner principal emailAddress role).Sends
      Unlinked := by
  refine (ask_sends rfl).bind (fun _ => require_sends.bind (fun _ => require_sends.bind (fun _ =>
    checked_sends.bind (fun _ => demand_sends.bind (fun _ => ?_)))))
  refine (Ordinary.unlinked (Plain.ordinary isMember_sends)).bind (fun _ => demand_sends.bind (fun _ =>
    (Program.Sends.perform rfl).bind (fun _ => (Program.Sends.perform rfl).bind (fun _ => ?_))))
  exact (ask_sends rfl).bind (fun _ => (Ordinary.unlinked (Plain.ordinary audit_sends)).bind (fun _ => trivial))

variable {body : SingleUse.AcceptInvitation}

theorem createInvited_sends {invitation : Invitation} :
    (createInvited settings invitation body).Sends Ordinary := by
  refine require_sends.bind (fun _ => (Plain.ordinary checkLength_sends).bind (fun _ =>
    created_sends.bind (fun _ => ?_)))
  exact (Plain.ordinary hashed_sends).bind (fun _ => (ask_sends ⟨rfl, rfl⟩).bind (fun _ =>
    (Program.Sends.perform ⟨rfl, rfl⟩).bind (fun _ => trivial)))

theorem invitationAccept_sends :
    (invitationAccept functions settings body).Sends Ordinary := by
  refine require_sends.bind (fun _ => (ask_sends ⟨rfl, rfl⟩).bind (fun _ => require_sends.bind
    (fun invitation => (Program.Sends.perform ⟨rfl, rfl⟩).bind (fun _ => demand_sends.bind (fun _ => ?_)))))
  refine Program.Sends.bind ?_ (fun (user, created) => ?_)
  · refine ⟨⟨rfl, rfl⟩, fun existing => ?_⟩
    match existing with
    | .error error => trivial
    | .ok (some user) => trivial
    | .ok none => exact createInvited_sends.bind (fun _ => trivial)
  · refine (ask_sends ⟨rfl, rfl⟩).bind (fun _ => (ask_sends ⟨rfl, rfl⟩).bind (fun _ =>
      (Plain.ordinary audit_sends).bind (fun _ => Program.Sends.bind ?_ (fun _ => trivial))))
    unfold signInCreated
    split_ifs
    · exact (issueSession_sends ⟨rfl, rfl⟩ ⟨rfl, rfl⟩ (fun _ _ => ⟨rfl, rfl⟩)).bind (fun _ => trivial)
    · trivial

theorem usersCreate_sends {body : CreateUser} : (usersCreate settings body).Sends Ordinary := by
  refine require_sends.bind (fun _ => demand_sends.bind (fun _ =>
    (Plain.ordinary initialDigest_sends).bind (fun digest => created_sends.bind (fun user => ?_))))
  cases digest with
  | none => exact (Program.Sends.perform ⟨rfl, rfl⟩).bind (fun _ => trivial)
  | some digest =>
      exact (ask_sends ⟨rfl, rfl⟩).bind (fun _ => (Program.Sends.perform ⟨rfl, rfl⟩).bind (fun _ => trivial))

theorem usersUpdate_sends {body : UpdateUser} : (usersUpdate id body).Sends Ordinary :=
  (ask_sends ⟨rfl, rfl⟩).bind (fun _ => require_sends.bind (fun _ =>
    (ask_sends ⟨rfl, rfl⟩).bind (fun _ => trivial)))

theorem updateMe_sends {authorization firstName lastName : Option Text} :
    (updateMe authorization firstName lastName).Sends Ordinary :=
  (askOther_sends ⟨rfl, rfl⟩).bind (fun _ => (ask_sends ⟨rfl, rfl⟩).bind (fun _ => trivial))

variable {body : Except Text Json}

theorem scimCreate_sends : (scimCreate settings body).Sends Ordinary := by
  refine checked_sends.bind (fun _ => require_sends.bind (fun _ => demand_sends.bind (fun _ =>
    (askWith_sends ⟨rfl, rfl⟩).bind (fun _ => demand_sends.bind (fun _ => created_sends.bind
      (fun _ => ?_))))))
  exact (Plain.ordinary audit_sends).bind (fun _ => (Program.Sends.perform ⟨rfl, rfl⟩).bind (fun _ =>
    (Plain.ordinary deactivated_sends).bind (fun _ => trivial)))

theorem scimReplace_sends {id : Text} :
    (scimReplace id body).Sends Ordinary :=
  checked_sends.bind (fun _ => (Plain.ordinary findUser_sends).bind (fun _ => checked_sends.bind
    (fun _ => (askWith_sends ⟨rfl, rfl⟩).bind (fun _ => (Plain.ordinary applyActive_sends).bind
      (fun _ => trivial)))))

theorem scimPatch_sends {id : Text} :
    (scimPatch functions id body).Sends Ordinary := by
  refine checked_sends.bind (fun _ => demand_sends.bind (fun _ =>
    (Plain.ordinary findUser_sends).bind (fun _ => checked_sends.bind (fun patch =>
      Program.Sends.bind ?_ (fun _ => ?_)))))
  · unfold writePatched
    split_ifs
    · exact askWith_sends ⟨rfl, rfl⟩
    · trivial
  · exact (Plain.ordinary activatePatched_sends).bind (fun _ =>
      (Plain.ordinary isActive_sends).bind (fun _ => trivial))

theorem oidcCallback_sends {query : LoginStates.CallbackQuery} :
    (oidcCallback functions settings query).Sends Ordinary := by
  refine checked_sends.bind (fun (code, state) => (askOther_sends ⟨rfl, rfl⟩).bind (fun _ =>
    (askOther_sends ⟨rfl, rfl⟩).bind (fun claims => Program.Sends.bind ?_ (fun _ => completeLogin_sends))))
  refine (ask_sends ⟨rfl, rfl⟩).bind (fun linked => ?_)
  cases linked with
  | some user => exact (Plain.ordinary ensureEnabled_sends).bind (fun _ => trivial)
  | none =>
      refine demand_sends.bind (fun _ => demand_sends.bind (fun _ => (ask_sends ⟨rfl, rfl⟩).bind
        (fun known => ?_)))
      cases known with
      | some user =>
          exact (Plain.ordinary ensureEnabled_sends).bind (fun _ =>
            (ask_sends ⟨rfl, rfl⟩).bind (fun _ => trivial))
      | none =>
          exact demand_sends.bind (fun _ => provisioned_sends.bind (fun _ => (ask_sends ⟨rfl, rfl⟩).bind
            (fun _ => (Plain.ordinary welcomed_sends).bind (fun _ => trivial))))

theorem samlAcs_sends {response : Text} :
    (samlAcs functions settings response).Sends Ordinary := by
  refine (askOther_sends ⟨rfl, rfl⟩).bind (fun assertion => (Plain.ordinary acceptAssertion_sends).bind
    (fun _ => require_sends.bind (fun email => Program.Sends.bind ?_
      (fun _ => completeLogin_sends))))
  refine demand_sends.bind (fun _ => (ask_sends ⟨rfl, rfl⟩).bind (fun known => ?_))
  cases known with
  | some user => exact (Plain.ordinary ensureEnabled_sends).bind (fun _ => trivial)
  | none =>
      exact demand_sends.bind (fun _ => provisioned_sends.bind (fun _ =>
        (Plain.ordinary welcomed_sends).bind (fun _ => trivial)))

section Social

variable {Kind : ∀ β, Command β → Prop}
  (ordinary : ∀ β (command : Command β), Ordinary β command → Kind β command)

include ordinary

/-- A social sign-in is ordinary but for the identity that it links. -/
theorem resolveSsoUser_sends {provider : Text} {federation : Federation} {claims : Claims}
    (own : ∀ userId subject, Kind _ (.linkSsoIdentity userId provider subject)) :
    (resolveSsoUser functions settings provider federation claims).Sends Kind := by
  refine (ask_sends (ordinary _ _ ⟨rfl, rfl⟩)).bind (fun linked => ?_)
  cases linked with
  | some user => trivial
  | none =>
      refine demand_sends.bind (fun _ => demand_sends.bind (fun _ =>
        (ask_sends (ordinary _ _ ⟨rfl, rfl⟩)).bind (fun known => ?_)))
      cases known with
      | some user => exact (ask_sends (own _ _)).bind (fun _ => trivial)
      | none =>
          exact demand_sends.bind (fun _ => (provisioned_sends.mono ordinary).bind (fun _ =>
            (ask_sends (own _ _)).bind (fun _ =>
              ((Plain.ordinary welcomed_sends).mono ordinary).bind (fun _ => trivial))))

theorem ssoCallback_sends {id : Text} {query : LoginStates.CallbackQuery}
    (own : ∀ provider ∈ settings.ssoProviders, ∀ userId subject,
      Kind _ (.linkSsoIdentity userId provider.1 subject)) :
    (ssoCallback functions settings id query).Sends Kind := by
  unfold ssoCallback
  cases found : settings.ssoProviders.find? (fun provider => provider.1 = id) with
  | none => trivial
  | some provider =>
      have links := own provider (List.mem_of_find?_eq_some found)
      exact checked_sends.bind (fun _ => (askOther_sends (ordinary _ _ ⟨rfl, rfl⟩)).bind (fun _ =>
        (askOther_sends (ordinary _ _ ⟨rfl, rfl⟩)).bind (fun _ =>
          (resolveSsoUser_sends ordinary links).bind (fun _ =>
            completeLogin_sends.mono ordinary))))

end Social

/-- The requests that link an identity. -/
def isLinking : Call → Bool
  | .ssoCallback _ _ => true
  | .orgCallback _ => true
  | .orgAcs _ _ => true
  | _ => false

theorem handler_unlinked {call : Call} (other : isLinking call = false) :
    (handler functions settings call).Sends Unlinked := by
  cases call with
  | register body => exact Ordinary.unlinked register_sends
  | invitationsCreate permalink isOwner principal emailAddress role => exact invitationsCreate_sends
  | invitationAccept body => exact Ordinary.unlinked invitationAccept_sends
  | usersCreate body => exact Ordinary.unlinked usersCreate_sends
  | usersUpdate id body => exact Ordinary.unlinked usersUpdate_sends
  | updateMe authorization firstName lastName => exact Ordinary.unlinked updateMe_sends
  | scimCreate body => exact Ordinary.unlinked scimCreate_sends
  | scimReplace id body => exact Ordinary.unlinked scimReplace_sends
  | scimPatch id body => exact Ordinary.unlinked scimPatch_sends
  | oidcCallback query => exact Ordinary.unlinked oidcCallback_sends
  | samlAcs response => exact Ordinary.unlinked samlAcs_sends
  | ssoCallback id query => cases other
  | orgCallback query => cases other
  | orgAcs relayState samlResponse => cases other
  | _ => exact Ordinary.unlinked (Plain.ordinary (handler_sends rfl))

end Sends

/-! ## Rules -/

section Rules

variable {functions : Functions} {settings : Settings} {α : Type}
  {Before : List (Answered Command) → ∀ β, Command β → Prop}
  {After : List (Answered Command) → Except ApiError α → Prop}
  {history : List (Answered Command)}

theorem askOther_safe {β : Type} {command : Command (Except ApiError β)} {next : β → Handler α}
    (before : Before history _ command)
    (stops : ∀ error, After (history ++ [⟨command, .error error⟩]) (.error error))
    (continues : ∀ value, Program.Safe Before After (next value)
      (history ++ [⟨command, .ok value⟩])) :
    Program.Safe Before After (askOther command >>= next) history := by
  refine ⟨before, fun answer => ?_⟩
  cases answer with
  | ok value => exact continues value
  | error error => exact stops error

/-- A user is created: with the address that is to be checked first, or in one step. -/
theorem created_safe {render : StoreError → ApiError} {new : NewUser} {next : Profile → Handler α}
    (asks : Before history _ (.emailTaken new.emailAddress))
    (writes : ∀ later, history <+: later → Before later _ (.createUser new))
    (stops : ∀ later error, history <+: later → After later (.error error))
    (continues : ∀ later user, history <+: later →
      (⟨.createUser new, .ok user⟩ : Answered Command) ∈ later →
      Program.Safe Before After (next user) later) :
    Program.Safe Before After (created settings render new >>= next) history := by
  -- what follows the command that adds the user
  have adds (later : List (Answered Command)) (longer : history <+: later) :
      Program.Safe Before After
        ((Program.perform (.createUser new) >>= fun outcome =>
          checked (outcome.mapError render)) >>= next) later := by
    refine ⟨writes later longer, fun outcome => ?_⟩
    have extended : history <+: later ++ [⟨.createUser new, outcome⟩] :=
      longer.trans (List.prefix_append _ _)
    cases outcome with
    | error error => exact stops _ _ extended
    | ok user =>
        exact continues _ user extended (List.mem_append_right _ (List.mem_singleton_self _))
  unfold created createUser
  cases settings.store with
  | postgres => exact adds history (List.prefix_refl history)
  | memory =>
      refine ⟨asks, fun taken => ?_⟩
      have extended : history <+: history ++ [⟨.emailTaken new.emailAddress, taken⟩] :=
        List.prefix_append _ _
      cases taken with
      | true => exact stops _ _ extended
      | false =>
          have follows := adds _ extended
          exact follows

end Rules

end Camelmailer.Api.Directory
