import Camelmailer.Text.Paths
import Camelmailer.Api.Handler

/-!
# Login states

Three kinds of sign-in start with a state that the provider hands back: the enterprise flow,
the social providers, and the connections of tenants. All of them keep their states in one
table under a key, which is a bare token, `sso:{provider}:{token}` or `{connection}~{token}`.
A callback is given a state by its client. The social callback builds its key from it, and
the other two take it as the key.

Keys of different flows have different forms, so a callback that is given a state of the form
of its own flow redeems its own states only.
-/

namespace Camelmailer.Api.LoginStates

open Utf8 Db Requests Paths

/-! ## Keys -/

/-- Whether a text is one that `generate_auth_token` draws. -/
def isToken (text : Text) : Bool := text.length = 43 ∧ text.all Char.isAlphanum = true

/-- A drawn token. -/
structure Token where
  text : Text
  drawn : isToken text = true

/-- Whether the configuration accepts a text as the identifier of a provider. -/
def isSlug (id : Text) : Bool :=
  id ≠ [] ∧ id.all (fun char => char.isLower || char.isDigit || char = '-') = true

/-- A sign-in flow, with its provider or its connection. -/
inductive Flow where
  | enterprise
  | social (provider : Text)
  | tenant (connection : Id)
deriving DecidableEq

def stateKey (provider token : Text) : Text :=
  "sso:" ++ provider ++ ':' :: token

/-- The key of a tenant's login. -/
def tenantKey (connection : Id) (token : Text) : Text := decimal connection ++ '~' :: token

/-- The connection that a state names, `split('~').next()` and `parse`. -/
def namedConnection (state : Text) : Option Id :=
  parseNumber (((Str.splitOnce '~' state).map Prod.fst).getD state)

/-- The flow of a key of the form `{connection}~{token}`. -/
def tenantOf (front token : Text) : Option Flow :=
  (parseNumber front).bind (fun id =>
    if decimal id = front ∧ isToken token = true then some (.tenant id) else none)

/-- The flow of a key of the form `{provider}:{token}`. -/
def socialOf (rest : Text) : Option Flow :=
  (Str.splitOnce ':' rest).bind (fun (provider, token) =>
    if isSlug provider = true ∧ isToken token = true then some (.social provider) else none)

/-- The flow that has keys of the form of a text. -/
def flowOf (key : Text) : Option Flow :=
  if isToken key then some .enterprise
  else match Str.splitOnce '~' key with
    | some (front, token) => tenantOf front token
    | none => (Str.stripPrefix "sso:" key).bind socialOf

section Forms

variable {token provider state front text : Text} {char : Char} {connection id : Id}

theorem mem_token (drawn : isToken token = true) (member : char ∈ token) :
    char.isAlphanum = true := by
  simp only [isToken, decide_eq_true_eq, List.all_eq_true] at drawn
  exact drawn.2 char member

theorem mem_slug (slug : isSlug provider = true) (member : char ∈ provider) :
    (char.isLower || char.isDigit || char = '-') = true := by
  simp only [isSlug, decide_eq_true_eq, List.all_eq_true] at slug
  exact slug.2 char member

/-- A text with another sign is no token. -/
theorem not_token (char : Char) (member : char ∈ text) (other : char.isAlphanum = false) :
    isToken text = false := by
  rw [Bool.eq_false_iff]
  intro drawn
  rw [mem_token drawn member] at other
  cases other

theorem flowOf_token (drawn : isToken token = true) : flowOf token = some .enterprise := by
  rw [flowOf, if_pos drawn]

/-- The digits of a number are read as the number. -/
theorem parseNumber_decimal (small : id < 2 ^ 64) : parseNumber (decimal id) = some id := by
  have digits : decimal id = Nat.toDigits 10 id := Nat.toList_repr
  have all : (Nat.toDigits 10 id).all Char.isDigit = true :=
    List.all_eq_true.mpr (fun char member => Nat.isDigit_of_mem_toDigits (by decide) (by decide)
      member)
  have unsigned : Str.stripPrefix ['+'] (Nat.toDigits 10 id) = none := by
    rw [Str.stripPrefix, if_neg]
    rintro ⟨rest, same⟩
    have plus := List.all_eq_true.mp all '+' (by rw [← same]; simp)
    cases plus
  have value : (Nat.toDigits 10 id).foldl (fun sum digit => 10 * sum + (digit.toNat - 48)) 0 =
      id := by
    have read := Nat.ofDigitChars_ten_toDigits (n := id)
    exact read
  rw [digits, parseNumber, unsigned]
  simp only [Option.getD_none]
  rw [if_pos ⟨Nat.toDigits_ne_nil, all⟩, value, if_pos small]

theorem splitOnce_tenantKey :
    Str.splitOnce '~' (tenantKey connection token) = some (decimal connection, token) := by
  refine Str.splitOnce_eq_some.mpr ⟨rfl, fun member => ?_⟩
  cases isDigit_decimal member

theorem flowOf_tenantKey (small : connection < 2 ^ 64) (drawn : isToken token = true) :
    flowOf (tenantKey connection token) = some (.tenant connection) := by
  have tilde : isToken (tenantKey connection token) = false :=
    not_token '~' (by simp [tenantKey]) rfl
  simp [flowOf, tilde, splitOnce_tenantKey, tenantOf, parseNumber_decimal small, drawn]

theorem stripPrefix_stateKey :
    Str.stripPrefix "sso:" (stateKey provider token) = some (provider ++ ':' :: token) := by
  simp [Str.stripPrefix, stateKey]

theorem splitOnce_provider (slug : isSlug provider = true) :
    Str.splitOnce ':' (provider ++ ':' :: token) = some (provider, token) := by
  refine Str.splitOnce_eq_some.mpr ⟨rfl, fun member => ?_⟩
  cases mem_slug slug member

theorem flowOf_stateKey (slug : isSlug provider = true) (drawn : isToken token = true) :
    flowOf (stateKey provider token) = some (.social provider) := by
  have colon : isToken (stateKey provider token) = false :=
    not_token ':' (by simp [stateKey]) rfl
  have tildeless : Str.splitOnce '~' (stateKey provider token) = none := by
    rw [Str.splitOnce_eq_none]
    intro member
    simp only [stateKey, List.mem_append, List.mem_cons] at member
    rcases member with (start | inside) | separator | end_
    · revert start
      decide
    · cases mem_slug slug inside
    · cases separator
    · cases mem_token drawn end_
  rw [flowOf, if_neg (by simp [colon]), tildeless]
  simp only [stripPrefix_stateKey, Option.bind_some, socialOf, splitOnce_provider slug]
  exact if_pos ⟨slug, drawn⟩

/-- Nothing that starts with a letter is read as a number. -/
theorem parseNumber_letter (letter : char.isDigit = false) (unsigned : char ≠ '+') :
    parseNumber (char :: text) = none := by
  have kept : Str.stripPrefix ['+'] (char :: text) = none := by
    rw [Str.stripPrefix, if_neg]
    rintro ⟨rest, same⟩
    exact unsigned (List.cons.inj same).1.symm
  rw [parseNumber, kept]
  simp [letter]

/-- A key that the social callback builds is of no other flow. -/
theorem flowOf_social {flow : Flow} (slug : isSlug provider = true)
    (form : flowOf (stateKey provider state) = some flow) : flow = .social provider := by
  have colon : isToken (stateKey provider state) = false :=
    not_token ':' (by simp [stateKey]) rfl
  rw [flowOf, if_neg (by simp [colon])] at form
  split at form
  · next front token split =>
      obtain ⟨same, -⟩ := Str.splitOnce_eq_some.mp split
      cases front with
      | nil =>
          have first := congrArg List.head? same
          simp [stateKey] at first
      | cons char rest =>
          have first : 's' = char := (List.cons.inj same).1
          subst first
          cases form
  · simp only [stripPrefix_stateKey, Option.bind_some, socialOf, splitOnce_provider slug] at form
    split_ifs at form
    exact (Option.some.inj form).symm

/-- A state that names a connection is the key of a login of this connection, a bare token, or
no key. -/
theorem flowOf_named {flow : Flow} (named : namedConnection state = some id)
    (form : flowOf state = some flow) : flow = .tenant id ∨ flow = .enterprise := by
  unfold flowOf at form
  unfold namedConnection at named
  split_ifs at form with drawn
  · exact .inr (Option.some.inj form).symm
  · left
    split at form
    · next front token split =>
        rw [split, Option.map_some, Option.getD_some] at named
        rw [tenantOf, named, Option.bind_some] at form
        split_ifs at form
        exact (Option.some.inj form).symm
    · next split =>
        rw [split] at named
        obtain ⟨rest, stripped, -⟩ := Option.bind_eq_some_iff.mp form
        unfold Str.stripPrefix at stripped
        split_ifs at stripped with starts
        obtain ⟨others, rfl⟩ := starts
        have number : parseNumber ('s' :: ("so:" ++ others)) = none :=
          parseNumber_letter rfl (by decide)
        exact absurd (number.symm.trans named) (by simp)

end Forms

/-! ## The endpoints -/

inductive SsoProviderType where
  | oidc
  | github
deriving DecidableEq

/-- `SsoProvider`, as the configuration accepts it. -/
structure SsoProvider where
  id : Text
  providerType : SsoProviderType
  issuer : Text
  slug : isSlug id = true

/-- What the flows read of the configuration. -/
structure Settings where
  oidcEnabled : Bool
  oidcIssuer : Text
  ssoProviders : List SsoProvider
  githubEndpoint : Text

inductive SsoKind where
  | oidc
  | google
  | microsoft
  | github
  | saml
deriving DecidableEq

/-- A connection of a tenant, with the issuer of its configuration if that is not empty and
the address of its SAML provider. -/
structure Connection where
  id : Id
  enabled : Bool
  kind : SsoKind
  issuer : Option Text
  idpSsoUrl : Text
deriving DecidableEq

def issuerFor (connection : Connection) : Option Text :=
  match connection.kind with
  | .oidc => connection.issuer
  | .google => some "https://accounts.google.com".toList
  | .microsoft => some (connection.issuer.getD
      "https://login.microsoftonline.com/common/v2.0")
  | .github => none
  | .saml => none

/-- A row of `oidc_states`. -/
structure LoginState where
  key : Text
  pkceVerifier : Text
  nonce : Text
  expiresAt : Int
deriving DecidableEq

structure Tables where
  states : List LoginState
  connections : List Connection
  samlRequests : List (Text × Int)

inductive Command : Type → Type where
  | now : Command Int
  | generateAuthToken : Command Token
  | fetchDiscovery (issuer : Text) : Command (Except Text Text)
  | orgSsoConnection (id : Id) : Command (Except StoreError (Option Connection))
  | createOidcState (state : LoginState) : Command (Except StoreError Unit)
  | consumeOidcState (key : Text) (now : Int) : Command (Except StoreError (Option (Text × Text)))
  | createSamlRequest (requestId : Text) (expiresAt : Int) : Command (Except StoreError Unit)

structure CallbackQuery where
  code : Option Text := none
  state : Option Text := none
  error : Option Text := none
  errorDescription : Option Text := none
deriving DecidableEq

/-- A request. The identifier of a connection in a path is a number of 64 bits. -/
inductive Call where
  | oidcStart
  | oidcCallback (query : CallbackQuery)
  | ssoStart (id : Text)
  | ssoCallback (id : Text) (query : CallbackQuery)
  | orgStart (connection : Id) (small : connection < 2 ^ 64)
  | orgCallback (query : CallbackQuery)

/-- The drawn parts of an authorization URL, a SAML request, or what has been redeemed. What a
callback does with it is not followed any further. -/
inductive Reply where
  | authorization (endpoint state nonce : Text)
  | samlRequest (requestId : Text)
  | redeemed (pkceVerifier nonce : Text)
deriving DecidableEq

abbrev Handler : Type → Type 1 := Program Command ApiError

def ssoError (message : Text) : ApiError := ⟨422, "SSOError", message⟩

def ssoDisabled : ApiError :=
  ⟨404, "SSODisabled",
    "OpenID Connect single sign-on is not enabled on this instance"⟩

def providerNotFound : ApiError :=
  ⟨404, "SSOProviderNotFound",
    "No such sign-in provider is configured on this instance"⟩

/-- `STATE_TTL_MINUTES`, in microseconds. -/
def stateTtl : Int := 10 * 60 * 1000000

/-- `fetch_discovery`, whose failure is the answer. -/
def discovered (issuer : Text) : Handler Text :=
  .send (.fetchDiscovery issuer) (fun
    | .ok endpoint => .done endpoint
    | .error message => .stop (ssoError message))

/-- A new state is stored under a key made from a drawn token. -/
def storeState (key : Text → Text) : Handler (Text × Text) := do
  let loginState ← Program.perform .generateAuthToken
  let nonce ← Program.perform .generateAuthToken
  let pkceVerifier ← Program.perform .generateAuthToken
  let now ← Program.perform .now
  ask (.createOidcState ⟨key loginState.text, pkceVerifier.text, nonce.text, now + stateTtl⟩)
  return (loginState.text, nonce.text)

def oidcStart (settings : Settings) : Handler Reply := do
  demand settings.oidcEnabled ssoDisabled
  let endpoint ← discovered settings.oidcIssuer
  let (loginState, nonce) ← storeState id
  return .authorization endpoint loginState nonce

def findProvider (settings : Settings) (id : Text) : Option SsoProvider :=
  settings.ssoProviders.find? (fun provider => provider.id = id)

/-- Where a provider's authorization starts. -/
def authorizationEndpoint (settings : Settings) (provider : SsoProvider) : Handler Text :=
  match provider.providerType with
  | .oidc => discovered provider.issuer
  | .github => .done settings.githubEndpoint

/-- `sso_start`. The state is drawn before the provider is asked and stored afterwards. -/
def ssoStart (settings : Settings) (id : Text) : Handler Reply := do
  let provider ← require (findProvider settings id) providerNotFound
  let loginState ← Program.perform .generateAuthToken
  let nonce ← Program.perform .generateAuthToken
  let pkceVerifier ← Program.perform .generateAuthToken
  let endpoint ← authorizationEndpoint settings provider
  let now ← Program.perform .now
  ask (.createOidcState ⟨stateKey provider.id loginState.text, pkceVerifier.text, nonce.text,
    now + stateTtl⟩)
  return .authorization endpoint loginState.text nonce.text

def loadEnabledConnection (id : Id) : Handler Connection := do
  let connection ← ask (.orgSsoConnection id)
  require (connection.filter Connection.enabled)
    (ssoError "this single sign-on connection is not available")

/-- `saml_org_start`, up to the request that it sends. -/
def samlOrgStart (connection : Connection) : Handler Reply := do
  demand (connection.idpSsoUrl ≠ []) (ssoError "this connection has no idp_sso_url")
  let token ← Program.perform .generateAuthToken
  let requestId := "_c" ++ decimal connection.id ++ '.' :: token.text
  let now ← Program.perform .now
  ask (.createSamlRequest requestId (now + stateTtl))
  return .samlRequest requestId

/-- Where a connection's authorization starts, once its state has been stored. -/
def connectionEndpoint (settings : Settings) (connection : Connection) : Handler Text :=
  if connection.kind = .github then .done settings.githubEndpoint
  else do
    let issuer ← require (issuerFor connection)
      (ssoError "this connection type cannot be used for sign-in yet")
    discovered issuer

/-- The part of `org_start` for connections that are not SAML. -/
def oauthOrgStart (settings : Settings) (id : Id) (connection : Connection) :
    Handler Reply := do
  let (loginState, nonce) ← storeState (tenantKey id)
  let endpoint ← connectionEndpoint settings connection
  return .authorization endpoint (tenantKey id loginState) nonce

def orgStart (settings : Settings) (id : Id) : Handler Reply := do
  let connection ← loadEnabledConnection id
  if connection.kind = .saml then samlOrgStart connection
  else oauthOrgStart settings id connection

/-- What every callback checks first: the state it is given. -/
def givenState (query : CallbackQuery) : Except ApiError Text :=
  match query.error, query.code, query.state with
  | some error, _, _ => .error (ssoError ("the identity provider reported: " ++ error ++
      ' ' :: query.errorDescription.getD []))
  | none, some _, some state => .ok state
  | _, _, _ => .error (ssoError "missing code or state parameter")

/-- A state is redeemed under a key. -/
def redeem (key : Text) : Handler (Text × Text) := do
  let now ← Program.perform .now
  let pair ← ask (.consumeOidcState key now)
  require pair (ssoError "the login state is invalid or has expired")

def oidcCallback (settings : Settings) (query : CallbackQuery) : Handler Reply := do
  demand settings.oidcEnabled ssoDisabled
  let state ← checked (givenState query)
  let (pkceVerifier, nonce) ← redeem state
  return .redeemed pkceVerifier nonce

def ssoCallback (settings : Settings) (id : Text) (query : CallbackQuery) : Handler Reply := do
  let provider ← require (findProvider settings id) providerNotFound
  let state ← checked (givenState query)
  let (pkceVerifier, nonce) ← redeem (stateKey provider.id state)
  return .redeemed pkceVerifier nonce

def orgCallback (query : CallbackQuery) : Handler Reply := do
  let state ← checked (givenState query)
  let id ← require (namedConnection state) (ssoError "malformed login state")
  let (pkceVerifier, nonce) ← redeem state
  let _ ← loadEnabledConnection id
  return .redeemed pkceVerifier nonce

/-- The handlers. -/
def handler (settings : Settings) : Call → Handler Reply
  | .oidcStart => oidcStart settings
  | .oidcCallback query => oidcCallback settings query
  | .ssoStart id => ssoStart settings id
  | .ssoCallback id query => ssoCallback settings id query
  | .orgStart id _ => orgStart settings id
  | .orgCallback query => orgCallback query

/-! ## Answers -/

/-- What is answered from elsewhere: the time, a token, a discovery, or a failure. -/
inductive Choice where
  | ordinary
  | fault (error : StoreError)
  | time (now : Int)
  | token (drawn : Token)
  | discovery (answer : Except Text Text)

def Choice.failure : Choice → Option StoreError
  | fault error => some error
  | _ => none

namespace Tables

/-- `create_oidc_state`. The key is unique. -/
def createOidcState (tables : Tables) (state : LoginState) : Except StoreError (Unit × Tables) :=
  if tables.states.any (fun row => row.key = state.key) then
    .error (.conflict "Record is not unique")
  else .ok ((), { tables with states := state :: tables.states })

def consumeOidcState (tables : Tables) (key : Text) (now : Int) :
    Option (Text × Text) × Tables :=
  (((tables.states.find? (fun row => row.key = key)).filter (fun row => now ≤ row.expiresAt)).map
      (fun row => (row.pkceVerifier, row.nonce)),
    { tables with states := tables.states.filter (fun row => row.key ≠ key) })

end Tables

/-- A command is answered by the tables, unless it fails. -/
def execute (choice : Choice) {β : Type} (command : Command β) (tables : Tables) :
    Option (β × Tables) :=
  match command, choice with
  | .now, .time now => some (now, tables)
  | .generateAuthToken, .token drawn => some (drawn, tables)
  | .fetchDiscovery _, .discovery answer => some (answer, tables)
  | .orgSsoConnection id, choice => some (attempted choice.failure
      (.ok (tables.connections.find? (fun connection => connection.id = id), tables)) tables)
  | .createOidcState state, choice =>
      some (attempted choice.failure (tables.createOidcState state) tables)
  | .consumeOidcState key now, choice =>
      some (attempted choice.failure (.ok (tables.consumeOidcState key now)) tables)
  | .createSamlRequest requestId expiresAt, choice => some (attempted choice.failure
      (.ok ((), { tables with samlRequests := (requestId, expiresAt) :: tables.samlRequests }))
      tables)
  | _, _ => none

/-- Others edit connections, and states that have expired are removed. -/
inductive Outside where
  | connections (rows : List Connection)
  | purge (kept : LoginState → Bool)

def disturb (outside : Outside) (tables : Tables) : Tables :=
  match outside with
  | .connections rows => { tables with connections := rows }
  | .purge kept => { tables with states := tables.states.filter kept }

def service (settings : Settings) :
    Service Tables Call Choice Outside Command ApiError Reply where
  handler := handler settings
  execute := execute
  disturb := fun outside tables => some (disturb outside tables)

/-! ## Whose states a request stores and redeems -/

/-- The flow that a request starts. -/
def startFlow : Call → Option Flow
  | .oidcStart => some .enterprise
  | .ssoStart id => some (.social id)
  | .orgStart id _ => some (.tenant id)
  | _ => none

/-- The flow that a callback ends. -/
def callbackFlow : Call → Option Flow
  | .oidcCallback _ => some .enterprise
  | .ssoCallback id _ => some (.social id)
  | .orgCallback query => (query.state.bind namedConnection).map .tenant
  | _ => none

/-- The state that the enterprise callback is given is not of the form of another flow's keys,
and the one that the tenants' callback is given is not a bare token. -/
def Fits : Call → Prop
  | .oidcCallback query => ∀ state ∈ query.state, flowOf state = none ∨
      flowOf state = some .enterprise
  | .orgCallback query => ∀ state ∈ query.state, flowOf state ≠ some .enterprise
  | _ => True

instance : DecidablePred Fits
  | .oidcCallback query => inferInstanceAs (Decidable (∀ state ∈ query.state,
      flowOf state = none ∨ flowOf state = some .enterprise))
  | .orgCallback query => inferInstanceAs (Decidable (∀ state ∈ query.state,
      flowOf state ≠ some .enterprise))
  | .oidcStart => .isTrue trivial
  | .ssoStart _ => .isTrue trivial
  | .ssoCallback _ _ => .isTrue trivial
  | .orgStart _ _ => .isTrue trivial

/-- A start stores keys of the form of its flow, and a callback that fits redeems no key of
another form. -/
def Bound (call : Call) (_ : List (Answered Command)) : ∀ β, Command β → Prop
  | _, .createOidcState state => ∃ flow, startFlow call = some flow ∧
      flowOf state.key = some flow
  | _, .consumeOidcState key _ => Fits call → ∀ flow, flowOf key = some flow →
      callbackFlow call = some flow
  | _, _ => True

abbrev Any (_ : Call) (_ : List (Answered Command)) (_ : Except ApiError Reply) : Prop := True

section Promises

variable {settings : Settings} {call : Call} {history : List (Answered Command)}
  {next : Text × Text → Handler Reply}

theorem storeState_safe {key : Text → Text} {flow : Flow} (starts : startFlow call = some flow)
    (form : ∀ token : Token, flowOf (key token.text) = some flow)
    (continues : ∀ pair history, Program.Safe (Bound call) (Any call) (next pair) history) :
    Program.Safe (Bound call) (Any call) (storeState key >>= next) history := by
  simp only [storeState, Program.bind_bind]
  apply perform_safe trivial
  intro loginState
  apply perform_safe trivial
  intro nonce
  apply perform_safe trivial
  intro pkceVerifier
  apply perform_safe trivial
  intro now
  apply ask_safe ⟨flow, starts, form loginState⟩ (fun _ => trivial)
  intro _
  exact continues _ _

theorem redeem_safe {key : Text}
    (own : Fits call → ∀ flow, flowOf key = some flow → callbackFlow call = some flow)
    (continues : ∀ pair history, Program.Safe (Bound call) (Any call) (next pair) history) :
    Program.Safe (Bound call) (Any call) (redeem key >>= next) history := by
  simp only [redeem, Program.bind_bind]
  apply perform_safe trivial
  intro now
  apply ask_safe own (fun _ => trivial)
  intro found
  apply require_safe (fun _ => trivial)
  intro pair _
  exact continues _ _

theorem discovered_safe {issuer : Text} {next : Text → Handler Reply}
    (continues : ∀ endpoint history, Program.Safe (Bound call) (Any call) (next endpoint) history) :
    Program.Safe (Bound call) (Any call) (discovered issuer >>= next) history := by
  refine ⟨trivial, fun answer => ?_⟩
  cases answer with
  | ok endpoint => exact continues endpoint _
  | error message => trivial

theorem loadEnabledConnection_safe {id : Id} {next : Connection → Handler Reply}
    (continues : ∀ connection history,
      Program.Safe (Bound call) (Any call) (next connection) history) :
    Program.Safe (Bound call) (Any call) (loadEnabledConnection id >>= next) history := by
  simp only [loadEnabledConnection, Program.bind_bind]
  apply ask_safe trivial (fun _ => trivial)
  intro found
  apply require_safe (fun _ => trivial)
  intro connection _
  exact continues connection _

variable {id : Text}

theorem findProvider_id {provider : SsoProvider} (found : findProvider settings id = some provider) :
    provider.id = id := by
  simpa using List.find?_some found

theorem oidcStart_bound :
    Program.Safe (Bound .oidcStart) (Any .oidcStart) (oidcStart settings) [] := by
  apply demand_safe (fun _ => trivial)
  intro _
  apply discovered_safe
  intro endpoint history
  apply storeState_safe rfl (fun token => flowOf_token token.drawn)
  intro pair history
  trivial

theorem ssoStart_bound :
    Program.Safe (Bound (.ssoStart id)) (Any (.ssoStart id)) (ssoStart settings id) [] := by
  apply require_safe (fun _ => trivial)
  intro provider found
  apply perform_safe trivial
  intro loginState
  apply perform_safe trivial
  intro nonce
  apply perform_safe trivial
  intro pkceVerifier
  have stores (endpoint : Text) (history : List (Answered Command)) :
      Program.Safe (Bound (.ssoStart id)) (Any (.ssoStart id)) (do
        let now ← Program.perform .now
        ask (.createOidcState ⟨stateKey provider.id loginState.text, pkceVerifier.text,
          nonce.text, now + stateTtl⟩)
        return .authorization endpoint loginState.text nonce.text) history := by
    apply perform_safe trivial
    intro now
    refine ask_safe ⟨.social id, rfl, ?_⟩ (fun _ => trivial) (fun _ => ?_)
    · rw [findProvider_id found]
      exact flowOf_stateKey (findProvider_id found ▸ provider.slug) loginState.drawn
    · trivial
  unfold authorizationEndpoint
  split
  · apply discovered_safe
    intro endpoint history
    exact stores endpoint history
  · exact stores _ _

theorem orgStart_bound {id : Id} {small : id < 2 ^ 64} :
    Program.Safe (Bound (.orgStart id small)) (Any (.orgStart id small)) (orgStart settings id)
      [] := by
  apply loadEnabledConnection_safe
  intro connection history
  split
  · apply demand_safe (fun _ => trivial)
    intro _
    apply perform_safe trivial
    intro token
    apply perform_safe trivial
    intro now
    refine ask_safe ?_ (fun _ => trivial) (fun _ => ?_)
    · trivial
    · trivial
  · apply storeState_safe rfl (fun token => flowOf_tenantKey small token.drawn)
    rintro ⟨loginState, nonce⟩ history
    dsimp only [connectionEndpoint]
    split
    · trivial
    · simp only [Program.bind_bind]
      apply require_safe (fun _ => trivial)
      intro issuer _
      apply discovered_safe
      intro endpoint history
      trivial

variable {query : CallbackQuery}

/-- The state that has been given is the one of the query. -/
theorem givenState_state {state : Text} (given : givenState query = .ok state) :
    query.state = some state := by
  unfold givenState at given
  split at given
  · cases given
  · next there => exact there.trans (congrArg some (Except.ok.inj given))
  · cases given

theorem oidcCallback_bound :
    Program.Safe (Bound (.oidcCallback query)) (Any (.oidcCallback query))
      (oidcCallback settings query) [] := by
  apply demand_safe (fun _ => trivial)
  intro _
  apply checked_safe (fun _ _ => trivial)
  intro state given
  apply redeem_safe
  · intro fits flow form
    rcases fits state (givenState_state given) with none | enterprise
    · rw [none] at form
      cases form
    · exact enterprise.symm.trans form
  · intro pair history
    trivial

theorem ssoCallback_bound :
    Program.Safe (Bound (.ssoCallback id query)) (Any (.ssoCallback id query))
      (ssoCallback settings id query) [] := by
  apply require_safe (fun _ => trivial)
  intro provider found
  apply checked_safe (fun _ _ => trivial)
  intro state given
  apply redeem_safe
  · intro fits flow form
    rw [flowOf_social provider.slug form, findProvider_id found]
    rfl
  · intro pair history
    trivial

theorem orgCallback_bound :
    Program.Safe (Bound (.orgCallback query)) (Any (.orgCallback query)) (orgCallback query) [] := by
  apply checked_safe (fun _ _ => trivial)
  intro state given
  apply require_safe (fun _ => trivial)
  intro id named
  apply redeem_safe
  · intro fits flow form
    have own := givenState_state given
    rcases flowOf_named named form with rfl | rfl
    · rw [callbackFlow, own, Option.bind_some, named, Option.map_some]
    · exact absurd form (fits state own)
  · intro pair history
    apply loadEnabledConnection_safe
    intro connection history
    trivial

theorem handler_bound (settings : Settings) (call : Call) :
    Program.Safe (Bound call) (Any call) ((service settings).handler call) [] := by
  cases call with
  | oidcStart => exact oidcStart_bound
  | oidcCallback query => exact oidcCallback_bound
  | ssoStart id => exact ssoStart_bound
  | ssoCallback id query => exact ssoCallback_bound
  | orgStart id small => exact orgStart_bound
  | orgCallback query => exact orgCallback_bound

end Promises

/-! ## Runs -/

/-- A request of a flow has stored a state. -/
def Stores (flow : Flow) (state : LoginState) (call : Call) (entry : Answered Command) : Prop :=
  startFlow call = some flow ∧ entry = ⟨.createOidcState state, .ok ()⟩

abbrev Requesting := Requests.State Tables Call Command ApiError Reply

/-- Every state in the table has been stored by the flow that its key has the form of. -/
def Inv (state : Requesting) : Prop :=
  ∀ row ∈ state.tables.states, ∃ flow, flowOf row.key = some flow ∧
    state.Recorded (Stores flow row)

/-- A request fits. -/
def Fitting (due : Due Tables Call Choice Command ApiError Reply) : Prop := Fits due.request.call

instance : DecidablePred Fitting := fun due => inferInstanceAs (Decidable (Fits due.request.call))

section Runs

variable {settings : Settings} {state : Requesting}

/-- The states after an answer: those from before, or one that has just been stored. -/
theorem execute_states {choice : Choice} {β : Type} {command : Command β} {answer : β}
    {tables after : Tables} (executed : execute choice command tables = some (answer, after)) :
    (∀ row ∈ after.states, row ∈ tables.states ∨
      (⟨command, answer⟩ : Answered Command) = ⟨.createOidcState row, .ok ()⟩) := by
  intro row member
  cases command with
  | now | generateAuthToken | fetchDiscovery issuer =>
      cases choice <;> cases executed
      exact .inl member
  | orgSsoConnection id | createSamlRequest requestId expiresAt =>
      obtain ⟨error, rfl, rfl⟩ | ⟨rfl, rfl⟩ := attempted_ok_cases (Option.some.inj executed)
      · exact .inl member
      · exact .inl member
  | consumeOidcState key now =>
      obtain ⟨error, rfl, rfl⟩ | ⟨rfl, rfl⟩ := attempted_ok_cases (Option.some.inj executed)
      · exact .inl member
      · exact .inl (List.mem_of_mem_filter member)
  | createOidcState new =>
      obtain ⟨error, rfl, rfl⟩ | ⟨value, rfl, done⟩ := attempted_cases (Option.some.inj executed)
      · exact .inl member
      · unfold Tables.createOidcState at done
        split_ifs at done
        cases done
        rcases List.mem_cons.mp member with rfl | old
        · exact .inr rfl
        · exact .inl old

theorem Inv.kept : Kept (service settings) Bound Fitting Inv where
  start := by
    intro state call inv row member
    obtain ⟨flow, form, stored⟩ := inv row member
    exact ⟨flow, form, stored.opened _ call⟩
  answer := by
    intro state index choice request β command next answer tables inv found promise executed _
      row member
    rcases execute_states executed row member with old | new
    · obtain ⟨flow, form, stored⟩ := inv row old
      exact ⟨flow, form, stored.continued found⟩
    · cases new
      obtain ⟨flow, starts, form⟩ := promise
      exact ⟨flow, form, State.Recorded.last found ⟨starts, rfl⟩⟩
  disturb := by
    intro state outside tables inv disturbed row member
    obtain rfl := Option.some.inj disturbed
    cases outside with
    | connections rows => exact inv row member
    | purge kept => exact inv row (List.mem_of_mem_filter member)

/-- What has been redeemed was in the table. -/
theorem redeemed_row {choice : Choice} {key : Text} {now : Int} {pair : Text × Text}
    {tables after : Tables}
    (executed : execute choice (.consumeOidcState key now) tables = some (.ok (some pair), after)) :
    ∃ row ∈ tables.states, row.key = key ∧ now ≤ row.expiresAt ∧
      (row.pkceVerifier, row.nonce) = pair := by
  have done := attempted_ok (Option.some.inj executed)
  have found : (tables.consumeOidcState key now).1 = some pair :=
    congrArg Prod.fst (Except.ok.inj done)
  obtain ⟨row, kept, same⟩ := Option.map_eq_some_iff.mp found
  obtain ⟨there, unexpired⟩ := Option.filter_eq_some_iff.mp kept
  refine ⟨row, List.mem_of_find?_eq_some there, ?_, by simpa using unexpired, same⟩
  simpa using List.find?_some there

/-- A callback that fits redeems a state of its own flow. -/
theorem Inv.redeems {after : Requesting} {action : Requests.Action Call Choice Outside}
    {output : Unit}
    {call : Call} {key : Text} {now : Int} {pkceVerifier nonce : Text} (inv : Inv state)
    (faithful : Faithful Bound Any state)
    (reaction : (service settings).step state action = some (output, after))
    (fits : Answering Fitting ⟨state, action, output, after⟩)
    (redeemed : answered (⟨state, action, output, after⟩ :
        Event Tables Call Choice Outside Command ApiError Reply) =
      some (call, ⟨.consumeOidcState key now, .ok (some (pkceVerifier, nonce))⟩)) :
    ∃ flow row, callbackFlow call = some flow ∧ row.key = key ∧
      row.pkceVerifier = pkceVerifier ∧ row.nonce = nonce ∧ state.Recorded (Stores flow row) := by
  obtain ⟨call, rfl, rfl⟩ | ⟨index, choice, request, β, command, next, answer, tables, rfl, found,
    sends, executed, rfl⟩ | ⟨outside, tables, rfl, disturbed, rfl⟩ :=
    (service settings).step_cases reaction
  · cases redeemed
  · have promise := faithful index request found
    rw [sends] at promise
    have fit : Fits request.call := fits _ (due_answer found sends)
    rw [answered_continued found] at redeemed
    cases redeemed
    have executed : execute choice (.consumeOidcState key now) state.tables =
        some (.ok (some (pkceVerifier, nonce)), tables) := executed
    obtain ⟨row, member, rfl, -, same⟩ := redeemed_row executed
    obtain ⟨rfl, rfl⟩ := Prod.mk.inj same
    obtain ⟨flow, form, stored⟩ := inv row member
    exact ⟨flow, row, promise.1 fit flow form, rfl, rfl, rfl, stored⟩
  · cases redeemed

/-- As long as the enterprise callback is given no state of the form of another flow's keys, and
the tenants' callback no bare token, a callback redeems a state only if a start of the same
flow, and of the same provider or connection, has stored it. -/
theorem fitting_callback_redeems_own_state (settings : Settings) (connections : List Connection)
    (actions : List (Requests.Action Call Choice Outside))
    (events : List (Event Tables Call Choice Outside Command ApiError Reply))
    (final : Requesting)
    (ran : Machine.run (service settings).step (State.idle ⟨[], connections, []⟩) actions =
      some (events, final))
    (fits : ∀ event ∈ events, Answering Fitting event) :
    ∀ event ∈ events, ∀ call key now pkceVerifier nonce, answered event =
        some (call, ⟨.consumeOidcState key now, .ok (some (pkceVerifier, nonce))⟩) →
      ∃ flow row, callbackFlow call = some flow ∧ row.key = key ∧
        row.pkceVerifier = pkceVerifier ∧ row.nonce = nonce ∧
        event.before.Recorded (Stores flow row) := by
  have initial : Inv (State.idle ⟨[], connections, []⟩) := by
    intro row member
    cases member
  obtain ⟨-, steps⟩ := run_keeps (handler_bound settings) Inv.kept initial ran fits
  intro event member call key now pkceVerifier nonce redeemed
  obtain ⟨⟨inv, faithful⟩, -, reaction⟩ := steps event member
  exact inv.redeems faithful reaction (fits event member) redeemed

end Runs

/-! ## A state of a social provider -/

/-- One social provider beside the enterprise flow. -/
def exampleSettings : Settings where
  oidcEnabled := true
  oidcIssuer := "https://login.example"
  ssoProviders := [⟨"google", .github, [], by decide⟩]
  githubEndpoint := "https://github.example/authorize"

def exampleToken : Token := ⟨List.replicate 43 'a', by decide⟩

def exampleQuery (state : Text) : CallbackQuery := { code := some ['c'], state := some state }

abbrev LoginAction := Requests.Action Call Choice Outside

/-- A login starts at the provider. -/
def startedLogin : List LoginAction :=
  [.start (.ssoStart "google"), .answer 0 (.token exampleToken),
    .answer 0 (.token exampleToken), .answer 0 (.token exampleToken), .answer 0 (.time 0),
    .answer 0 .ordinary]

/-- A callback is answered. -/
def calledBack (call : Call) : List LoginAction :=
  [.start call, .answer 1 (.time 0), .answer 1 .ordinary]

/-- The provider's own callback is answered with the row of the started login. -/
def redeemsSocial : Option (Call × Answered Command) → Bool
  | some (.ssoCallback id query, ⟨.consumeOidcState key _, .ok (some (verifier, nonce))⟩) =>
      id == "google" && query == exampleQuery exampleToken.text &&
        key == stateKey "google" exampleToken.text &&
        verifier == exampleToken.text && nonce == exampleToken.text
  | _ => false

/-- The provider's own callback redeems the state. -/
theorem social_callback_redeems_state :
    ∃ events final, Machine.run (service exampleSettings).step (State.idle ⟨[], [], []⟩)
        (startedLogin ++ calledBack (.ssoCallback "google" (exampleQuery exampleToken.text))) =
        some (events, final) ∧
      ∃ event ∈ events, ∃ flow row,
        callbackFlow (.ssoCallback "google" (exampleQuery exampleToken.text)) = some flow ∧
        row.key = stateKey "google" exampleToken.text ∧
        row.pkceVerifier = exampleToken.text ∧ row.nonce = exampleToken.text ∧
        event.before.Recorded (Stores flow row) := by
  refine Machine.exists_run_of (fun events _ => (∀ event ∈ events, Answering Fitting event) ∧
    ∃ event ∈ events, redeemsSocial (answered event) = true) (by decide) ?_
  rintro events final ran ⟨fits, event, member, redeemed⟩
  refine ⟨event, member, ?_⟩
  unfold redeemsSocial at redeemed
  split at redeemed
  · next id query key now verifier nonce answers =>
      simp only [Bool.and_eq_true, beq_iff_eq] at redeemed
      obtain ⟨⟨⟨⟨rfl, rfl⟩, rfl⟩, rfl⟩, rfl⟩ := redeemed
      exact fitting_callback_redeems_own_state exampleSettings [] _ events final ran fits event member
        _ _ _ _ _ answers
  · cases redeemed

/-- The enterprise callback is answered with a row. -/
def redeemsEnterprise : Option (Call × Answered Command) → Bool
  | some (.oidcCallback _, ⟨.consumeOidcState _ _, .ok (some _)⟩) => true
  | _ => false

/-- The enterprise callback redeems a state that has been stored for the provider, when it is
given the key of that state. -/
theorem enterprise_callback_redeems_social_state :
    ∃ events final, Machine.run (service exampleSettings).step (State.idle ⟨[], [], []⟩)
        (startedLogin ++ calledBack (.oidcCallback (exampleQuery
          (stateKey "google" exampleToken.text)))) = some (events, final) ∧
      ∃ event ∈ events,
        (∃ query key now pair, answered event =
          some (.oidcCallback query, ⟨.consumeOidcState key now, .ok (some pair)⟩)) ∧
        ∀ request ∈ event.before.requests, startFlow request.call ≠ some .enterprise := by
  refine Machine.exists_run_of (fun events _ => ∃ event ∈ events,
    redeemsEnterprise (answered event) = true ∧ ∀ request ∈ event.before.requests,
      startFlow request.call ≠ some .enterprise) (by decide) ?_
  rintro events final ran ⟨event, member, redeemed, foreign⟩
  refine ⟨event, member, ?_, foreign⟩
  unfold redeemsEnterprise at redeemed
  split at redeemed
  · next query key now pair answers => exact ⟨query, key, now, pair, answers⟩
  · cases redeemed

end Camelmailer.Api.LoginStates
