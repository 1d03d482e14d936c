import Camelmailer.Api.Send
import Camelmailer.Core.Account
import Camelmailer.Text.Paths

/-!
# The admin interface

The routes under `/api/v2/admin`, the middleware that decides who may use them, and which
records their handlers resolve. The middleware reads the path as it was sent. The handlers
are given their parameters by the router, which decodes them.
-/

namespace Camelmailer.Api

open Utf8 Paths

/-! ## Organizations and servers -/

structure OrganizationRow extends Organization where
  name : Text
  requireTwoFactor : Bool
deriving DecidableEq

/-- The key under which a server keeps a template. -/
structure TemplateKey where
  serverId : Id
  permalink : Text
deriving DecidableEq

/-- The part of the store that paths are resolved against, and the next identifier. -/
structure AdminStore where
  organizations : List OrganizationRow
  servers : List Server
  templates : List TemplateKey
  nextId : Id

namespace AdminStore

def empty : AdminStore := ⟨[], [], [], 1⟩

def organizationByPermalink (store : AdminStore) (permalink : Text) : Option OrganizationRow :=
  store.organizations.find? (fun organization => organization.permalink = permalink)

def serverByPermalink (store : AdminStore) (organizationId : Id) (permalink : Text) :
    Option Server :=
  store.servers.find? (fun server =>
    server.organizationId = organizationId ∧ server.permalink = permalink)

def serversForOrganization (store : AdminStore) (organizationId : Id) : List Server :=
  store.servers.filter (fun server => server.organizationId = organizationId)

def createOrganization (store : AdminStore) (name permalink : Text) :
    Except Text (OrganizationRow × AdminStore) :=
  if store.organizations.any (fun organization => organization.permalink = permalink) then
    .error "Permalink has already been taken"
  else
    let organization : OrganizationRow := ⟨⟨store.nextId, permalink⟩, name, false⟩
    .ok (organization, { store with
      organizations := store.organizations ++ [organization]
      nextId := store.nextId + 1 })

/-- `create_server`, for a token that has been drawn. -/
def createServer (store : AdminStore) (organizationId : Id) (permalink token : Text) :
    Except Text (Server × AdminStore) :=
  if store.servers.any (fun server =>
      server.organizationId = organizationId ∧ server.permalink = permalink) then
    .error "Permalink has already been taken"
  else
    let server : Server := {
      id := store.nextId
      organizationId := organizationId
      permalink := permalink
      token := token
      suspended := false
      privacyMode := false
      allowSender := false
      sendLimit := none }
    .ok (server, { store with servers := store.servers ++ [server], nextId := store.nextId + 1 })

end AdminStore

def permalinkFrom (platform : Platform) (name : Text) : Text :=
  let dashed := (platform.toLowercase name).map (fun char =>
    if char.isAlphanum then char else '-')
  ['-'].intercalate ((dashed.splitOn '-').filter (fun part => part ≠ []))

/-- The permalink of a new record: the one that was chosen, if it is not empty. -/
def newPermalink (platform : Platform) (name : Text) (permalink : Option Text) : Text :=
  (permalink.filter (fun chosen => chosen ≠ [])).getD (permalinkFrom platform name)

def parameterMissing (message : Text) : ApiError := ⟨400, "ParameterMissing", message⟩

def notFound : ApiError := ⟨404, "NotFound", "Resource not found"⟩

def forbidden (message : Text) : ApiError := ⟨403, "Forbidden", message⟩

def unauthorized (message : Text) : ApiError := ⟨401, "Unauthorized", message⟩

/-- `organizations_create`, without the membership it grants. -/
def organizationsCreate (platform : Platform) (store : AdminStore) (name permalink : Option Text) :
    Except ApiError (OrganizationRow × AdminStore) :=
  match name.filter (fun given => given ≠ []) with
  | none => .error (parameterMissing "param is missing or the value is empty: name")
  | some name =>
      (store.createOrganization name (newPermalink platform name permalink)).mapError
        validationError

/-- `servers_create`, for the organization that has been found. -/
def serversCreate (platform : Platform) (debug : Text → Text) (store : AdminStore)
    (organization : OrganizationRow) (name permalink mode : Option Text) (token : Text) :
    Except ApiError (Server × AdminStore) :=
  match name.filter (fun given => given ≠ []) with
  | none => .error (parameterMissing "param is missing or the value is empty: name")
  | some name =>
      match mode.filter (fun given => given ≠ "Live".toList ∧ given ≠ "Development".toList) with
      | some other => .error (validationError
          ("Mode " ++ debug other ++ " is not a valid mode"))
      | none =>
          (store.createServer organization.id (newPermalink platform name permalink) token).mapError
            validationError

/-! ## Routes -/

inductive Method where
  | get
  | head
  | post
  | patch
  | delete
  | other
deriving DecidableEq

/-- What a handler resolves from the parameters of its path. -/
inductive Endpoint where
  /-- Nothing: the path names no organization. -/
  | installation
  /-- The organization. -/
  | organization
  /-- The organization, and all of its servers: `servers_stats`. -/
  | serversStats
  /-- The server, and records under its identifier. -/
  | server
  /-- The server, and another one that the body names: `templates_copy_to`. -/
  | templatesCopyTo
deriving DecidableEq

structure RouteEntry where
  pattern : List Segment
  methods : List Method
  endpoint : Endpoint
deriving DecidableEq

def literal (text : String) : Segment := .literal text.toList

/-- A route below an organization. -/
def organizationRoute (rest : List Segment) (methods : List Method) : RouteEntry :=
  ⟨literal "organizations" :: .parameter :: rest, methods, .organization⟩

/-- A route below a server. -/
def serverRoute (rest : List Segment) (methods : List Method) : RouteEntry :=
  ⟨literal "organizations" :: .parameter :: literal "servers" :: .parameter :: rest, methods,
    .server⟩

/-- A route that names no organization. -/
def installationRoute (pattern : List Segment) (methods : List Method) : RouteEntry :=
  ⟨pattern, methods, .installation⟩

/-- The routes of `build_router`. Where a literal and a parameter could take a segment, the
route with the literal comes first. -/
def routes : List RouteEntry := [
  installationRoute [literal "overview"] [.get],
  installationRoute [literal "organizations"] [.get, .post],
  organizationRoute [] [.get, .patch, .delete],
  organizationRoute [literal "overview"] [.get],
  organizationRoute [literal "servers"] [.get, .post],
  ⟨[literal "organizations", .parameter, literal "servers", literal "stats"], [.get],
    .serversStats⟩,
  serverRoute [] [.get, .patch, .delete],
  serverRoute [literal "ip_pool"] [.post],
  serverRoute [literal "stats"] [.get],
  installationRoute [literal "servers", literal "find", .parameter] [.get],
  installationRoute [literal "admin_api_keys"] [.get, .post],
  installationRoute [literal "admin_api_keys", .identifier] [.delete],
  serverRoute [literal "suspend"] [.post],
  serverRoute [literal "unsuspend"] [.post],
  serverRoute [literal "domains"] [.get, .post],
  serverRoute [literal "domains", .parameter] [.get, .patch, .delete],
  serverRoute [literal "domains", .parameter, literal "verify"] [.post],
  serverRoute [literal "domains", .parameter, literal "health"] [.get],
  serverRoute [literal "credentials"] [.get, .post],
  serverRoute [literal "credentials", .parameter] [.get, .patch, .delete],
  serverRoute [literal "routes"] [.get, .post],
  serverRoute [literal "routes", .identifier] [.get, .patch, .delete],
  serverRoute [literal "webhooks"] [.get, .post],
  serverRoute [literal "webhooks", .identifier] [.get, .patch, .delete],
  serverRoute [literal "webhooks", .identifier, literal "enable"] [.post],
  serverRoute [literal "webhooks", .identifier, literal "disable"] [.post],
  serverRoute [literal "webhooks", .identifier, literal "test"] [.post],
  serverRoute [literal "track_domains"] [.get, .post],
  serverRoute [literal "track_domains", .identifier] [.get, .delete],
  serverRoute [literal "track_domains", .identifier, literal "verify"] [.post],
  serverRoute [literal "sender_addresses"] [.get, .post],
  serverRoute [literal "sender_addresses", .identifier] [.delete],
  ⟨[literal "organizations", .parameter, literal "servers", .parameter, literal "templates",
    .parameter, literal "copy_to"], [.post], .templatesCopyTo⟩,
  serverRoute [literal "messages", literal "import"] [.post],
  serverRoute [literal "suppressions"] [.get, .post],
  serverRoute [literal "suppressions", .parameter] [.delete],
  organizationRoute [literal "billing"] [.get],
  organizationRoute [literal "billing", literal "portal"] [.post],
  organizationRoute [literal "billing", literal "plans"] [.get],
  organizationRoute [literal "billing", literal "checkout"] [.post],
  organizationRoute [literal "billing", literal "usage"] [.post],
  organizationRoute [literal "usage"] [.get],
  organizationRoute [literal "limits"] [.get, .patch],
  organizationRoute [literal "suspend"] [.post],
  organizationRoute [literal "unsuspend"] [.post],
  organizationRoute [literal "members"] [.get, .post],
  organizationRoute [literal "members", .identifier] [.patch, .delete],
  organizationRoute [literal "invitations"] [.get, .post],
  organizationRoute [literal "invitations", .identifier] [.delete],
  organizationRoute [literal "sso", literal "domains"] [.get, .post],
  organizationRoute [literal "sso", literal "domains", .identifier, literal "verify"] [.post],
  organizationRoute [literal "sso", literal "domains", .identifier] [.delete],
  organizationRoute [literal "sso", literal "connections"] [.get, .post],
  organizationRoute [literal "sso", literal "connections", .identifier] [.get, .patch, .delete],
  installationRoute [literal "auth_events"] [.get],
  installationRoute [literal "users"] [.get, .post],
  installationRoute [literal "users", .identifier] [.get, .patch, .delete],
  installationRoute [literal "ip_pools"] [.get, .post],
  installationRoute [literal "ip_pools", .identifier] [.get, .delete],
  installationRoute [literal "ip_pools", .identifier, literal "ip_addresses"] [.get, .post],
  installationRoute [literal "ip_pools", .identifier, literal "ip_addresses", .identifier]
    [.get, .delete]]

/-- A handler that answers GET answers HEAD too. -/
def RouteEntry.serves (entry : RouteEntry) (method : Method) : Bool :=
  entry.methods.contains method || (method == .head && entry.methods.contains .get)

/-- The route that takes a path, and the segments its parameters take. -/
def findRoute (path : Text) : Option (RouteEntry × List (Segment × Text)) :=
  (pathSegments path).bind (fun segments =>
    routes.findSome? (fun entry => (matchSegments entry.pattern segments).map (entry, ·)))

/-! ## The middleware -/

/-- What the key and account stores answer, and the configuration. -/
structure Accounts where
  /-- `ApiState::key_scope`. -/
  keyScope : Text → Option AdminKeyScope
  /-- Whether there is an account store. -/
  enabled : Bool
  /-- The expiry of a session and its user, for a token. -/
  sessionWithUser : Text → Option (DateTime × User)
  membership : Id → Id → Option Role
  userHasTwoFactor : Id → Bool
  allowOrganizationCreation : Bool

structure AdminRequest where
  method : Method
  path : Text
  /-- The value of the key header, or nothing. -/
  adminKey : Text
  /-- The bearer token, if there is one. -/
  bearer : Option Text
  /-- The fields of the body that `templates_copy_to` reads. -/
  targetServer : Option Text
  overwrite : Option Bool

/-- The segments of a path as the middleware reads them, with or without the prefix of the
router. -/
def adminSegments (path : Text) : List Text :=
  filledSegments ((Str.stripPrefix "/api/v2/admin" path).getD path)

/-- The role that a request needs unless it reads only. -/
def unlessRead (method : Method) (role : Role) : Role :=
  if method = .get ∨ method = .head then .viewer else role

/-- `required_role`, for the segments below the organization. -/
def requiredRole (rest : List Text) (method : Method) : Role :=
  match rest with
  | [] => unlessRead method .owner
  | first :: others =>
      if first = "members".toList ∨ first = "invitations".toList then unlessRead method .admin
      else if first = "billing".toList then .admin
      else if first = "usage".toList then .viewer
      else if first = "limits".toList ∨ first = "suspend".toList ∨ first = "unsuspend".toList then
        unlessRead method .owner
      else if first = "sso".toList then .admin
      else if first = "servers".toList then
        match others[1]? with
        | none => unlessRead method .admin
        | some third =>
            if third = "suspend".toList ∨ third = "unsuspend".toList ∨ third = "ip_pool".toList then
              unlessRead method .admin
            else unlessRead method .member
      else unlessRead method .admin

/-- The organization that the middleware looks up. -/
def checkedOrganization (store : AdminStore) (path : Text) : Option OrganizationRow :=
  match adminSegments path with
  | first :: permalink :: _ =>
      if first = "organizations" then store.organizationByPermalink permalink else none
  | _ => none

def keyScopeAllows (store : AdminStore) (scope : AdminKeyScope) (path : Text) : Bool :=
  match checkedOrganization store path with
  | none => false
  | some organization =>
      if some organization.id ≠ scope.organizationId then false
      else match scope.serverId with
        | none => true
        | some serverId =>
            match adminSegments path with
            | _ :: _ :: third :: permalink :: _ =>
                if third = "servers" then
                  (store.serverByPermalink organization.id permalink).any (fun server =>
                    server.id = serverId)
                else false
            | _ => false

/-- The role of a user who is not a global administrator, if it suffices. -/
def authorizeMember (store : AdminStore) (accounts : Accounts) (request : AdminRequest)
    (user : User) : Except ApiError (Option Role) :=
  match adminSegments request.path with
  | first :: rest =>
      if first = "organizations" then
        match rest with
        | [] =>
            if request.method = .post ∧ accounts.allowOrganizationCreation = false then
              .error (forbidden "Organization creation is restricted to administrators")
            else .ok none
        | _ :: below =>
            match (checkedOrganization store request.path).bind (fun organization =>
              accounts.membership organization.id user.id) with
            | none => .error notFound
            | some role =>
                let required := requiredRole below request.method
                if role < required then
                  .error (forbidden ("This action requires the " ++ required.asStr ++
                    " role in this organization"))
                else .ok (some role)
      else .error (forbidden "This action requires a global administrator account")
  | [] => .error (forbidden "This action requires a global administrator account")

/-- The role of a user, which a global administrator does not need. -/
def authorizeUser (store : AdminStore) (accounts : Accounts) (request : AdminRequest)
    (user : User) : Except ApiError (Option Role) :=
  if user.admin then .ok none else authorizeMember store accounts request user

/-- Two-factor authentication where the organization asks for it. -/
def enforceTwoFactor (store : AdminStore) (accounts : Accounts) (request : AdminRequest)
    (user : User) : Except ApiError Unit :=
  match checkedOrganization store request.path with
  | none => .ok ()
  | some organization =>
      if organization.requireTwoFactor && !accounts.userHasTwoFactor user.id then
        .error ⟨403, "TwoFactorEnforced",
          ("This organization requires two-factor authentication. " ++
            "Enable two-factor authentication on your account to continue.").toList⟩
      else .ok ()

/-- The user of a session token that has not expired. -/
def sessionUser (accounts : Accounts) (now : DateTime) (request : AdminRequest) :
    Except ApiError User :=
  match request.bearer, accounts.enabled with
  | some token, true =>
      match (accounts.sessionWithUser token).filter (fun session => session.1 > now) with
      | none => .error (unauthorized "The session token is invalid or has expired")
      | some session => .ok session.2
  | _, _ => .error (unauthorized
      "Missing X-Admin-API-Key header or Authorization: Bearer session token")

/-- `auth_middleware`: the caller it lets through, and the role it has found. -/
def authMiddleware (store : AdminStore) (accounts : Accounts) (now : DateTime)
    (request : AdminRequest) : Except ApiError (Principal × Option Role) :=
  if request.adminKey ≠ [] then
    match accounts.keyScope request.adminKey with
    | none => .error (unauthorized "Invalid API key")
    | some scope =>
        if !scope.isGlobal && !keyScopeAllows store scope request.path then .error notFound
        else .ok (.adminKey scope, none)
  else do
    let user ← sessionUser accounts now request
    let role ← authorizeUser store accounts request user
    enforceTwoFactor store accounts request user
    return (.user user, role)

/-! ## The handlers -/

/-- What a handler finds for its parameters, and the servers whose records its answer
shows. -/
structure Resolved where
  organization : Option OrganizationRow
  server : Option Server
  shown : List Id

def findServer (store : AdminStore) (organizationPermalink permalink : Text) : Option Server :=
  (store.organizationByPermalink organizationPermalink).bind (fun organization =>
    store.serverByPermalink organization.id permalink)

def AdminStore.hasTemplate (store : AdminStore) (serverId : Id) (permalink : Text) : Bool :=
  store.templates.contains ⟨serverId, permalink⟩

/-- `templates_copy_to`: the server onto which a template is copied, whose new record it
shows. -/
def copyTarget (store : AdminStore) (server : Server) (template : Text)
    (request : AdminRequest) : Option Server :=
  (request.targetServer.filter (fun permalink => permalink ≠ [])).bind (fun permalink =>
    if store.hasTemplate server.id template then
      (store.serverByPermalink server.organizationId permalink).filter (fun target =>
        !store.hasTemplate target.id template || request.overwrite.getD false)
    else none)

/-- What the handler of an endpoint resolves. `storage` is whether message storage is
configured. -/
def Endpoint.resolve (endpoint : Endpoint) (store : AdminStore) (storage : Bool)
    (request : AdminRequest) (parameters : List Text) : Resolved :=
  match endpoint, parameters with
  | .organization, permalink :: _ => ⟨store.organizationByPermalink permalink, none, []⟩
  | .serversStats, permalink :: _ =>
      let organization := store.organizationByPermalink permalink
      ⟨organization, none, match organization, storage with
        | some found, true => (store.serversForOrganization found.id).map Server.id
        | _, _ => []⟩
  | .server, permalink :: serverPermalink :: _ =>
      let server := findServer store permalink serverPermalink
      ⟨store.organizationByPermalink permalink, server, (server.map Server.id).toList⟩
  | .templatesCopyTo, permalink :: serverPermalink :: template :: _ =>
      let server := findServer store permalink serverPermalink
      let target := if storage then
        server.bind (fun found => copyTarget store found template request) else none
      ⟨store.organizationByPermalink permalink, server, (target.map Server.id).toList⟩
  | _, _ => ⟨none, none, []⟩

/-- The handler of a request and the parameters it is given. A path without a route, a method
that it does not serve and a parameter that cannot be read are answered before any handler
runs. -/
def AdminRequest.dispatch (request : AdminRequest) : Option (Endpoint × List (Segment × Text) ×
    List Text) :=
  match findRoute request.path with
  | none => none
  | some (entry, taken) =>
      if entry.serves request.method then
        (readParameters taken).map (fun parameters => (entry.endpoint, taken, parameters))
      else none

/-- What the handler of a request resolves. The answer to HEAD has no body. -/
def handle (store : AdminStore) (storage : Bool) (request : AdminRequest) : Resolved :=
  match request.dispatch with
  | none => ⟨none, none, []⟩
  | some (endpoint, _, parameters) =>
      let resolved := endpoint.resolve store storage request parameters
      if request.method = .head then { resolved with shown := [] } else resolved

end Camelmailer.Api
