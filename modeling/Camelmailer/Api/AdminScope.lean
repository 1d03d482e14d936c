import Camelmailer.Api.Admin

/-!
# The organization authorised and the organization acted on

The middleware looks an organization up under the segment of the path as it was sent. The
handler looks it up under the decoded segment. Permalinks are chosen by clients and may
contain percent signs, so the two can be different organizations. A key that is confined to a
server has two more ways out: a server with the name of a literal route, and a template that
is copied onto another server.
-/

namespace Camelmailer.Api

open Utf8 Paths

/-! ## Stores -/

/-- What organizations and servers have been created. Templates come and go. -/
inductive AdminStore.Reachable : AdminStore → Prop where
  | empty : AdminStore.Reachable .empty
  | organization {store next : AdminStore} {created : OrganizationRow} (platform : Platform)
      (name permalink : Option Text) : AdminStore.Reachable store →
      organizationsCreate platform store name permalink = .ok (created, next) →
      AdminStore.Reachable next
  | server {store next : AdminStore} {created : Server} (platform : Platform)
      (debug : Text → Text) (organization : OrganizationRow) (name permalink mode : Option Text)
      (token : Text) : AdminStore.Reachable store →
      serversCreate platform debug store organization name permalink mode token =
        .ok (created, next) →
      AdminStore.Reachable next
  | templates {store : AdminStore} (templates : List TemplateKey) :
      AdminStore.Reachable store → AdminStore.Reachable { store with templates := templates }

/-- Identifiers are given once. -/
structure AdminStore.Sound (store : AdminStore) : Prop where
  organization_id : ∀ first ∈ store.organizations, ∀ second ∈ store.organizations,
    first.id = second.id → first = second
  server_id : ∀ first ∈ store.servers, ∀ second ∈ store.servers,
    first.id = second.id → first = second
  organization_given : ∀ organization ∈ store.organizations, organization.id < store.nextId
  server_given : ∀ server ∈ store.servers, server.id < store.nextId

/-- Adding a record under a new identifier keeps identifiers apart. -/
theorem distinct_append {α : Type} {identifier : α → Nat} {records : List α} {new : α} {bound : Nat}
    (distinct : ∀ first ∈ records, ∀ second ∈ records,
      identifier first = identifier second → first = second)
    (given : ∀ record ∈ records, identifier record < bound) (fresh : identifier new = bound) :
    ∀ first ∈ records ++ [new], ∀ second ∈ records ++ [new],
      identifier first = identifier second → first = second := by
  intro first first_listed second second_listed same
  rcases List.mem_append.mp first_listed with old | is_new
  · rcases List.mem_append.mp second_listed with older | is_new
    · exact distinct first old second older same
    · obtain rfl := List.mem_singleton.mp is_new
      have bounded := given first old
      omega
  · obtain rfl := List.mem_singleton.mp is_new
    rcases List.mem_append.mp second_listed with old | is_new
    · have bounded := given second old
      omega
    · exact (List.mem_singleton.mp is_new).symm

theorem given_append {α : Type} {identifier : α → Nat} {records : List α} {new : α} {bound : Nat}
    (given : ∀ record ∈ records, identifier record < bound) (fresh : identifier new = bound) :
    ∀ record ∈ records ++ [new], identifier record < bound + 1 := by
  intro record listed
  rcases List.mem_append.mp listed with old | is_new
  · have bounded := given record old
    omega
  · obtain rfl := List.mem_singleton.mp is_new
    omega

theorem AdminStore.Reachable.sound {store : AdminStore} (reachable : store.Reachable) :
    store.Sound := by
  induction reachable with
  | empty =>
      refine ⟨?_, ?_, ?_, ?_⟩
      all_goals
        intro record listed
        cases listed
  | organization platform name permalink before created ih =>
      unfold organizationsCreate at created
      split at created
      · cases created
      · unfold AdminStore.createOrganization at created
        split at created
        · cases created
        · cases created
          refine ⟨?_, ih.server_id, ?_, ?_⟩
          · exact distinct_append ih.organization_id
              ih.organization_given rfl
          · exact given_append ih.organization_given rfl
          · intro server listed
            exact Nat.lt_succ_of_lt (ih.server_given server listed)
  | server platform debug organization name permalink mode token before created
      ih =>
      unfold serversCreate at created
      split at created
      · cases created
      · split at created
        · cases created
        · unfold AdminStore.createServer at created
          split at created
          · cases created
          · cases created
            refine ⟨ih.organization_id, ?_, ?_, ?_⟩
            · exact distinct_append ih.server_id
                ih.server_given rfl
            · intro organization listed
              exact Nat.lt_succ_of_lt (ih.organization_given organization listed)
            · exact given_append ih.server_given rfl
  | templates templates before ih =>
      exact ⟨ih.organization_id, ih.server_id,
        ih.organization_given, ih.server_given⟩

/-- A lookup under another name finds nothing or the same record exactly when there is none
under it or it is the same name. -/
theorem find_agrees {α : Type} {identifier : α → Nat} {records : List α} (named : Text → α → Bool)
    (distinct : ∀ first ∈ records, ∀ second ∈ records,
      identifier first = identifier second → first = second)
    (single : ∀ first second record, named first record = true → named second record = true →
      first = second)
    {raw decoded : Text} {checked : α} (found : records.find? (named raw) = some checked) :
    (∀ record, records.find? (named decoded) = some record →
        identifier record = identifier checked) ↔
      records.find? (named decoded) = none ∨ decoded = raw := by
  constructor
  · intro agrees
    cases resolved : records.find? (named decoded) with
    | none => exact .inl rfl
    | some record =>
        right
        have same := distinct record (List.mem_of_find?_eq_some resolved) checked
          (List.mem_of_find?_eq_some found) (agrees record resolved)
        subst same
        exact single decoded raw record (List.find?_some resolved) (List.find?_some found)
  · rintro (missing | rfl) record resolved
    · rw [missing] at resolved
      cases resolved
    · rw [found] at resolved
      cases resolved
      rfl

section Lookups

variable {store : AdminStore} {raw permalink : Text}

theorem AdminStore.Sound.organization_agrees (sound : store.Sound) {checked : OrganizationRow}
    (found : store.organizationByPermalink raw = some checked) :
    (∀ organization, store.organizationByPermalink permalink = some organization →
        organization.id = checked.id) ↔
      store.organizationByPermalink permalink = none ∨ permalink = raw := by
  apply find_agrees (fun name (organization : OrganizationRow) =>
    decide (organization.permalink = name)) sound.organization_id _ found
  intro first second organization
  simp only [decide_eq_true_eq]
  rintro rfl same
  exact same

theorem AdminStore.Sound.server_agrees (sound : store.Sound) {organizationId : Id}
    {checked : Server} (found : store.serverByPermalink organizationId raw = some checked) :
    (∀ server, store.serverByPermalink organizationId permalink = some server →
        server.id = checked.id) ↔
      store.serverByPermalink organizationId permalink = none ∨ permalink = raw := by
  apply find_agrees (fun name (server : Server) =>
    decide (server.organizationId = organizationId ∧ server.permalink = name)) sound.server_id _
    found
  intro first second server
  simp only [decide_eq_true_eq]
  rintro ⟨-, rfl⟩ ⟨-, same⟩
  exact same

end Lookups

/-! ## The property -/

/-- The organization that the handler resolves is the one whose membership, role or scope the
middleware has checked. For a key that is confined to a server, the server is the one it is
confined to, and the answer shows no other server's records. -/
def Confined (store : AdminStore) (storage : Bool) (request : AdminRequest) : Principal → Prop
  | .adminKey scope => scope.isGlobal = true ∨
      (∀ organization, (handle store storage request).organization = some organization →
        some organization.id = scope.organizationId) ∧
      ∀ serverId, scope.serverId = some serverId →
        (∀ server, (handle store storage request).server = some server → server.id = serverId) ∧
        ∀ shown ∈ (handle store storage request).shown, shown = serverId
  | .user account => account.admin = true ∨
      ∀ organization, (handle store storage request).organization = some organization →
        ∃ checked, checkedOrganization store request.path = some checked ∧
          organization.id = checked.id

/-- A template is not copied onto another server: the body names no other server of the
organization, there is no such template, or it is there already and is not to be
overwritten. -/
def CopiesNowhereElse (store : AdminStore) (request : AdminRequest) (server : Server)
    (template : Text) : Prop :=
  ∀ permalink target, request.targetServer = some permalink → permalink ≠ [] →
    store.serverByPermalink server.organizationId permalink = some target →
    target.id = server.id ∨ store.hasTemplate server.id template = false ∨
      store.hasTemplate target.id template = true ∧ request.overwrite ≠ some true

/-- What a key that is confined to a server must not meet: its segment names another server
when it is decoded, the route is that of all servers of the organization, or a template is
copied onto another server. -/
def ServerUnambiguous (store : AdminStore) (storage : Bool) (request : AdminRequest)
    (organizationId serverId : Id) : Endpoint → List Text → List Text → Prop
  | .serversStats, _, _ => request.method = .head ∨ storage = false ∨
      ∀ server ∈ store.servers, server.organizationId = organizationId → server.id = serverId
  | .server, _ :: raw :: _, _ :: permalink :: _ =>
      store.serverByPermalink organizationId permalink = none ∨ permalink = raw
  | .templatesCopyTo, _ :: raw :: _, _ :: permalink :: template :: _ =>
      store.serverByPermalink organizationId permalink = none ∨
        permalink = raw ∧ (storage = true → ∀ server,
          store.serverByPermalink organizationId permalink = some server →
          CopiesNowhereElse store request server template)
  | _, _, _ => True

/-- The segment of the organization is decoded to itself or to the permalink of no
organization; and what a key that is confined to a server must not meet is absent. -/
def Unambiguous (store : AdminStore) (storage : Bool) (request : AdminRequest)
    (serverId : Option Id) : Prop :=
  ∀ endpoint taken parameters raw permalink, request.dispatch = some (endpoint, taken, parameters) →
    endpoint ≠ .installation → taken.head?.map Prod.snd = some raw →
    parameters.head? = some permalink →
    store.organizationByPermalink permalink = none ∨
      permalink = raw ∧ ∀ organization, store.organizationByPermalink permalink = some organization →
        ∀ confined, serverId = some confined →
          ServerUnambiguous store storage request organization.id confined endpoint
            (taken.map Prod.snd) parameters

/-! ## Routes and segments -/

def Segment.filled : Segment → Bool
  | .literal text => text ≠ []
  | _ => true

/-- What the patterns of the endpoints look like. -/
def RouteEntry.shaped (entry : RouteEntry) : Bool :=
  entry.pattern.all Segment.filled && match entry.endpoint, entry.pattern with
    | .installation, _ => true
    | .organization, .literal first :: .parameter :: rest =>
        first == "organizations".toList && match rest with
          | .literal third :: _ :: _ => third != "servers".toList
          | [.literal _] => true
          | [] => true
          | _ => false
    | .serversStats, [.literal first, .parameter, .literal third, .literal _] =>
        first == "organizations".toList && third == "servers".toList
    | .server, .literal first :: .parameter :: .literal third :: .parameter :: _ =>
        first == "organizations".toList && third == "servers".toList
    | .templatesCopyTo, [.literal first, .parameter, .literal third, .parameter, .literal _,
        .parameter, .literal _] =>
        first == "organizations".toList && third == "servers".toList && !entry.serves .head
    | _, _ => false

theorem routes_shaped : ∀ entry ∈ routes, entry.shaped = true := by
  decide +kernel

/-- How the segments of a path, the segments its parameters take and the parameters go
together. -/
inductive Taken : Endpoint → List Text → List Text → List Text → Prop where
  | organization {raw permalink : Text} {rest raws parameters : List Text}
      (outside : ∀ name below, rest ≠ "servers".toList :: name :: below) :
      Taken .organization ("organizations".toList :: raw :: rest) (raw :: raws)
        (permalink :: parameters)
  | serversStats {raw permalink name : Text} {rest raws parameters : List Text} :
      Taken .serversStats ("organizations".toList :: raw :: "servers".toList :: name :: rest)
        (raw :: raws) (permalink :: parameters)
  | server {raw permalink rawServer named : Text} {rest raws parameters : List Text} :
      Taken .server ("organizations".toList :: raw :: "servers".toList :: rawServer :: rest)
        (raw :: rawServer :: raws) (permalink :: named :: parameters)
  | templatesCopyTo {raw permalink rawServer named template : Text}
      {rest raws parameters : List Text} :
      Taken .templatesCopyTo
        ("organizations".toList :: raw :: "servers".toList :: rawServer :: rest)
        (raw :: rawServer :: raws) (permalink :: named :: template :: parameters)

theorem readParameters_cons {first : Segment × Text} {rest : List (Segment × Text)}
    {parameters : List Text} (read : readParameters (first :: rest) = some parameters) :
    ∃ parameter others, parameters = parameter :: others ∧ readParameters rest = some others := by
  unfold readParameters at read
  rw [List.mapM_cons] at read
  obtain ⟨parameter, -, rest_read⟩ := Option.bind_eq_some_iff.mp read
  obtain ⟨others, below, same⟩ := Option.bind_eq_some_iff.mp rest_read
  exact ⟨parameter, others, (Option.some.inj same).symm, below⟩

/-- A literal and a parameter after it. -/
theorem taken_below {text : Text} {pattern : List Segment} {segments : List Text}
    {taken : List (Segment × Text)} {parameters : List Text}
    (matched : matchSegments (.literal text :: .parameter :: pattern) segments = some taken)
    (read : readParameters taken = some parameters) :
    ∃ raw below others parameter rest, segments = text :: raw :: below ∧
      taken = (.parameter, raw) :: others ∧ parameters = parameter :: rest ∧
      matchSegments pattern below = some others ∧ readParameters others = some rest := by
  obtain ⟨_, rfl, after_literal⟩ := matchSegments_literal matched
  obtain ⟨raw, below, others, rfl, -, rfl, after_parameter⟩ :=
    matchSegments_parameter (by simp) after_literal
  obtain ⟨parameter, rest, rfl, rest_read⟩ := readParameters_cons read
  exact ⟨raw, below, others, parameter, rest, rfl, rfl, rfl, after_parameter, rest_read⟩

/-- The shape of a route determines how its parameters are taken. -/
theorem RouteEntry.taken {entry : RouteEntry} {segments : List Text}
    {taken : List (Segment × Text)} {parameters : List Text} (shaped : entry.shaped = true)
    (named : entry.endpoint ≠ .installation)
    (matched : matchSegments entry.pattern segments = some taken)
    (read : readParameters taken = some parameters) :
    Taken entry.endpoint segments (taken.map Prod.snd) parameters := by
  obtain ⟨pattern, methods, endpoint⟩ := entry
  unfold RouteEntry.shaped at shaped
  dsimp only at shaped named matched ⊢
  obtain ⟨-, shape⟩ := Bool.and_eq_true_iff.mp shaped
  split at shape
  case h_1 => exact absurd rfl named
  case h_2 first rest =>
    obtain ⟨organizations, below_shape⟩ := Bool.and_eq_true_iff.mp shape
    obtain rfl := beq_iff_eq.mp organizations
    obtain ⟨raw, below, others, permalink, last, rfl, rfl, rfl, below_matched, -⟩ :=
      taken_below matched read
    apply Taken.organization
    rintro name lower rfl
    split at below_shape
    case h_1 third _ _ =>
      obtain ⟨_, same, -⟩ := matchSegments_literal below_matched
      obtain ⟨rfl, -⟩ := List.cons_eq_cons.mp same
      simp at below_shape
    case h_2 =>
      obtain ⟨lowest, same, lowest_matched⟩ := matchSegments_literal below_matched
      obtain ⟨-, rfl⟩ := List.cons_eq_cons.mp same
      obtain ⟨absurdity, -⟩ := matchSegments_nil lowest_matched
      cases absurdity
    case h_3 =>
      obtain ⟨absurdity, -⟩ := matchSegments_nil below_matched
      cases absurdity
    case h_4 => cases below_shape
  case h_3 first third name =>
    obtain ⟨organizations, servers⟩ := Bool.and_eq_true_iff.mp shape
    obtain rfl := beq_iff_eq.mp organizations
    obtain rfl := beq_iff_eq.mp servers
    obtain ⟨raw, below, others, permalink, last, rfl, rfl, rfl, below_matched, -⟩ :=
      taken_below matched read
    obtain ⟨_, rfl, name_matched⟩ := matchSegments_literal below_matched
    obtain ⟨_, rfl, -⟩ := matchSegments_literal name_matched
    exact .serversStats
  case h_4 first third rest =>
    obtain ⟨organizations, servers⟩ := Bool.and_eq_true_iff.mp shape
    obtain rfl := beq_iff_eq.mp organizations
    obtain rfl := beq_iff_eq.mp servers
    obtain ⟨raw, below, others, permalink, last, rfl, rfl, rfl, below_matched, below_read⟩ :=
      taken_below matched read
    obtain ⟨rawServer, _, _, serverPermalink, _, rfl, rfl, rfl, -, -⟩ :=
      taken_below below_matched below_read
    exact .server
  case h_5 first third fifth last =>
    obtain ⟨names, -⟩ := Bool.and_eq_true_iff.mp shape
    obtain ⟨organizations, servers⟩ := Bool.and_eq_true_iff.mp names
    obtain rfl := beq_iff_eq.mp organizations
    obtain rfl := beq_iff_eq.mp servers
    obtain ⟨raw, below, others, permalink, _, rfl, rfl, rfl, below_matched, below_read⟩ :=
      taken_below matched read
    obtain ⟨rawServer, lower, _, serverPermalink, _, rfl, rfl, rfl, lower_matched, lower_read⟩ :=
      taken_below below_matched below_read
    obtain ⟨rawTemplate, _, _, template, _, rfl, rfl, rfl, -, -⟩ :=
      taken_below lower_matched lower_read
    exact .templatesCopyTo
  case h_6 => cases shape

/-- The middleware and the router split the path of a route alike. -/
theorem adminSegments_eq {entry : RouteEntry} {path : Text} {segments : List Text}
    {taken : List (Segment × Text)} (shaped : entry.shaped = true)
    (split : pathSegments path = some segments)
    (matched : matchSegments entry.pattern segments = some taken)
    (outside : segments.head? ≠ some "api".toList) : adminSegments path = segments := by
  have filled : ∀ text, .literal text ∈ entry.pattern → text ≠ [] := by
    intro text listed
    have every := (Bool.and_eq_true_iff.mp shaped).1
    simpa [Segment.filled] using List.all_eq_true.mp every _ listed
  have unstripped : Str.stripPrefix "/api/v2/admin".toList path = none := by
    unfold Str.stripPrefix
    rw [if_neg]
    rintro ⟨rest, rfl⟩
    have spelled : pathSegments ('/' :: ("api".toList ++ '/' :: ("v2/admin".toList ++ rest))) =
        some segments := split
    exact outside (pathSegments_word (by decide) spelled)
  unfold adminSegments
  rw [unstripped]
  exact filledSegments_eq split (matchSegments_filled filled matched)

/-- The handler of a request under an organization, and what the middleware has read of its
path. -/
theorem dispatch_taken {request : AdminRequest} {endpoint : Endpoint}
    {taken : List (Segment × Text)} {parameters : List Text}
    (dispatched : request.dispatch = some (endpoint, taken, parameters))
    (named : endpoint ≠ .installation) :
    Taken endpoint (adminSegments request.path) (taken.map Prod.snd) parameters ∧
      (endpoint = .templatesCopyTo → request.method ≠ .head) := by
  unfold AdminRequest.dispatch at dispatched
  split at dispatched
  case h_1 => cases dispatched
  case h_2 entry found routed =>
    split at dispatched
    case isFalse => cases dispatched
    case isTrue serves =>
      obtain ⟨read_parameters, read, same⟩ := Option.map_eq_some_iff.mp dispatched
      obtain ⟨rfl, rfl, rfl⟩ : entry.endpoint = endpoint ∧ found = taken ∧
          read_parameters = parameters := by simpa using same
      obtain ⟨segments, split, matching⟩ := Option.bind_eq_some_iff.mp routed
      obtain ⟨tried, listed, tried_matched⟩ := List.exists_of_findSome?_eq_some matching
      obtain ⟨segments_taken, matched, tried_is⟩ := Option.map_eq_some_iff.mp tried_matched
      obtain ⟨rfl, rfl⟩ : tried = entry ∧ segments_taken = found := by simpa using tried_is
      have shaped := routes_shaped tried listed
      have takes := tried.taken shaped named matched read
      have outside : segments.head? ≠ some "api".toList := by
        generalize tried.endpoint = kind, segments_taken.map Prod.snd = raws at takes
        cases takes <;> simp
      rw [adminSegments_eq shaped split matched outside]
      refine ⟨takes, ?_⟩
      intro copies is_head
      rw [is_head] at serves
      have shape := (Bool.and_eq_true_iff.mp shaped).2
      rw [copies] at shape
      split at shape
      all_goals simp_all

/-! ## What the middleware has checked -/

section Admission

variable {store : AdminStore} {accounts : Accounts} {now : DateTime} {request : AdminRequest}
  {storage : Bool} {principal : Principal} {role : Option Role}

/-- The organization under the segment of the path, and for a key its scope. -/
structure Checked (store : AdminStore) (principal : Principal) (raw : Text) (rest : List Text)
    (checked : OrganizationRow) : Prop where
  found : store.organizationByPermalink raw = some checked
  scope : ∀ scope, principal = .adminKey scope → some checked.id = scope.organizationId
  server : ∀ serverId, principal.serverScope = some serverId → ∃ name below server,
    rest = "servers".toList :: name :: below ∧
    store.serverByPermalink checked.id name = some server ∧ server.id = serverId

theorem keyScopeAllows_checked {scope : AdminKeyScope} {raw : Text} {rest : List Text}
    (segments : adminSegments request.path = "organizations".toList :: raw :: rest)
    (allowed : keyScopeAllows store scope request.path = true) :
    ∃ checked, Checked store (.adminKey scope) raw rest checked := by
  unfold keyScopeAllows at allowed
  have looked_up : checkedOrganization store request.path = store.organizationByPermalink raw := by
    unfold checkedOrganization
    rw [segments]
    exact if_pos rfl
  rw [looked_up] at allowed
  split at allowed
  case h_1 => cases allowed
  case h_2 checked found =>
    split at allowed
    case isTrue => cases allowed
    case isFalse own =>
      have owner : some checked.id = scope.organizationId := not_not.mp own
      refine ⟨checked, found, ?_, ?_⟩
      · intro given same
        cases same
        exact owner
      · intro serverId confined
        change scope.serverId = some serverId at confined
        rw [confined, segments] at allowed
        dsimp only at allowed
        split at allowed
        case h_2 => cases allowed
        case h_1 third name below same =>
          obtain ⟨-, -, rfl⟩ : "organizations".toList = _ ∧ raw = _ ∧ rest = _ := by
            simpa using same
          split at allowed
          case isFalse => cases allowed
          case isTrue servers =>
            obtain ⟨server, placed, identified⟩ := (Option.any_eq_true _ _).mp allowed
            exact ⟨name, below, server, by rw [servers], placed, by simpa using identified⟩

/-- A request under an organization that is let through for a principal who is not
unrestricted. -/
theorem admitted_checked {raw : Text} {rest : List Text}
    (admitted : authMiddleware store accounts now request = .ok (principal, role))
    (restricted : principal.isRoot = false)
    (segments : adminSegments request.path = "organizations".toList :: raw :: rest) :
    ∃ checked, Checked store principal raw rest checked := by
  unfold authMiddleware at admitted
  split at admitted
  · split at admitted
    · cases admitted
    case h_2 scope known =>
      split at admitted
      · cases admitted
      case isFalse allowed =>
        cases admitted
        change scope.isGlobal = false at restricted
        apply keyScopeAllows_checked segments
        simpa [restricted] using allowed
  · obtain ⟨account, -, rest_admitted⟩ := bind_eq_ok.mp admitted
    obtain ⟨_, member, rest_admitted⟩ := bind_eq_ok.mp rest_admitted
    obtain ⟨⟨⟩, -, same⟩ := bind_eq_ok.mp rest_admitted
    cases same
    change account.admin = false at restricted
    unfold authorizeUser at member
    rw [restricted] at member
    have looked_up : checkedOrganization store request.path =
        store.organizationByPermalink raw := by
      unfold checkedOrganization
      rw [segments]
      exact if_pos rfl
    change authorizeMember store accounts request account = .ok role at member
    unfold authorizeMember at member
    rw [segments, looked_up] at member
    dsimp only at member
    rw [if_pos rfl] at member
    split at member
    case h_1 => cases member
    case h_2 own_role found =>
      obtain ⟨checked, placed, -⟩ := Option.bind_eq_some_iff.mp found
      refine ⟨checked, placed, ?_, ?_⟩
      · intro scope absurdity
        cases absurdity
      · intro serverId absurdity
        cases absurdity

/-! ## The servers of a confined key -/

theorem copyTarget_iff {server : Server} {template : Text} :
    (∀ target, copyTarget store server template request = some target → target.id = server.id) ↔
      CopiesNowhereElse store request server template := by
  unfold copyTarget CopiesNowhereElse
  constructor
  · intro confined permalink target names filled found
    by_contra other
    push Not at other
    obtain ⟨different, present, replaces⟩ := other
    apply different
    apply confined
    rw [names, Option.filter_some_pos (by simpa using filled), Option.bind_some,
      if_pos (by simpa using present), found]
    apply Option.filter_some_pos
    cases occupied : store.hasTemplate target.id template with
    | false => rfl
    | true => simp [replaces occupied]
  · intro nowhere target copied
    obtain ⟨permalink, names, copies⟩ := Option.bind_eq_some_iff.mp copied
    obtain ⟨given, filled⟩ := Option.filter_eq_some_iff.mp names
    split at copies
    case isFalse => cases copies
    case isTrue present =>
      obtain ⟨found, replaces⟩ := Option.filter_eq_some_iff.mp copies
      rcases nowhere permalink target given (by simpa using filled) found with
        same | absent | ⟨occupied, kept⟩
      · exact same
      · rw [absent] at present
        cases present
      · rw [occupied] at replaces
        cases overwrite : request.overwrite with
        | none => simp [overwrite] at replaces
        | some value => cases value <;> simp_all

variable {endpoint : Endpoint} {parameters : List Text}

/-- For a key that is confined to a server, once the organization is the same. -/
theorem server_confined_iff {raw permalink : Text} {rest raws : List Text}
    {checked : OrganizationRow} {serverId : Id} (sound : store.Sound)
    (takes : Taken endpoint ("organizations".toList :: raw :: rest) raws (permalink :: parameters))
    (unheaded : endpoint = .templatesCopyTo → request.method ≠ .head)
    (is_checked : Checked store principal raw rest checked)
    (confined : principal.serverScope = some serverId)
    (same : store.organizationByPermalink permalink = some checked) :
    let resolved := endpoint.resolve store storage request (permalink :: parameters)
    let shown := if request.method = .head then [] else resolved.shown
    (∀ server, resolved.server = some server → server.id = serverId) ∧
        (∀ id ∈ shown, id = serverId) ↔
      ServerUnambiguous store storage request checked.id serverId endpoint raws
        (permalink :: parameters) := by
  obtain ⟨name, below, key_server, rest_is, placed, rfl⟩ := is_checked.server serverId confined
  cases takes with
  | organization outside => exact absurd rest_is (outside name below)
  | serversStats =>
      simp only [Endpoint.resolve, same, ServerUnambiguous]
      by_cases is_head : request.method = .head
      · simp [is_head]
      · cases storage with
        | false => simp
        | true =>
            simp only [is_head, if_false, false_or, reduceCtorEq, false_implies, implies_true,
              true_and, AdminStore.serversForOrganization]
            constructor
            · intro only server listed own
              exact only server.id (List.mem_map_of_mem (by simpa using ⟨listed, own⟩))
            · intro only id listed
              obtain ⟨server, member, rfl⟩ := List.mem_map.mp listed
              obtain ⟨listed, own⟩ := List.mem_filter.mp member
              exact only server listed (by simpa using own)
  | server =>
      obtain ⟨rfl, rfl⟩ : name = _ ∧ below = _ := by simpa [eq_comm] using rest_is
      simp only [Endpoint.resolve, ServerUnambiguous, findServer, same, Option.bind_some]
      rw [← sound.server_agrees placed]
      constructor
      · exact And.left
      · intro agrees
        refine ⟨agrees, ?_⟩
        intro id listed
        split at listed
        · cases listed
        · obtain ⟨server, found, rfl⟩ := Option.map_eq_some_iff.mp (Option.mem_toList.mp listed)
          exact agrees server found
  | @templatesCopyTo _ _ rawServer named template =>
      obtain ⟨rfl, rfl⟩ : name = _ ∧ below = _ := by simpa [eq_comm] using rest_is
      simp only [Endpoint.resolve, ServerUnambiguous, findServer, same, Option.bind_some,
        if_neg (unheaded rfl)]
      have agrees : (∀ server, store.serverByPermalink checked.id named = some server →
          server.id = key_server.id) ↔
          store.serverByPermalink checked.id named = none ∨ named = name :=
        sound.server_agrees placed
      cases found : store.serverByPermalink checked.id named with
      | none => simp
      | some server =>
          rw [found] at agrees
          simp only [Option.some.injEq, forall_eq', reduceCtorEq, false_or] at agrees ⊢
          rw [← agrees]
          apply and_congr_right
          intro identified
          rw [← copyTarget_iff]
          constructor
          · intro only stored target copied
            rw [identified]
            apply only target.id
            rw [if_pos stored, Option.bind_some, copied]
            exact List.mem_singleton_self _
          · intro only id listed
            obtain ⟨target, copied, rfl⟩ :=
              Option.map_eq_some_iff.mp (Option.mem_toList.mp listed)
            split at copied
            case isFalse => cases copied
            case isTrue stored => exact (only stored target copied).trans identified

/-- A request that reaches no handler, or one that names no organization, is confined and
unambiguous. -/
theorem unresolved_confined (nothing : handle store storage request = ⟨none, none, []⟩) :
    Confined store storage request principal := by
  unfold Confined
  rw [nothing]
  cases principal with
  | adminKey scope => simp
  | user account => simp

variable (store storage) in
/-- What a handler under an organization resolves. -/
theorem handle_eq {taken : List (Segment × Text)}
    (dispatched : request.dispatch = some (endpoint, taken, parameters)) :
    (handle store storage request).organization =
        (endpoint.resolve store storage request parameters).organization ∧
      (handle store storage request).server =
        (endpoint.resolve store storage request parameters).server ∧
      (handle store storage request).shown = if request.method = .head then [] else
        (endpoint.resolve store storage request parameters).shown := by
  unfold handle
  rw [dispatched]
  dsimp only
  split <;> simp

variable (store storage request) in
/-- The first parameter is the organization's, whatever the endpoint. -/
theorem Taken.resolve_organization {segments raws : List Text}
    (takes : Taken endpoint segments raws parameters) :
    ∃ raw rest raws_rest permalink others, segments = "organizations".toList :: raw :: rest ∧
      raws = raw :: raws_rest ∧ parameters = permalink :: others ∧
      (endpoint.resolve store storage request parameters).organization =
        store.organizationByPermalink permalink := by
  cases takes <;> exact ⟨_, _, _, _, _, rfl, rfl, rfl, rfl⟩

variable (storage request) in
/-- Where there is no organization, nothing is resolved below it. -/
theorem Endpoint.resolve_missing (endpoint : Endpoint) {permalink : Text} (others : List Text)
    (missing : store.organizationByPermalink permalink = none) :
    (endpoint.resolve store storage request (permalink :: others)).server = none ∧
      (endpoint.resolve store storage request (permalink :: others)).shown = [] := by
  cases endpoint with
  | installation => exact ⟨rfl, rfl⟩
  | organization => exact ⟨rfl, rfl⟩
  | serversStats => simp [Endpoint.resolve, missing]
  | server =>
      cases others with
      | nil => exact ⟨rfl, rfl⟩
      | cons named others => simp [Endpoint.resolve, findServer, missing]
  | templatesCopyTo =>
      match others with
      | [] => exact ⟨rfl, rfl⟩
      | [_] => exact ⟨rfl, rfl⟩
      | _ :: _ :: _ => simp [Endpoint.resolve, findServer, missing]

/-- The property in terms of the organization that has been checked. -/
theorem confined_iff {checked : OrganizationRow} {raw : Text} {rest : List Text}
    (segments : adminSegments request.path = "organizations".toList :: raw :: rest)
    (is_checked : Checked store principal raw rest checked)
    (restricted : principal.isRoot = false) :
    Confined store storage request principal ↔
      (∀ organization, (handle store storage request).organization = some organization →
        organization.id = checked.id) ∧
      ∀ serverId, principal.serverScope = some serverId →
        (∀ server, (handle store storage request).server = some server → server.id = serverId) ∧
        ∀ shown ∈ (handle store storage request).shown, shown = serverId := by
  have looked_up : checkedOrganization store request.path = some checked := by
    unfold checkedOrganization
    rw [segments]
    exact (if_pos rfl).trans is_checked.found
  cases principal with
  | adminKey scope =>
      change scope.isGlobal = false at restricted
      have owner := is_checked.scope scope rfl
      simp only [Confined, restricted, ← owner, Option.some.injEq, Bool.false_eq_true, false_or]
      rfl
  | user account =>
      change account.admin = false at restricted
      simp [Confined, restricted, looked_up, Principal.serverScope]

/-- The two conditions agree where a handler under an organization is reached. -/
theorem dispatched_confined_iff {taken : List (Segment × Text)} (sound : store.Sound)
    (admitted : authMiddleware store accounts now request = .ok (principal, role))
    (restricted : principal.isRoot = false)
    (dispatched : request.dispatch = some (endpoint, taken, parameters))
    (named : endpoint ≠ .installation) :
    Confined store storage request principal ↔
      Unambiguous store storage request principal.serverScope := by
  obtain ⟨takes, unheaded⟩ := dispatch_taken dispatched named
  obtain ⟨resolved_organization, resolved_server, resolved_shown⟩ :=
    handle_eq store storage dispatched
  obtain ⟨raw, rest, raws, permalink, others, segments, raws_are, rfl, organization⟩ :=
    takes.resolve_organization store request storage
  obtain ⟨checked, is_checked⟩ := admitted_checked admitted restricted segments
  rw [confined_iff segments is_checked restricted, resolved_organization, organization,
    resolved_server, resolved_shown]
  have agrees : (∀ organization, store.organizationByPermalink permalink = some organization →
      organization.id = checked.id) ↔
      store.organizationByPermalink permalink = none ∨ permalink = raw :=
    sound.organization_agrees is_checked.found
  have first_raw : taken.head?.map Prod.snd = some raw := by
    rw [← List.head?_map, raws_are]
    rfl
  rw [segments] at takes
  constructor
  · rintro ⟨same_organization, same_server⟩ _ _ _ other_raw other_permalink routed - is_raw
      is_permalink
    rw [dispatched] at routed
    cases routed
    obtain rfl : raw = other_raw := Option.some.inj (first_raw.symm.trans is_raw)
    obtain rfl : permalink = other_permalink := Option.some.inj is_permalink
    rcases agrees.mp same_organization with missing | rfl
    · exact .inl missing
    · refine .inr ⟨rfl, ?_⟩
      intro found_organization found confined is_scoped
      rw [is_checked.found] at found
      cases found
      exact (server_confined_iff sound takes unheaded is_checked is_scoped is_checked.found).mp
        (same_server confined is_scoped)
  · intro unambiguous
    rcases unambiguous endpoint taken _ raw permalink dispatched named first_raw rfl with
      missing | ⟨rfl, below⟩
    · refine ⟨agrees.mpr (.inl missing), ?_⟩
      obtain ⟨no_server, nothing_shown⟩ := endpoint.resolve_missing request storage others missing
      rw [no_server, nothing_shown]
      simp
    · refine ⟨agrees.mpr (.inr rfl), ?_⟩
      intro serverId is_scoped
      exact (server_confined_iff sound takes unheaded is_checked is_scoped
        is_checked.found).mpr (below checked is_checked.found serverId is_scoped)

end Admission

/-! ## Both sides of the condition -/

def acme : OrganizationRow := ⟨⟨1, "acme".toList⟩, "Acme".toList, false⟩

/-- Its permalink decodes to that of the other organization. -/
def encodedAcme : OrganizationRow := ⟨⟨2, "%61cme".toList⟩, "Twin".toList, false⟩

def twinStore : AdminStore := ⟨[acme, encodedAcme], [], [], 3⟩

theorem twinStore_reachable : twinStore.Reachable := by
  apply AdminStore.Reachable.organization .ascii (some "Twin".toList) (some "%61cme".toList)
    (.organization .ascii (some "Acme".toList) (some "acme".toList) .empty rfl)
  rfl

/-- An account that is a member of the second organization only. -/
def twinOwner : User := ⟨7, "me@a.example".toList, false⟩

def twinAccounts : Accounts where
  keyScope := fun _ => none
  enabled := true
  sessionWithUser := fun token => if token = "session".toList then some (10, twinOwner) else none
  membership := fun organizationId userId =>
    if organizationId = 2 ∧ userId = 7 then some .owner else none
  userHasTwoFactor := fun _ => false
  allowOrganizationCreation := true

/-- The deletion of an organization. -/
def deletion (permalink : Text) : AdminRequest where
  method := .delete
  path := "/organizations/".toList ++ permalink
  adminKey := []
  bearer := some "session".toList
  targetServer := none
  overwrite := none

/-- A server of the first organization. -/
def acmeServer (id : Id) (permalink : Text) : Server :=
  ⟨id, 1, permalink, "token".toList, false, false, false, none, none, none⟩

def acmeStore : AdminStore :=
  ⟨[acme], [acmeServer 2 "mail".toList, acmeServer 3 "bulk".toList], [], 4⟩

theorem acmeStore_reachable : acmeStore.Reachable := by
  have created : AdminStore.Reachable ⟨[acme], [], [], 2⟩ :=
    .organization .ascii (some "Acme".toList) (some "acme".toList) .empty rfl
  have served : AdminStore.Reachable ⟨[acme], [acmeServer 2 "mail".toList], [], 3⟩ :=
    .server .ascii id acme (some "Mail".toList) (some "mail".toList) none "token".toList created rfl
  exact .server .ascii id acme (some "Bulk".toList) (some "bulk".toList) none "token".toList served
    rfl

/-- A key that is confined to the first server. -/
def mailScope : AdminKeyScope := ⟨some 1, some 2⟩

def keyAccounts : Accounts where
  keyScope := fun key => if key = "secret".toList then some mailScope else none
  enabled := false
  sessionWithUser := fun _ => none
  membership := fun _ _ => none
  userHasTwoFactor := fun _ => false
  allowOrganizationCreation := false

def mailRequest : AdminRequest where
  method := .get
  path := "/organizations/acme/servers/mail".toList
  adminKey := "secret".toList
  bearer := none
  targetServer := none
  overwrite := none

end Camelmailer.Api
