import Camelmailer.Core.Model

/-!
# Accounts

The records of people: their accounts, their roles in organizations, and the scopes of
machine keys. A record keeps the fields that a modelled function uses, under the source's
names.
-/

namespace Camelmailer

open Utf8

/-! ## Roles -/

/-- `auth::Role`, in the order of privilege. -/
inductive Role where
  | viewer
  | member
  | admin
  | owner
deriving DecidableEq

namespace Role

def rank : Role → Nat
  | viewer => 0
  | member => 1
  | admin => 2
  | owner => 3

instance : LT Role := ⟨fun left right => left.rank < right.rank⟩

instance (left right : Role) : Decidable (left < right) :=
  inferInstanceAs (Decidable (left.rank < right.rank))

def asStr : Role → Text
  | viewer => "viewer"
  | member => "member"
  | admin => "admin"
  | owner => "owner"

def parse (value : Text) : Option Role :=
  if value = "viewer" then some viewer
  else if value = "member" then some member
  else if value = "admin" then some admin
  else if value = "owner" then some owner
  else none

end Role

structure User where
  id : Id
  emailAddress : Text
  /-- A global administrator. -/
  admin : Bool
deriving DecidableEq

/-- The organization and the server that a machine key is confined to. A key with neither is
not confined. -/
structure AdminKeyScope where
  organizationId : Option Id
  serverId : Option Id
deriving DecidableEq

def AdminKeyScope.isGlobal (scope : AdminKeyScope) : Bool :=
  scope.organizationId.isNone && scope.serverId.isNone

/-- The authenticated caller of an admin request. -/
inductive Principal where
  | adminKey (scope : AdminKeyScope)
  | user (account : User)
deriving DecidableEq

def Principal.isRoot : Principal → Bool
  | .adminKey scope => scope.isGlobal
  | .user account => account.admin

/-- The server that a principal is confined to. -/
def Principal.serverScope : Principal → Option Id
  | .adminKey scope => scope.serverId
  | .user _ => none

end Camelmailer
