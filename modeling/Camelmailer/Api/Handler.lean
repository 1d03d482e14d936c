import Camelmailer.Api.Admin
import Camelmailer.Requests

/-!
# Handlers over a store

A handler asks its store one question after another and can stop with an error at any of
them. A question to a store can fail. Most handlers render such a failure as their answer,
and some go on without it.
-/

namespace Camelmailer.Api

open Utf8 Db

inductive StoreError where
  | conflict (message : Text)
  | other (message : Text)
deriving DecidableEq

def renderStoreError : StoreError → ApiError
  | .conflict message => validationError message
  | .other _ => internalError

/-- The text of an error. -/
def StoreError.display : StoreError → Text
  | conflict message => message
  | other message => "storage error: " ++ message

/-- `internal_error` with the text of an error. -/
def internalStoreError (error : StoreError) : ApiError :=
  ⟨500, "InternalServerError", error.display⟩

/-- A text that is present and not empty. -/
def present (value : Option Text) : Option Text := value.filter (fun text => text ≠ [])

def missing (name : Text) : ApiError :=
  parameterMissing ("param is missing or the value is empty: " ++ name)

variable {Command : Type → Type} {α β : Type}

/-- The answer of a store, whose failure is the answer to the request. -/
def askWith (render : StoreError → ApiError) (command : Command (Except StoreError β)) :
    Program Command ApiError β :=
  .send command (fun
    | .ok value => .done value
    | .error error => .stop (render error))

def ask (command : Command (Except StoreError β)) : Program Command ApiError β :=
  askWith renderStoreError command

/-- The failure of a store is an internal error. -/
def askInternally (command : Command (Except StoreError β)) : Program Command ApiError β :=
  askWith internalStoreError command

/-- A value that has to be there. -/
def require (value : Option β) (error : ApiError) : Program Command ApiError β :=
  match value with
  | some present => .done present
  | none => .stop error

/-- A condition that has to hold. -/
def demand (condition : Bool) (error : ApiError) : Program Command ApiError Unit :=
  if condition then .done () else .stop error

/-- The outcome of a check that asks nothing. -/
def checked (outcome : Except ApiError β) : Program Command ApiError β :=
  match outcome with
  | .ok value => .done value
  | .error error => .stop error

variable {Before : List (Answered Command) → ∀ β, Command β → Prop}
  {After : List (Answered Command) → Except ApiError α → Prop} {history : List (Answered Command)}
  {next : β → Program Command ApiError α}

/-- A command that is followed by a program. -/
theorem perform_safe {command : Command β} (before : Before history β command)
    (continues : ∀ answer,
      Program.Safe Before After (next answer) (history ++ [⟨command, answer⟩])) :
    Program.Safe Before After (Program.perform command >>= next) history :=
  ⟨before, continues⟩

variable {command : Command (Except StoreError β)}

theorem askWith_safe {render : StoreError → ApiError} (before : Before history _ command)
    (stops : ∀ error, After (history ++ [⟨command, .error error⟩]) (.error (render error)))
    (continues : ∀ value,
      Program.Safe Before After (next value) (history ++ [⟨command, .ok value⟩])) :
    Program.Safe Before After (askWith render command >>= next) history := by
  refine ⟨before, fun answer => ?_⟩
  cases answer with
  | ok value => exact continues value
  | error error => exact stops error

theorem ask_safe (before : Before history _ command)
    (stops : ∀ error, After (history ++ [⟨command, .error error⟩])
      (.error (renderStoreError error))) (continues : ∀ value,
      Program.Safe Before After (next value) (history ++ [⟨command, .ok value⟩])) :
    Program.Safe Before After (ask command >>= next) history :=
  askWith_safe before stops continues

theorem askInternally_safe (before : Before history _ command)
    (stops : ∀ error, After (history ++ [⟨command, .error error⟩])
      (.error (internalStoreError error))) (continues : ∀ value,
      Program.Safe Before After (next value) (history ++ [⟨command, .ok value⟩])) :
    Program.Safe Before After (askInternally command >>= next) history :=
  askWith_safe before stops continues

theorem require_safe {value : Option β} {error : ApiError}
    (stops : value = none → After history (.error error))
    (continues : ∀ present, value = some present →
      Program.Safe Before After (next present) history) :
    Program.Safe Before After (require value error >>= next) history := by
  cases value with
  | none => exact stops rfl
  | some present => exact continues present rfl

theorem demand_safe {condition : Bool} {error : ApiError}
    {next : Unit → Program Command ApiError α}
    (stops : condition = false → After history (.error error))
    (continues : condition = true → Program.Safe Before After (next ()) history) :
    Program.Safe Before After (demand condition error >>= next) history := by
  cases condition with
  | false => exact stops rfl
  | true => exact continues rfl

theorem checked_safe {outcome : Except ApiError β}
    (stops : ∀ error, outcome = .error error → After history (.error error))
    (continues : ∀ value, outcome = .ok value →
      Program.Safe Before After (next value) history) :
    Program.Safe Before After (checked outcome >>= next) history := by
  cases outcome with
  | error error => exact stops error rfl
  | ok value => exact continues value rfl

section Sends

variable {Kind : ∀ β, Command β → Prop}

theorem askWith_sends {render : StoreError → ApiError} {command : Command (Except StoreError β)}
    (kind : Kind _ command) : (askWith render command).Sends Kind := by
  refine ⟨kind, fun answer => ?_⟩
  cases answer <;> trivial

theorem ask_sends {command : Command (Except StoreError β)} (kind : Kind _ command) :
    (ask command).Sends Kind :=
  askWith_sends kind

theorem require_sends {value : Option β} {error : ApiError} :
    (require value error : Program Command ApiError β).Sends Kind := by
  cases value <;> trivial

theorem demand_sends {condition : Bool} {error : ApiError} :
    (demand condition error : Program Command ApiError Unit).Sends Kind := by
  cases condition <;> trivial

theorem checked_sends {outcome : Except ApiError β} :
    (checked outcome : Program Command ApiError β).Sends Kind := by
  cases outcome <;> trivial

end Sends

/-- An effect on the tables that can fail, and then has not happened. -/
def attempted {Tables : Type} (fault : Option StoreError) (effect : Except StoreError (β × Tables))
    (tables : Tables) : Except StoreError β × Tables :=
  match fault, effect with
  | some error, _ => (.error error, tables)
  | none, .error error => (.error error, tables)
  | none, .ok (value, after) => (.ok value, after)

section Attempted

variable {Tables : Type} {fault : Option StoreError} {effect : Except StoreError (β × Tables)}
  {tables after : Tables}

/-- An attempt has failed without an effect, or its effect has happened. -/
theorem attempted_cases {answer : Except StoreError β}
    (tried : attempted fault effect tables = (answer, after)) :
    (∃ error, answer = .error error ∧ after = tables) ∨
      ∃ value, answer = .ok value ∧ effect = .ok (value, after) := by
  cases fault with
  | some error =>
      obtain ⟨rfl, rfl⟩ := Prod.mk.inj tried
      exact .inl ⟨error, rfl, rfl⟩
  | none =>
      cases effect with
      | error error =>
          obtain ⟨rfl, rfl⟩ := Prod.mk.inj tried
          exact .inl ⟨error, rfl, rfl⟩
      | ok both =>
          obtain ⟨rfl, rfl⟩ := Prod.mk.inj tried
          exact .inr ⟨both.1, rfl, rfl⟩

theorem attempted_ok {value : β} (tried : attempted fault effect tables = (.ok value, after)) :
    effect = .ok (value, after) := by
  obtain ⟨error, failed, -⟩ | ⟨given, same, done⟩ := attempted_cases tried
  · cases failed
  · exact Except.ok.inj same ▸ done

/-- The same of an effect that can be told. -/
theorem attempted_ok_cases {there : Tables} {given : β} {answer : Except StoreError β}
    (tried : attempted fault (.ok (given, there)) tables = (answer, after)) :
    (∃ error, answer = .error error ∧ after = tables) ∨ answer = .ok given ∧ after = there := by
  refine (attempted_cases tried).imp_right ?_
  rintro ⟨value, rfl, done⟩
  cases done
  exact ⟨rfl, rfl⟩

end Attempted

end Camelmailer.Api
