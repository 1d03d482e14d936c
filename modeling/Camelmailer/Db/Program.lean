import Mathlib.Logic.Basic

/-!
# Programs that send commands

A program sends commands one at a time and goes on with their answers, until it is done or
stops with an error. Nothing says here who answers: a program can be interpreted in one go,
or its commands can be answered one by one between those of other programs.

`Safe` is the rule for the second case. It speaks of the commands answered so far, demands
something of each command before it is sent and of the result in the end, and is kept
whatever is answered.
-/

namespace Camelmailer.Db

/-- A program over a kind of commands, which says what each of them is answered with. -/
inductive Program (Command : Type → Type) (ε α : Type) : Type 1 where
  | done (result : α)
  | stop (error : ε)
  | send {β : Type} (command : Command β) (next : β → Program Command ε α)

/-- A command and its answer. -/
structure Answered (Command : Type → Type) : Type 1 where
  {β : Type}
  command : Command β
  answer : β

variable {Command : Type → Type} {ε α γ : Type}

namespace Program

def bind : Program Command ε α → (α → Program Command ε γ) → Program Command ε γ
  | done result, continuation => continuation result
  | stop error, _ => stop error
  | send command next, continuation => send command (fun answer => (next answer).bind continuation)

instance : Monad (Program Command ε) where
  pure := done
  bind := bind

/-- Programs that follow one another can be grouped in any way. -/
theorem bind_bind {δ : Type} (program : Program Command ε α) (first : α → Program Command ε γ)
    (second : γ → Program Command ε δ) :
    program >>= first >>= second = program >>= fun result => first result >>= second := by
  induction program with
  | done result => rfl
  | stop error => rfl
  | send command next ih =>
      exact congrArg (Program.send command) (funext ih)

/-- A program of one command. -/
def perform (command : Command α) : Program Command ε α := send command done

/-! ## Interpretation in one go -/

section Interpret

variable {m : Type → Type} [Monad m]

/-- Answer every command in a monad. -/
def interpret (handle : ∀ β, Command β → m β) (refuse : ∀ β, ε → m β) :
    Program Command ε α → m α
  | done result => pure result
  | stop error => refuse α error
  | send command next => handle _ command >>= fun answer => (next answer).interpret handle refuse

variable {handle : ∀ β, Command β → m β} {refuse : ∀ β, ε → m β}

/-- Programs that follow one another are interpreted one after the other. -/
theorem interpret_bind [LawfulMonad m]
    (refuses : ∀ (β δ : Type) error (next : β → m δ), refuse β error >>= next = refuse δ error)
    (program : Program Command ε α) (continuation : α → Program Command ε γ) :
    (program >>= continuation).interpret handle refuse =
      program.interpret handle refuse >>= fun result =>
        (continuation result).interpret handle refuse := by
  induction program with
  | done result =>
      change _ = pure result >>= _
      rw [pure_bind]
      rfl
  | stop error => exact (refuses α γ error _).symm
  | send command next ih =>
      change handle _ command >>= _ = (handle _ command >>= _) >>= _
      rw [bind_assoc]
      congr 1
      funext answer
      exact ih answer

theorem interpret_perform [LawfulMonad m] (command : Command α) :
    (perform command : Program Command ε α).interpret handle refuse = handle α command :=
  bind_pure (handle α command)

end Interpret

/-! ## Programs whose commands are answered one by one -/

/-- Whatever is answered from here on, each command meets a condition when it is sent, and
the result meets one in the end. Both conditions see the commands answered before. -/
def Safe (Before : List (Answered Command) → ∀ β, Command β → Prop)
    (After : List (Answered Command) → Except ε α → Prop) :
    Program Command ε α → List (Answered Command) → Prop
  | done result, history => After history (.ok result)
  | stop error, history => After history (.error error)
  | send command next, history => Before history _ command ∧
      ∀ answer, Safe Before After (next answer) (history ++ [⟨command, answer⟩])

variable {Before : List (Answered Command) → ∀ β, Command β → Prop}
  {Middle After : List (Answered Command) → Except ε α → Prop}
  {Finally : List (Answered Command) → Except ε γ → Prop}
  {history : List (Answered Command)}

variable {program : Program Command ε α}

theorem Safe.weaken (safe : Safe Before Middle program history)
    (weaker : ∀ history result, Middle history result → After history result) :
    Safe Before After program history := by
  induction program generalizing history with
  | done result => exact weaker history _ safe
  | stop error => exact weaker history _ safe
  | send command next ih =>
      exact ⟨safe.1, fun answer => ih answer (safe.2 answer)⟩

theorem Safe.and (first : Safe Before Middle program history)
    (second : Safe Before After program history) :
    Safe Before (fun history result => Middle history result ∧ After history result) program
      history := by
  induction program generalizing history with
  | done result => exact ⟨first, second⟩
  | stop error => exact ⟨first, second⟩
  | send command next ih =>
      exact ⟨first.1, fun answer => ih answer (first.2 answer) (second.2 answer)⟩

variable {continuation : α → Program Command ε γ}

/-- The rule for programs that follow one another. -/
theorem Safe.bind (safe : Safe Before Middle program history)
    (continues : ∀ history result, Middle history (.ok result) →
      Safe Before Finally (continuation result) history)
    (stops : ∀ history error, Middle history (.error error) → Finally history (.error error)) :
    Safe Before Finally (program >>= continuation) history := by
  induction program generalizing history with
  | done result => exact continues history result safe
  | stop error => exact stops history error safe
  | send command next ih =>
      exact ⟨safe.1, fun answer => ih answer (safe.2 answer)⟩

/-- The result is not an error, and something holds of the commands answered. -/
def Returns (P : List (Answered Command) → Prop) (history : List (Answered Command))
    (result : Except ε α) : Prop :=
  result.isOk = true ∧ P history

/-- The rule for a program that never stops with an error. -/
theorem Safe.bind_returns {P : List (Answered Command) → Prop}
    (safe : Safe Before (Returns P) program history) (continues : ∀ history result, P history →
      Safe Before Finally (continuation result) history) :
    Safe Before Finally (program >>= continuation) history := by
  apply safe.bind
  · intro history result returned
    exact continues history result returned.2
  · intro history error returned
    cases returned.1

/-! ## Programs that send commands of some kind only -/

/-- Whatever is answered, every command is of a kind. -/
def Sends (Kind : ∀ β, Command β → Prop) : Program Command ε α → Prop
  | done _ => True
  | stop _ => True
  | send command next => Kind _ command ∧ ∀ answer, (next answer).Sends Kind

section Sends

variable {Kind : ∀ β, Command β → Prop} {program : Program Command ε α}
  {continuation : α → Program Command ε γ}

theorem Sends.perform {command : Command α} (kind : Kind α command) :
    (Program.perform command : Program Command ε α).Sends Kind :=
  ⟨kind, fun _ => trivial⟩

theorem Sends.bind (sends : program.Sends Kind)
    (continues : ∀ result, (continuation result).Sends Kind) :
    (program >>= continuation).Sends Kind := by
  induction program with
  | done result => exact continues result
  | stop error => trivial
  | send command next ih =>
      exact ⟨sends.1, fun answer => ih answer (sends.2 answer)⟩

theorem Sends.mono {Wider : ∀ β, Command β → Prop} (sends : program.Sends Kind)
    (wider : ∀ β command, Kind β command → Wider β command) : program.Sends Wider := by
  induction program with
  | done result => trivial
  | stop error => trivial
  | send command next ih =>
      exact ⟨wider _ _ sends.1, fun answer => ih answer (sends.2 answer)⟩

/-- The rule for a program of which only the kind of its commands matters, with another one behind
it: all that has been answered before is still there. -/
theorem Sends.safe_bind (sends : program.Sends Kind)
    (before : ∀ later β command, history <+: later → Kind β command → Before later β command)
    (stops : ∀ later error, history <+: later → Finally later (.error error))
    (continues : ∀ later result, history <+: later →
      Safe Before Finally (continuation result) later) :
    Safe Before Finally (program >>= continuation) history := by
  induction program generalizing history with
  | done result => exact continues history result (List.prefix_refl history)
  | stop error => exact stops history error (List.prefix_refl history)
  | send command next ih =>
      refine ⟨before history _ command (List.prefix_refl history) sends.1, fun answer => ?_⟩
      have extended : history <+: history ++ [⟨command, answer⟩] := List.prefix_append _ _
      exact ih answer (sends.2 answer)
        (fun later β command longer => before later β command (extended.trans longer))
        (fun later error longer => stops later error (extended.trans longer))
        (fun later result longer => continues later result (extended.trans longer))

/-- The rule for such a program on its own. -/
theorem Sends.safe (sends : program.Sends Kind)
    (before : ∀ later β command, Kind β command → Before later β command)
    (after : ∀ later result, After later result) : Safe Before After program history := by
  induction program generalizing history with
  | done result => exact after history _
  | stop error => exact after history _
  | send command next ih =>
      exact ⟨before history _ command sends.1, fun answer => ih answer (sends.2 answer)⟩

end Sends

/-- A program of which only what has been answered before it matters. -/
theorem Safe.of_prefix (program : Program Command ε α)
    (before : ∀ later β command, history <+: later → Before later β command)
    (after : ∀ later result, history <+: later → After later result) :
    Safe Before After program history := by
  induction program generalizing history with
  | done result => exact after history _ (List.prefix_refl history)
  | stop error => exact after history _ (List.prefix_refl history)
  | send command next ih =>
      refine ⟨before history _ command (List.prefix_refl history), fun answer => ?_⟩
      have extended : history <+: history ++ [⟨command, answer⟩] := List.prefix_append _ _
      exact ih answer
        (fun later β command longer => before later β command (extended.trans longer))
        (fun later result longer => after later result (extended.trans longer))

/-- A program of which nothing is demanded. -/
theorem Safe.of_forall (program : Program Command ε α)
    (before : ∀ later β command, Before later β command)
    (after : ∀ later result, After later result) : Safe Before After program history :=
  Safe.of_prefix program (fun later β command _ => before later β command)
    (fun later result _ => after later result)

end Program

end Camelmailer.Db
