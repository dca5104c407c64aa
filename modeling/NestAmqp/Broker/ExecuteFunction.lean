/-
# NestAmqp.Broker.ExecuteFunction — the two copies of `executeFunction`.

`BrokerService` and `MetadataScannerService` each run a handler and wrap what comes of it.  The bodies
are the same; what differs is the `appConfig` they read on the failure branch.  The scanner has it
injected.  The broker service declares the field and never assigns it.
-/
import NestAmqp.Broker.Scanner
import NestAmqp.Js.Json

namespace NestAmqp.Broker

open NestAmqp.Js

/-! ## The application options -/

/-- `AppConfig.environment`. -/
inductive Environment where
  | development | production | test
  deriving DecidableEq, Repr

/-- `AppConfig`. -/
structure AppConfig where
  environment : Environment
  deriving DecidableEq, Repr

/-- `appConfig.environment !== 'production'`; a missing configuration has no property to read. -/
def devEnvOf : Option AppConfig → Except Thrown Bool
  | none => .error (.typeError "Cannot read properties of undefined (reading 'environment')")
  | some app => .ok (app.environment != .production)

/-- `{ success: true, payload }`. -/
def successResult (payload : Value) : Value := .obj [("success", .bool true), ("payload", payload)]

/-! ## The two services -/

/-- The body both copies of `executeFunction` have.  The argument `this.appConfig.environment !==
'production'` is evaluated inside the `catch` block, so what it throws leaves the function. -/
def executeWith (appConfig : Option AppConfig) (outcome : Outcome) : Except Thrown Value :=
  match outcome.awaited with
  | .ok v => .ok (successResult v)
  | .error e =>
      match devEnvOf appConfig with
      | .ok devEnv => (error2Object e devEnv).map failureResult
      | .error e' => .error e'

namespace MetadataScannerService

/-- `appConfig` is a constructor parameter, injected under `RLB_AMQP_APP_OPTIONS`. -/
def appConfig (options : AppConfig) : Option AppConfig := some options

/-- `MetadataScannerService.executeFunction`. -/
def executeFunction (options : AppConfig) (outcome : Outcome) : Except Thrown Value :=
  executeWith (appConfig options) outcome

/-- It is the dispatch the scanner's consumers run, under the flag the options stand for. -/
theorem executeFunction_eq (options : AppConfig) (outcome : Outcome) :
    executeFunction options outcome =
      Broker.executeFunction (options.environment != .production) outcome := by
  unfold executeFunction executeWith Broker.executeFunction
  cases outcome.awaited <;> rfl

end MetadataScannerService

namespace BrokerService

/-- `private readonly appConfig: AppConfig` stands among the fields, but the constructor takes no
application options, whatever the module provides. -/
def appConfig (_options : AppConfig) : Option AppConfig := none

/-- `BrokerService.executeFunction`. -/
def executeFunction (options : AppConfig) (outcome : Outcome) : Except Thrown Value :=
  executeWith (appConfig options) outcome

end BrokerService

/-! ## What the caller makes of a result -/

/-- The log line of `requestData`'s `catch` reads and prints `err.message`, and throws in turn where it
cannot. -/
def loggedError (error : Thrown) : Thrown :=
  if error.nullish then error.unreadable "message"
  else match printed (error.prop "message") with
    | .ok _ => error
    | .error e => e

/-- `if (!result.success) throw result.error; return result.payload;` -/
def readResult (result : Value) : Except Thrown Value :=
  match member result "success" with
  | .error e => .error e
  | .ok success =>
      if success.truthy then member result "payload"
      else match member result "error" with
        | .error e => .error e
        | .ok error => .error (.value error)

/-- What `requestData` comes to when it is answered: the reply carries the response as JSON. -/
def requestOutcome (response : Value) : Except Thrown Value :=
  (readResult (jsonCopy response)).mapError loggedError

/-! ## What a handler can do -/

/-- The thrown value is an `Error` object. -/
def IsError : Thrown → Prop
  | .error _ | .deserialization _ => True
  | .value _ => False

theorem IsError.not_nullish {e : Thrown} (h : IsError e) : e.nullish = false := by
  cases e with
  | value v => exact h.elim
  | error e => rfl
  | deserialization e => rfl

/-- A handler returns a value, a promise, or an observable that emits at least once, or it fails with
an `Error` by throwing, rejecting or erroring. -/
def IsHandler : Outcome → Prop
  | .returned _ => True
  | .threw e => IsError e
  | .promised (.ok _) => True
  | .promised (.error e) => IsError e
  | .observed values none => values ≠ []
  | .observed _ (some e) => IsError e
  | .notCallable => False

/-- Whatever a handler fails with is an `Error`. -/
theorem IsHandler.isError {outcome : Outcome} (h : IsHandler outcome) {e : Thrown}
    (he : outcome.awaited = .error e) : IsError e := by
  match outcome, h, he with
  | .returned _, _, he => cases he
  | .threw _, h, he =>
      obtain rfl := Except.error.inj he
      exact h
  | .promised (.ok _), _, he => cases he
  | .promised (.error _), h, he =>
      obtain rfl := Except.error.inj he
      exact h
  | .observed values none, h, he =>
      obtain ⟨v, hv⟩ := List.getLast?_isSome.mpr h |> Option.isSome_iff_exists.mp
      simp [Outcome.awaited, lastValueFrom, hv] at he
  | .observed _ (some _), h, he =>
      obtain rfl := Except.error.inj he
      exact h

/-! ## Where the copies agree -/

/-- The envelope a handler's outcome stands for. -/
def Envelope (options : AppConfig) (outcome : Outcome) (result : Value) : Prop :=
  (∃ v, outcome.awaited = .ok v ∧ result = successResult v) ∨
    ∃ e error, outcome.awaited = .error e ∧
      error2Object e (options.environment != .production) = .ok error ∧ result = failureResult error

/-- Both services answer with the one envelope of the outcome. -/
def DispatchAgrees (options : AppConfig) (outcome : Outcome) : Prop :=
  ∃ result, Envelope options outcome result ∧
    BrokerService.executeFunction options outcome = .ok result ∧
    MetadataScannerService.executeFunction options outcome = .ok result

section Agree

variable (options : AppConfig) {outcome : Outcome}

/-- The scanner's copy always answers with the envelope. -/
theorem scanner_envelope (h : IsHandler outcome) : ∃ result, Envelope options outcome result ∧
    MetadataScannerService.executeFunction options outcome = .ok result := by
  rw [MetadataScannerService.executeFunction_eq]
  unfold Broker.executeFunction
  cases hrun : outcome.awaited with
  | ok v => exact ⟨successResult v, .inl ⟨v, hrun, rfl⟩, rfl⟩
  | error e =>
      obtain ⟨error, herror⟩ := (error2Object_isOk_iff e (options.environment != .production)).mpr
        (h.isError hrun).not_nullish
      refine ⟨failureResult error, .inr ⟨e, error, hrun, herror, rfl⟩, ?_⟩
      simp only [herror]
      rfl

/-- The broker service's copy rejects over every failure, with a `TypeError` in place of the
handler's own error. -/
theorem broker_rejects {e : Thrown} (h : outcome.awaited = .error e) :
    BrokerService.executeFunction options outcome =
      .error (.typeError "Cannot read properties of undefined (reading 'environment')") := by
  unfold BrokerService.executeFunction executeWith
  rw [h]
  rfl

/-- **The two dispatch paths agree exactly on the handlers that succeed.** -/
theorem dispatchAgrees_iff (h : IsHandler outcome) :
    DispatchAgrees options outcome ↔ ∃ v, outcome.awaited = .ok v := by
  constructor
  · rintro ⟨result, -, hbroker, -⟩
    cases hrun : outcome.awaited with
    | ok v => exact ⟨v, rfl⟩
    | error e =>
        rw [broker_rejects options hrun] at hbroker
        cases hbroker
  · rintro ⟨v, hv⟩
    obtain ⟨result, henvelope, hscanner⟩ := scanner_envelope options h
    refine ⟨result, henvelope, ?_, hscanner⟩
    rw [← hscanner]
    unfold BrokerService.executeFunction MetadataScannerService.executeFunction executeWith
    rw [hv]

end Agree

/-- A handler that emits twice. -/
theorem dispatchAgrees_iff_observed :
    DispatchAgrees { environment := .test } (.observed [.num 1, .num 2] none) ↔
      ∃ v, (Outcome.observed [.num 1, .num 2] none).awaited = .ok v :=
  dispatchAgrees_iff { environment := .test } (by simp [IsHandler])

/-- A handler that throws an `Error`: the scanner answers, the broker service rejects. -/
theorem not_dispatchAgrees_threw : ¬ ∀ (options : AppConfig) (outcome : Outcome),
    IsHandler outcome → DispatchAgrees options outcome := by
  intro h
  obtain ⟨result, -, hbroker, -⟩ := h { environment := .production }
    (.threw (.error { name := "Error", message := "boom" })) trivial
  cases hbroker

end NestAmqp.Broker
