/-
# NestAmqp.Js.Thrown — what a `throw` or a rejection carries, and how the code reads it.

A thrown value is an `Error` object, the library's own `MessageDeserializationError` (the one class
the retry policy tests for), or any other value.  The readers below are the two conversions of the
source: `errorToPlain` of the retry policy and `error2Object` of the utils service.
-/
import NestAmqp.Js.Value

namespace NestAmqp.Js

/-- The parts of an `Error` object the code reads.  `fields` are its own enumerable properties. -/
structure ErrorObject where
  name : String
  message : String
  stack : String := ""
  fields : Obj := []
  deriving Repr

/-- A thrown or rejected value. -/
inductive Thrown where
  | value (v : Value)
  | error (e : ErrorObject)
  | deserialization (e : ErrorObject)
  deriving Repr

namespace Thrown

/-- `throw new TypeError(message)`, raised by the language itself. -/
def typeError (message : String) : Thrown := .error { name := "TypeError", message }

/-- `error instanceof MessageDeserializationError`. -/
def isDeserialization : Thrown → Bool
  | .deserialization _ => true
  | _ => false

/-- `error == null`: reading a property of such a thrown value throws in turn. -/
def nullish : Thrown → Bool
  | .value v => v.nullish
  | _ => false

/-- The `TypeError` of reading a property of a missing value. -/
def unreadable (error : Thrown) (k : String) : Thrown :=
  match error with
  | .value .null => .typeError s!"Cannot read properties of null (reading '{k}')"
  | _ => .typeError s!"Cannot read properties of undefined (reading '{k}')"

/-- `error?.[k]`: a plain property read; primitives other than objects answer `undefined`. -/
def prop (t : Thrown) (k : String) : Value :=
  let ofError (e : ErrorObject) : Value :=
    (Obj.own e.fields k).getD <|
      if k = "name" then .str e.name else if k = "message" then .str e.message
      else if k = "stack" then .str e.stack else .undefined
  match t with
  | .value (.obj fields) => Obj.get fields k
  | .value _ => .undefined
  | .error e | .deserialization e => ofError e

/-- `Object.keys(error)` with their values. -/
def ownEntries : Thrown → Obj
  | .value (.obj fields) => fields
  | .value (.str s) => s.toList.zipIdx.map fun ci => (toString ci.2, .str (String.ofList [ci.1]))
  | .value (.arr items) => items.zipIdx.map fun vi => (toString vi.2, vi.1)
  | .value _ => []
  | .error e | .deserialization e => e.fields

/-- `typeof error === 'object'`, for a value that is not null. -/
def isObject : Thrown → Bool
  | .value (.obj _) | .value (.arr _) | .error _ | .deserialization _ => true
  | .value _ => false

end Thrown

/-- `v[k]`: a missing value has no properties to read; a primitive has none of its own. -/
def member (v : Value) (k : String) : Except Thrown Value :=
  match v with
  | .undefined | .null =>
      .error (.typeError s!"Cannot read properties of {v.toStr} (reading '{k}')")
  | .obj fields => .ok (Obj.get fields k)
  | _ => .ok .undefined

/-- What a value has of its own under a name: a text and a list have a length beside their items. -/
def ownProperty (v : Value) (k : String) : Option Value :=
  match v with
  | .obj fields => Obj.own fields k
  | .arr items => if k = "length" then some (.num items.length) else Obj.own (Thrown.value v).ownEntries k
  | .str s => if k = "length" then some (.num (codeUnits s).length) else Obj.own (Thrown.value v).ownEntries k
  | _ => none

/-- `v[k]` of a value that is not missing, as far as its own properties go. -/
def property (v : Value) (k : String) : Value := (ownProperty v k).getD .undefined

mutual
/-- `String(v)` succeeds: no object in reach of it has a `toString` of its own, which, as data, is not
a function. -/
def prints : Value → Bool
  | .obj fields => (Obj.own fields "toString").isNone
  | .arr items => printsAll items
  | _ => true

/-- The elements an array joins all print. -/
def printsAll : List Value → Bool
  | [] => true
  | v :: vs => prints v && printsAll vs
end

/-- `` `${v}` ``: what does not print throws. -/
def printed (v : Value) : Except Thrown String :=
  if prints v then .ok v.toStr else .error (.typeError "Cannot convert object to primitive value")

theorem printed_of_prints {v : Value} (h : prints v = true) : printed v = .ok v.toStr := if_pos h

theorem prints_of_printed {v : Value} {text : String} (h : printed v = .ok text) : prints v = true := by
  unfold printed at h
  split at h
  next hprints => exact hprints
  next => cases h

theorem not_prints_of_printed {v : Value} {e : Thrown} (h : printed v = .error e) : prints v = false := by
  unfold printed at h
  split at h
  next => cases h
  next hprints => exact Bool.eq_false_iff.mpr hprints

/-- `a === b` of values that come from two places: a list or an object is identical to itself only. -/
def strictEq : Value → Value → Bool
  | .undefined, .undefined | .null, .null => true
  | .bool a, .bool b => a == b
  | .num a, .num b => a == b
  | .real a, .real b => a == b && a != "NaN"
  | .str a, .str b => a == b
  | _, _ => false

/-- What a sequence of two computations returns, both have returned. -/
theorem bind_eq_ok {α β : Type} {x : Except Thrown α} {f : α → Except Thrown β} {b : β} :
    (x >>= f) = .ok b ↔ ∃ a, x = .ok a ∧ f a = .ok b := by
  cases x with
  | error e => exact iff_of_false nofun fun ⟨a, h, _⟩ => by cases h
  | ok a => exact ⟨fun h => ⟨a, rfl, h⟩, fun ⟨a', h, hf⟩ => by cases h; exact hf⟩

namespace Thrown

/-- `v === undefined ? missing : String(v)`. -/
def textOr (missing : String) : Value → Except Thrown String
  | .undefined => .ok missing
  | v => Js.printed v

/-- `String(error)` of an error object: `Error.prototype.toString` on its name and its message. -/
def errorText (e : ErrorObject) : Except Thrown String :=
  if (Obj.own e.fields "toString").isSome then .error (.typeError "Cannot convert object to primitive value")
  else do
    let name ← textOr "Error" ((Thrown.error e).prop "name")
    let message ← textOr "" ((Thrown.error e).prop "message")
    return if name = "" then message else if message = "" then name else name ++ ": " ++ message

/-- `String(error)`. -/
def printed : Thrown → Except Thrown String
  | .value v => Js.printed v
  | .error e | .deserialization e => errorText e

/-- `` `${error?.message}` `` prints: what a log line about the error asks of it. -/
def reads (error : Thrown) : Bool := prints (error.prop "message")

/-- A log line with `` `${error?.message}` ``. -/
def messageLine (error : Thrown) : Except Thrown Unit := (Js.printed (error.prop "message")).map fun _ => ()

/-- A log line with `` `'${error?.name}' ${error?.message}` ``. -/
def nameLine (error : Thrown) : Except Thrown Unit := do
  let _ ← Js.printed (error.prop "name")
  error.messageLine

theorem messageLine_of_reads {error : Thrown} (h : error.reads = true) : error.messageLine = .ok () := by
  unfold reads at h
  simp [messageLine, Js.printed, h, Except.map]

theorem messageLine_of_not_reads {error : Thrown} (h : error.reads = false) :
    error.messageLine = .error (.typeError "Cannot convert object to primitive value") := by
  unfold reads at h
  simp [messageLine, Js.printed, h, Except.map]

end Thrown

/-- What `errorToPlain` makes of an error: the message is whatever the error has there. -/
structure PlainError where
  name : String
  message : Value

/-- The reported error as the object it is. -/
def PlainError.toValue (plain : PlainError) : Value :=
  .obj [("name", .str plain.name), ("message", plain.message)]

/-- `(error && typeof error === 'object' && error.name) ? String(error.name) : 'Error'`. -/
def plainName (error : Thrown) : Except Thrown String :=
  if error.isObject && (error.prop "name").truthy then printed (error.prop "name") else .ok "Error"

/-- What is falsy prints. -/
theorem prints_of_not_truthy {v : Value} (h : v.truthy = false) : prints v = true := by
  cases v with
  | arr | obj => cases h
  | _ => rfl

/-- A name is converted where it prints: one that is not converted is not there, or is falsy. -/
theorem plainName_isOk_iff (error : Thrown) :
    (∃ name, plainName error = .ok name) ↔ prints (error.prop "name") = true := by
  unfold plainName printed
  split
  · cases prints (error.prop "name") <;> simp
  next hplain =>
    refine iff_of_true ⟨_, rfl⟩ ?_
    rw [Bool.and_eq_true, not_and, Bool.not_eq_true] at hplain
    cases hobject : error.isObject with
    | true => exact prints_of_not_truthy (hplain hobject)
    | false =>
        match error, hobject with
        | .value .undefined, _ | .value .null, _ | .value (.bool _), _ | .value (.num _), _
        | .value (.real _), _ | .value (.str _), _ => rfl

/-- What the conversion of a name throws is a `TypeError`. -/
theorem plainName_error {error e : Thrown} (h : plainName error = .error e) :
    e = .typeError "Cannot convert object to primitive value" := by
  unfold plainName printed at h
  split at h
  · split at h
    · cases h
    · exact (Except.error.inj h).symm
  · cases h

theorem Thrown.nameLine_isOk_iff (error : Thrown) :
    error.nameLine = .ok () ↔ prints (error.prop "name") = true ∧ error.reads = true := by
  unfold Thrown.nameLine Thrown.messageLine Thrown.reads Js.printed
  cases prints (error.prop "name") <;> cases prints (error.prop "message") <;>
    simp [bind, Except.bind, Except.map]

/-- `error?.message ?? String(error)`. -/
def plainMessage (error : Thrown) : Except Thrown Value :=
  if (error.prop "message").nullish then error.printed.map Value.str else .ok (error.prop "message")

/-- `errorToPlain` of the retry policy. -/
def errorToPlain (error : Thrown) : Except Thrown PlainError := do
  let name ← plainName error
  let message ← plainMessage error
  return { name, message }

/-! ### What converting throws -/

/-- Whatever the computation throws, a log line can print. -/
def FailsReadably {α : Type} (x : Except Thrown α) : Prop := ∀ e, x = .error e → e.reads = true

section FailsReadably

variable {α β : Type} {x : Except Thrown α}

theorem failsReadably_ok (a : α) : FailsReadably (.ok a : Except Thrown α) := nofun

/-- The same failure, of a computation of another type. -/
theorem FailsReadably.rethrown (hx : FailsReadably x) {e : Thrown} (he : x = .error e) :
    FailsReadably (.error e : Except Thrown β) := by
  rintro e' ⟨⟩
  exact hx e he

theorem failsReadably_typeError (message : String) :
    FailsReadably (.error (.typeError message) : Except Thrown α) := by
  rintro e ⟨⟩
  rfl

theorem FailsReadably.bind (hx : FailsReadably x) {f : α → Except Thrown β} (hf : ∀ a, FailsReadably (f a)) :
    FailsReadably (x >>= f) := by
  cases x with
  | ok a => exact hf a
  | error e =>
      rintro e' ⟨⟩
      exact hx e rfl

theorem FailsReadably.map (hx : FailsReadably x) (f : α → β) : FailsReadably (x.map f) := by
  cases x with
  | ok a => exact failsReadably_ok (f a)
  | error e =>
      rintro e' ⟨⟩
      exact hx e rfl

end FailsReadably

theorem failsReadably_printed (v : Value) : FailsReadably (printed v) := by
  unfold printed
  split
  · exact failsReadably_ok _
  · exact failsReadably_typeError _

theorem failsReadably_textOr (missing : String) (v : Value) : FailsReadably (Thrown.textOr missing v) := by
  unfold Thrown.textOr
  split
  · exact failsReadably_ok _
  · exact failsReadably_printed v

theorem Thrown.failsReadably_printed (error : Thrown) : FailsReadably error.printed := by
  have hobject (e : ErrorObject) : FailsReadably (errorText e) := by
    unfold errorText
    split
    · exact failsReadably_typeError _
    · exact (failsReadably_textOr _ _).bind fun name =>
        (failsReadably_textOr _ _).bind fun message => failsReadably_ok _
  cases error with
  | value v => exact Js.failsReadably_printed v
  | error e => exact hobject e
  | deserialization e => exact hobject e

theorem Thrown.failsReadably_messageLine (error : Thrown) : FailsReadably error.messageLine :=
  (Js.failsReadably_printed _).map _

/-- Describing an error throws nothing but what prints. -/
theorem failsReadably_errorToPlain (error : Thrown) : FailsReadably (errorToPlain error) := by
  unfold errorToPlain plainName plainMessage
  refine FailsReadably.bind ?_ fun name => FailsReadably.bind ?_ fun message => failsReadably_ok _
  · split
    · exact failsReadably_printed _
    · exact failsReadably_ok _
  · split
    · exact error.failsReadably_printed.map _
    · exact failsReadably_ok _

/-- `UtilsService.error2Object`.  Reading `.message` of `null` or `undefined` throws; writing to `__proto__`
makes no property. -/
def error2Object (error : Thrown) (devEnv : Bool) : Except Thrown Value :=
  if error.nullish then .error (error.unreadable "message")
  else
    let retErr : Obj := [("message", error.prop "message"), ("name", error.prop "name")]
    let retErr := if devEnv then Obj.set retErr "stack" (error.prop "stack") else retErr
    .ok (.obj (Obj.assign retErr (Obj.delete error.ownEntries "__proto__")))

/-- The conversion fails on `null` and `undefined` only. -/
theorem error2Object_isOk_iff (error : Thrown) (devEnv : Bool) :
    (∃ v, error2Object error devEnv = .ok v) ↔ error.nullish = false := by
  unfold error2Object
  cases error.nullish <;> simp

theorem error2Object_of_nullish {error : Thrown} (h : error.nullish = true) (devEnv : Bool) :
    ∃ e, error2Object error devEnv = .error e ∧ e.isDeserialization = false ∧ e.reads = true := by
  refine ⟨error.unreadable "message", by simp [error2Object, h], ?_⟩
  unfold Thrown.unreadable
  split <;> exact ⟨rfl, rfl⟩

end NestAmqp.Js
