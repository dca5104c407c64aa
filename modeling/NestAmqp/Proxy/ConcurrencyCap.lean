/-
# NestAmqp.Proxy.ConcurrencyCap — the in-flight cap of the gateway.

The middleware `HttpHandlerService.onModuleInit` mounts before the router when a cap is configured: it
refuses a request while the counter stands at the cap, and otherwise counts it and gives its slot back
on the first of the two events that end a response.  The state keeps, beside the counter, the listeners
of each response and a log of what happened, from which the outstanding requests are read.
-/
import NestAmqp.Lib.Machine
import NestAmqp.Proxy.HttpHandler

namespace NestAmqp.Proxy.ConcurrencyCap

open NestAmqp.Js
open NestAmqp.Lib.Machine

/-! ## The middleware -/

/-- The events that end a response: it was sent, or its socket closed. -/
inductive ResponseEvent
  | finish
  | close
  deriving DecidableEq, Repr

/-- The two `res.once` listeners of an admitted request, and the flag their `release` shares. -/
structure Listeners where
  finish : Bool := true
  close : Bool := true
  released : Bool := false
  deriving DecidableEq, Repr

/-- What happened so far, requests numbered as they arrive. -/
inductive Happened
  | admitted (request : Nat)
  | refused (request : Nat) (retryAfter : String) (response : Except Thrown (Nat × String × Value))
  | emitted (request : Nat) (event : ResponseEvent)
  | gaveBack (request : Nat)

/-- The counter, the listeners of each response (none on one the middleware did not admit), the log. -/
structure HttpHandlerService where
  inFlight : Int := 0
  responses : List (Option Listeners) := []
  log : List Happened := []

/-- A request arrives, or a response emits an event. -/
inductive Input
  | arrive
  | emit (request : Nat) (event : ResponseEvent)

/-- `{ name: 'ServiceUnavailable', message: 'Server busy' }`. -/
def serverBusy : Thrown :=
  .value (.obj [("name", .str "ServiceUnavailable"), ("message", .str "Server busy")])

/-- The middleware on the next request.  Without a positive cap it is not mounted. -/
def arrive (devEnv : Bool) (maxConcurrentRequests : Option Nat) (service : HttpHandlerService) :
    HttpHandlerService :=
  let request := service.responses.length
  let maxConcurrent := maxConcurrentRequests.getD 0
  if 0 < maxConcurrent then
    if service.inFlight ≥ maxConcurrent then
      { service with
        responses := service.responses ++ [none]
        log := service.log ++
          [.refused request "1" (HttpHandler.errorEnvelope devEnv serverBusy (some 503))] }
    else
      { inFlight := service.inFlight + 1
        responses := service.responses ++ [some {}]
        log := service.log ++ [.admitted request] }
  else { service with responses := service.responses ++ [none] }

/-- `res.once`: a listener is removed as its event is emitted. -/
def Listeners.take (listeners : Listeners) : ResponseEvent → Bool × Listeners
  | .finish => (listeners.finish, { listeners with finish := false })
  | .close => (listeners.close, { listeners with close := false })

/-- `release`. -/
def release (service : HttpHandlerService) (request : Nat) (listeners : Listeners) :
    HttpHandlerService :=
  if listeners.released then
    { service with responses := service.responses.set request (some listeners) }
  else
    { inFlight := service.inFlight - 1
      responses := service.responses.set request (some { listeners with released := true })
      log := service.log ++ [.gaveBack request] }

/-- The response of a request emits an event. -/
def emit (service : HttpHandlerService) (request : Nat) (event : ResponseEvent) : HttpHandlerService :=
  match service.responses[request]? with
  | some (some listeners) =>
      let service := { service with log := service.log ++ [.emitted request event] }
      let (listening, listeners) := listeners.take event
      if listening then release service request listeners else service
  | _ => service

def step (devEnv : Bool) (maxConcurrentRequests : Option Nat) (service : HttpHandlerService) :
    Input → HttpHandlerService
  | .arrive => arrive devEnv maxConcurrentRequests service
  | .emit request event => emit service request event

/-! ## What the log says -/

/-- The request was admitted. -/
def Happened.admits : Happened → Option Nat
  | .admitted request => some request
  | _ => none

/-- The entry is an event of the response of the request. -/
def Happened.endsResponse (request : Nat) : Happened → Bool
  | .emitted r _ => r == request
  | _ => false

/-- The entry is the request giving its slot back. -/
def Happened.givesBack (request : Nat) : Happened → Bool
  | .gaveBack r => r == request
  | _ => false

/-- One of the two events of the response has fired. -/
def fired (log : List Happened) (request : Nat) : Bool := log.any (Happened.endsResponse request)

/-- The admitted requests for which neither event has fired. -/
def outstanding (log : List Happened) : List Nat :=
  (log.filterMap Happened.admits).filter fun request => !fired log request

@[simp] theorem fired_concat (log : List Happened) (h : Happened) (request : Nat) :
    fired (log ++ [h]) request = (fired log request || h.endsResponse request) := by
  simp [fired]

theorem outstanding_concat_other (log : List Happened) {h : Happened} (hadmits : h.admits = none)
    (hends : ∀ request, h.endsResponse request = false) : outstanding (log ++ [h]) = outstanding log := by
  unfold outstanding
  simp [List.filterMap_append, hadmits, hends]

theorem outstanding_admitted (log : List Happened) {request : Nat} (hnew : fired log request = false) :
    outstanding (log ++ [.admitted request]) = outstanding log ++ [request] := by
  unfold outstanding
  simp [List.filterMap_append, Happened.admits, Happened.endsResponse, hnew]

theorem outstanding_emitted (log : List Happened) (request : Nat) (event : ResponseEvent) :
    outstanding (log ++ [.emitted request event]) = (outstanding log).filter (· != request) := by
  unfold outstanding
  rw [List.filterMap_append, List.filter_filter]
  simp only [List.filterMap_cons, List.filterMap_nil, Happened.admits, List.append_nil]
  refine List.filter_congr fun r _ => ?_
  have hcomm : (request == r) = (r == request) := Bool.beq_comm
  rw [fired_concat, Happened.endsResponse, Bool.not_or, hcomm, Bool.and_comm]
  rfl

/-! ## The invariant -/

/-- What the middleware keeps: the listeners of a response agree with the log, and so does the counter. -/
structure Counted (maxConcurrent : Nat) (service : HttpHandlerService) : Prop where
  listens : ∀ request listeners, service.responses[request]? = some (some listeners) →
    listeners.released = fired service.log request ∧
      (listeners.released = false → listeners.finish = true ∧ listeners.close = true)
  admitted : ∀ request, request ∈ service.log.filterMap Happened.admits ↔
    ∃ listeners, service.responses[request]? = some (some listeners)
  nodup : (service.log.filterMap Happened.admits).Nodup
  known : ∀ request, fired service.log request = true → request < service.responses.length
  gaveBack : ∀ request, service.log.countP (Happened.givesBack request) =
    if fired service.log request then 1 else 0
  flight : service.inFlight = (outstanding service.log).length
  bound : service.inFlight ≤ maxConcurrent

theorem Counted.init (maxConcurrent : Nat) : Counted maxConcurrent {} where
  listens := nofun
  admitted := by simp
  nodup := .nil
  known := nofun
  gaveBack _ := rfl
  flight := rfl
  bound := by simp

namespace Counted

variable {maxConcurrent : Nat} {service : HttpHandlerService}

theorem nodup_outstanding (h : Counted maxConcurrent service) : (outstanding service.log).Nodup :=
  h.nodup.filter _

theorem mem_outstanding (h : Counted maxConcurrent service) {request : Nat} {listeners : Listeners}
    (hl : service.responses[request]? = some (some listeners)) (hnot : listeners.released = false) :
    request ∈ outstanding service.log := by
  unfold outstanding
  rw [List.mem_filter, ← (h.listens request listeners hl).1, hnot]
  exact ⟨(h.admitted request).mpr ⟨listeners, hl⟩, rfl⟩

/-- The next request has no events yet. -/
theorem fired_next (h : Counted maxConcurrent service) :
    fired service.log service.responses.length = false := by
  by_contra hfired
  exact Nat.lt_irrefl _ (h.known _ (Bool.not_eq_false _ ▸ hfired))

end Counted

/-! ## One step -/

variable {maxConcurrent : Nat} {service : HttpHandlerService}

/-- A request that finds the cap taken. -/
def refuse (devEnv : Bool) (service : HttpHandlerService) : HttpHandlerService :=
  { service with
    responses := service.responses ++ [none]
    log := service.log ++ [.refused service.responses.length "1"
      (HttpHandler.errorEnvelope devEnv serverBusy (some 503))] }

/-- A request that is admitted. -/
def takeIn (service : HttpHandlerService) : HttpHandlerService :=
  { inFlight := service.inFlight + 1
    responses := service.responses ++ [some {}]
    log := service.log ++ [.admitted service.responses.length] }

/-- The first event of an admitted request. -/
def firstEvent (service : HttpHandlerService) (request : Nat) (event : ResponseEvent)
    (listeners : Listeners) : HttpHandlerService :=
  { inFlight := service.inFlight - 1
    responses := service.responses.set request (some { listeners with released := true })
    log := service.log ++ [.emitted request event] ++ [.gaveBack request] }

/-- Any later event: at most a listener is gone. -/
def laterEvent (service : HttpHandlerService) (request : Nat) (event : ResponseEvent)
    (listeners : Listeners) : HttpHandlerService :=
  { service with
    responses := service.responses.set request (some listeners)
    log := service.log ++ [.emitted request event] }

theorem arrive_cases (devEnv : Bool) (hmax : 0 < maxConcurrent) (service : HttpHandlerService) :
    (service.inFlight ≥ maxConcurrent ∧
      arrive devEnv (some maxConcurrent) service = refuse devEnv service) ∨
    (service.inFlight < maxConcurrent ∧ arrive devEnv (some maxConcurrent) service = takeIn service) := by
  unfold arrive
  simp only [Option.getD_some, if_pos hmax]
  by_cases hfull : service.inFlight ≥ maxConcurrent
  · exact .inl ⟨hfull, if_pos hfull⟩
  · exact .inr ⟨not_le.mp hfull, if_neg hfull⟩

theorem released_take (listeners : Listeners) (event : ResponseEvent) :
    (listeners.take event).2.released = listeners.released := by
  cases event <;> rfl

theorem emit_cases (h : Counted maxConcurrent service) (request : Nat) (event : ResponseEvent) :
    ((∀ listeners, service.responses[request]? ≠ some (some listeners)) ∧
      emit service request event = service) ∨
    (∃ listeners taken, service.responses[request]? = some (some listeners) ∧
      listeners.released = false ∧ emit service request event = firstEvent service request event taken) ∨
    (∃ listeners taken, service.responses[request]? = some (some listeners) ∧
      listeners.released = true ∧ taken.released = true ∧
      emit service request event = laterEvent service request event taken) := by
  unfold emit
  split
  next listeners hl =>
    right
    have hreleased := released_take listeners event
    cases hr : listeners.released with
    | false =>
        -- both listeners are still there
        obtain ⟨hfinish, hclose⟩ := (h.listens request listeners hl).2 hr
        have hlistening : (listeners.take event).1 = true := by
          cases event
          · exact hfinish
          · exact hclose
        refine .inl ⟨listeners, (listeners.take event).2, hl, hr, ?_⟩
        dsimp only
        rw [if_pos hlistening, release, hreleased, hr]
        rfl
    | true =>
        right
        rw [hr] at hreleased
        cases hlistening : (listeners.take event).1 with
        | true =>
            refine ⟨listeners, (listeners.take event).2, hl, hr, hreleased, ?_⟩
            dsimp only
            rw [if_pos hlistening, release, if_pos hreleased]
            rfl
        | false =>
            refine ⟨listeners, listeners, hl, hr, hr, ?_⟩
            have hsame : service.responses.set request (some listeners) = service.responses := by
              obtain ⟨hlt, hget⟩ := List.getElem?_eq_some_iff.mp hl
              rw [← hget, List.set_getElem_self]
            dsimp only
            rw [if_neg (by simp [hlistening]), laterEvent, hsame]
  next hother => exact .inl ⟨hother, rfl⟩

/-- A refusal changes neither the counter nor what is read from the log. -/
theorem Counted.refuse (h : Counted maxConcurrent service) (devEnv : Bool) :
    Counted maxConcurrent (refuse devEnv service) := by
  have hkept : ∀ request, fired (ConcurrencyCap.refuse devEnv service).log request =
      fired service.log request := by
    intro request
    rw [ConcurrencyCap.refuse, fired_concat]
    exact Bool.or_false _
  have hadmits : (ConcurrencyCap.refuse devEnv service).log.filterMap Happened.admits =
      service.log.filterMap Happened.admits := by
    simp [ConcurrencyCap.refuse, List.filterMap_append, Happened.admits]
  -- a refused request has no listeners, so no entry with listeners is new
  have hat : ∀ (request : Nat) (listeners : Listeners),
      (ConcurrencyCap.refuse devEnv service).responses[request]? = some (some listeners) ↔
        service.responses[request]? = some (some listeners) := by
    intro request listeners
    simp only [ConcurrencyCap.refuse, List.getElem?_append]
    split
    next => exact Iff.rfl
    next hlt =>
      rw [List.getElem?_eq_none (Nat.le_of_not_lt hlt)]
      cases request - service.responses.length <;> simp
  constructor
  case listens =>
    intro request listeners hl
    rw [hkept]
    exact h.listens request listeners ((hat request listeners).mp hl)
  case admitted =>
    intro request
    rw [hadmits, h.admitted]
    exact exists_congr fun listeners => (hat request listeners).symm
  case nodup =>
    exact hadmits ▸ h.nodup
  case known =>
    intro request hfired
    rw [hkept] at hfired
    have hlt := h.known request hfired
    simp only [ConcurrencyCap.refuse, List.length_append]
    omega
  case gaveBack =>
    intro request
    rw [hkept, ← h.gaveBack request]
    simp [ConcurrencyCap.refuse, Happened.givesBack]
  case flight =>
    rw [ConcurrencyCap.refuse, outstanding_concat_other _ rfl fun _ => rfl]
    exact h.flight
  case bound =>
    exact h.bound

/-- An admitted request is one more outstanding. -/
theorem Counted.takeIn (h : Counted maxConcurrent service) (hroom : service.inFlight < maxConcurrent) :
    Counted maxConcurrent (takeIn service) := by
  have hkept : ∀ request, fired (ConcurrencyCap.takeIn service).log request =
      fired service.log request := by
    intro request
    rw [ConcurrencyCap.takeIn, fired_concat]
    exact Bool.or_false _
  have hadmits : (ConcurrencyCap.takeIn service).log.filterMap Happened.admits =
      service.log.filterMap Happened.admits ++ [service.responses.length] := by
    simp [ConcurrencyCap.takeIn, List.filterMap_append, Happened.admits]
  have hold : ∀ request ∈ service.log.filterMap Happened.admits, request < service.responses.length := by
    intro request hmem
    obtain ⟨listeners, hl⟩ := (h.admitted request).mp hmem
    exact (List.getElem?_eq_some_iff.mp hl).1
  have hat : ∀ (request : Nat) (listeners : Listeners),
      (ConcurrencyCap.takeIn service).responses[request]? = some (some listeners) →
        service.responses[request]? = some (some listeners) ∨
          (request = service.responses.length ∧ listeners = {}) := by
    intro request listeners hl
    simp only [ConcurrencyCap.takeIn, List.getElem?_append] at hl
    split at hl
    next => exact .inl hl
    next hlt =>
      obtain ⟨hzero, hget⟩ := List.getElem?_eq_some_iff.mp hl
      have hrequest : request - service.responses.length = 0 := Nat.lt_one_iff.mp hzero
      simp only [hrequest, List.getElem_cons_zero, Option.some.injEq] at hget
      exact .inr ⟨by omega, hget.symm⟩
  constructor
  case listens =>
    -- the new response listens to both events, and neither has come
    intro request listeners hl
    rw [hkept]
    rcases hat request listeners hl with hbefore | ⟨rfl, rfl⟩
    · exact h.listens request listeners hbefore
    · exact ⟨h.fired_next.symm, fun _ => ⟨rfl, rfl⟩⟩
  case admitted =>
    intro request
    rw [hadmits, List.mem_append, List.mem_singleton, h.admitted]
    constructor
    · rintro (⟨listeners, hl⟩ | rfl)
      · refine ⟨listeners, ?_⟩
        rw [ConcurrencyCap.takeIn, List.getElem?_append_left (List.getElem?_eq_some_iff.mp hl).1, hl]
      · exact ⟨{}, by simp [ConcurrencyCap.takeIn]⟩
    · rintro ⟨listeners, hl⟩
      rcases hat request listeners hl with hbefore | ⟨hnext, -⟩
      · exact .inl ⟨listeners, hbefore⟩
      · exact .inr hnext
  case nodup =>
    -- its number is larger than those before
    rw [hadmits, List.nodup_append]
    refine ⟨h.nodup, by simp, fun a ha b hb => ?_⟩
    have hlt := hold a ha
    rw [List.mem_singleton] at hb
    omega
  case known =>
    intro request hfired
    rw [hkept] at hfired
    have hlt := h.known request hfired
    simp only [ConcurrencyCap.takeIn, List.length_append]
    omega
  case gaveBack =>
    intro request
    rw [hkept, ← h.gaveBack request]
    simp [ConcurrencyCap.takeIn, Happened.givesBack]
  case flight =>
    -- it is one more in flight
    rw [ConcurrencyCap.takeIn, outstanding_admitted _ h.fired_next, List.length_append, h.flight]
    simp
  case bound =>
    simp only [ConcurrencyCap.takeIn]
    omega

/-- A response that was replaced by the same response with other listeners. -/
theorem getElem?_set_listeners {responses : List (Option Listeners)} {request : Nat}
    {listeners taken : Listeners} (hl : responses[request]? = some (some listeners)) (r : Nat) :
    (responses.set request (some taken))[r]? = if request = r then some (some taken) else responses[r]? := by
  rw [List.getElem?_set]
  split
  next heq =>
    subst heq
    rw [if_pos (List.getElem?_eq_some_iff.mp hl).1]
  next => rfl

/-- The admitted requests after the event of one of them. -/
theorem Counted.admitted_set (h : Counted maxConcurrent service) {request : Nat}
    {listeners : Listeners} (hl : service.responses[request]? = some (some listeners))
    (taken : Listeners) (r : Nat) :
    r ∈ service.log.filterMap Happened.admits ↔
      ∃ l, (service.responses.set request (some taken))[r]? = some (some l) := by
  rw [h.admitted r, getElem?_set_listeners hl r]
  split
  next heq =>
    subst heq
    exact ⟨fun _ => ⟨taken, rfl⟩, fun _ => ⟨listeners, hl⟩⟩
  next => exact Iff.rfl

/-- The first event of an admitted request gives its slot back. -/
theorem Counted.firstEvent (h : Counted maxConcurrent service) {request : Nat} {listeners : Listeners}
    (hl : service.responses[request]? = some (some listeners)) (hnot : listeners.released = false)
    (event : ResponseEvent) (taken : Listeners) :
    Counted maxConcurrent (firstEvent service request event taken) := by
  have hfired : ∀ r, fired (ConcurrencyCap.firstEvent service request event taken).log r =
      (fired service.log r || request == r) := by
    intro r
    rw [ConcurrencyCap.firstEvent, fired_concat, fired_concat]
    exact Bool.or_false _
  have hbefore : fired service.log request = false := by
    rw [← (h.listens request listeners hl).1, hnot]
  have hadmits : (ConcurrencyCap.firstEvent service request event taken).log.filterMap Happened.admits =
      service.log.filterMap Happened.admits := by
    simp [ConcurrencyCap.firstEvent, List.filterMap_append, Happened.admits]
  have hout : outstanding (ConcurrencyCap.firstEvent service request event taken).log =
      (outstanding service.log).filter (· != request) := by
    rw [ConcurrencyCap.firstEvent, outstanding_concat_other _ rfl fun _ => rfl, outstanding_emitted]
  -- the request was outstanding: the list loses exactly this one
  have hlength : ((outstanding service.log).filter (· != request)).length + 1 =
      (outstanding service.log).length := by
    rw [← h.nodup_outstanding.erase_eq_filter]
    exact List.length_erase_add_one (h.mem_outstanding hl hnot)
  constructor
  case listens =>
    intro r l hr
    simp only [ConcurrencyCap.firstEvent, getElem?_set_listeners hl r] at hr
    rw [hfired]
    split at hr
    next heq =>
      cases hr
      simp [heq]
    next hne =>
      have hother := h.listens r l hr
      rw [hother.1, beq_eq_false_iff_ne.mpr hne, Bool.or_false]
      exact ⟨rfl, fun hr => hother.2 (hother.1.trans hr)⟩
  case admitted =>
    intro r
    rw [hadmits]
    exact h.admitted_set hl _ r
  case nodup =>
    exact hadmits ▸ h.nodup
  case known =>
    intro r hr
    rw [hfired, Bool.or_eq_true, beq_iff_eq] at hr
    simp only [ConcurrencyCap.firstEvent, List.length_set]
    rcases hr with hold | rfl
    · exact h.known r hold
    · exact (List.getElem?_eq_some_iff.mp hl).1
  case gaveBack =>
    intro r
    have hcount : (ConcurrencyCap.firstEvent service request event taken).log.countP
        (Happened.givesBack r) = service.log.countP (Happened.givesBack r) +
          if request = r then 1 else 0 := by
      simp [ConcurrencyCap.firstEvent, List.countP_append, Happened.givesBack, List.countP_cons]
    rw [hcount, hfired, h.gaveBack r]
    by_cases heq : request = r
    · subst heq
      simp [hbefore]
    · simp [heq]
  case flight =>
    rw [hout]
    have hflight := h.flight
    simp only [ConcurrencyCap.firstEvent]
    omega
  case bound =>
    have hbound := h.bound
    simp only [ConcurrencyCap.firstEvent]
    omega

/-- A later event of an admitted request gives nothing back. -/
theorem Counted.laterEvent (h : Counted maxConcurrent service) {request : Nat} {listeners : Listeners}
    (hl : service.responses[request]? = some (some listeners)) (hreleased : listeners.released = true)
    (event : ResponseEvent) {taken : Listeners} (htaken : taken.released = true) :
    Counted maxConcurrent (laterEvent service request event taken) := by
  -- the slot was given back before, so nothing that is counted moves
  have hbefore : fired service.log request = true := by
    rw [← (h.listens request listeners hl).1, hreleased]
  have hfired : ∀ r, fired (ConcurrencyCap.laterEvent service request event taken).log r =
      fired service.log r := by
    intro r
    rw [ConcurrencyCap.laterEvent, fired_concat, Happened.endsResponse]
    by_cases heq : request = r
    · subst heq
      simp [hbefore]
    · rw [beq_eq_false_iff_ne.mpr heq, Bool.or_false]
  have hadmits : (ConcurrencyCap.laterEvent service request event taken).log.filterMap Happened.admits =
      service.log.filterMap Happened.admits := by
    simp [ConcurrencyCap.laterEvent, List.filterMap_append, Happened.admits]
  have hout : outstanding (ConcurrencyCap.laterEvent service request event taken).log =
      outstanding service.log := by
    unfold outstanding
    rw [hadmits]
    exact List.filter_congr fun r _ => by rw [hfired]
  constructor
  case listens =>
    intro r l hr
    simp only [ConcurrencyCap.laterEvent, getElem?_set_listeners hl r] at hr
    rw [hfired]
    split at hr
    next heq =>
      cases hr
      subst heq
      rw [htaken, hbefore]
      exact ⟨rfl, nofun⟩
    next => exact h.listens r l hr
  case admitted =>
    intro r
    rw [hadmits]
    exact h.admitted_set hl _ r
  case nodup =>
    exact hadmits ▸ h.nodup
  case known =>
    intro r hr
    rw [hfired] at hr
    simp only [ConcurrencyCap.laterEvent, List.length_set]
    exact h.known r hr
  case gaveBack =>
    intro r
    rw [hfired, ← h.gaveBack r]
    simp [ConcurrencyCap.laterEvent, Happened.givesBack]
  case flight =>
    rw [hout]
    exact h.flight
  case bound =>
    exact h.bound

/-- **Step.**  Every arrival and every event keeps the count. -/
theorem Counted.step (h : Counted maxConcurrent service) (hmax : 0 < maxConcurrent) (devEnv : Bool)
    (input : Input) : Counted maxConcurrent (step devEnv (some maxConcurrent) service input) := by
  cases input with
  | arrive =>
      change Counted maxConcurrent (arrive devEnv (some maxConcurrent) service)
      rcases arrive_cases devEnv hmax service with ⟨-, heq⟩ | ⟨hroom, heq⟩
      · exact heq ▸ h.refuse devEnv
      · exact heq ▸ h.takeIn hroom
  | emit request event =>
      change Counted maxConcurrent (emit service request event)
      rcases emit_cases h request event with ⟨-, heq⟩ | ⟨_, taken, hl, hnot, heq⟩ |
        ⟨_, taken, hl, hreleased, htaken, heq⟩
      · exact heq.symm ▸ h
      · exact heq ▸ h.firstEvent hl hnot event taken
      · exact heq ▸ h.laterEvent hl hreleased event htaken

/-! ## Every run -/

/-- The request of the entry was turned away, with the answer it got. -/
def Happened.refusal : Happened → Option (String × Except Thrown (Nat × String × Value))
  | .refused _ retryAfter response => some (retryAfter, response)
  | _ => none

/-- The envelope a client is turned away with. -/
def busyEnvelope : Nat × String × Value :=
  (503, "ServiceUnavailable", .obj [("statusCode", .num 503), ("code", .str "ServiceUnavailable"),
    ("message", .str "Server busy")])

theorem errorEnvelope_serverBusy (devEnv : Bool) :
    HttpHandler.errorEnvelope devEnv serverBusy (some 503) = .ok busyEnvelope := by
  cases devEnv <;> rfl

/-- The decisions in the log: a request is turned away when exactly the cap is outstanding, with a 503
that says when to come back, and admitted when less is. -/
structure Decided (maxConcurrent : Nat) (log : List Happened) : Prop where
  refused : ∀ before entry answer, before ++ [entry] <+: log → entry.refusal = some answer →
    (outstanding before).length = maxConcurrent ∧ answer = ("1", .ok busyEnvelope)
  admitted : ∀ before request, before ++ [.admitted request] <+: log →
    (outstanding before).length < maxConcurrent

theorem Decided.concat {log : List Happened} {entry : Happened} (h : Decided maxConcurrent log)
    (hrefused : ∀ answer, entry.refusal = some answer →
      (outstanding log).length = maxConcurrent ∧ answer = ("1", .ok busyEnvelope))
    (hadmitted : ∀ request, entry = .admitted request → (outstanding log).length < maxConcurrent) :
    Decided maxConcurrent (log ++ [entry]) := by
  constructor
  case refused =>
    intro before e answer hprefix he
    rcases List.prefix_concat_iff.mp hprefix with hlast | hbefore
    · obtain ⟨rfl, hentry⟩ := List.append_inj' hlast rfl
      cases hentry
      exact hrefused answer he
    · exact h.refused before e answer hbefore he
  case admitted =>
    intro before request hprefix
    rcases List.prefix_concat_iff.mp hprefix with hlast | hbefore
    · obtain ⟨rfl, hentry⟩ := List.append_inj' hlast rfl
      cases hentry
      exact hadmitted request rfl
    · exact h.admitted before request hbefore

theorem Decided.step (h : Decided maxConcurrent service.log) (hcounted : Counted maxConcurrent service)
    (hmax : 0 < maxConcurrent) (devEnv : Bool) (input : Input) :
    Decided maxConcurrent (step devEnv (some maxConcurrent) service input).log := by
  have hflight := hcounted.flight
  have hbound := hcounted.bound
  cases input with
  | arrive =>
      change Decided maxConcurrent (arrive devEnv (some maxConcurrent) service).log
      rcases arrive_cases devEnv hmax service with ⟨hfull, heq⟩ | ⟨hroom, heq⟩
      · rw [heq, refuse, errorEnvelope_serverBusy]
        refine h.concat (fun answer hanswer => ⟨by omega, ?_⟩) nofun
        exact (Option.some.inj hanswer).symm
      · rw [heq, takeIn]
        exact h.concat nofun fun _ _ => by omega
  | emit request event =>
      change Decided maxConcurrent (emit service request event).log
      rcases emit_cases hcounted request event with ⟨-, heq⟩ | ⟨_, _, -, -, heq⟩ | ⟨_, _, -, -, -, heq⟩
      · exact heq.symm ▸ h
      · rw [heq, firstEvent]
        have hemitted : Decided maxConcurrent (service.log ++ [.emitted request event]) :=
          h.concat nofun nofun
        exact hemitted.concat nofun nofun
      · rw [heq, laterEvent]
        exact h.concat nofun nofun

/-- What holds after any run. -/
theorem counted_run (hmax : 0 < maxConcurrent) (devEnv : Bool) (inputs : List Input) :
    Counted maxConcurrent (run (step devEnv (some maxConcurrent)) {} inputs) ∧
      Decided maxConcurrent (run (step devEnv (some maxConcurrent)) {} inputs).log := by
  refine run_invariant (I := fun s => Counted maxConcurrent s ∧ Decided maxConcurrent s.log)
    (fun s i h => ⟨h.1.step hmax devEnv i, h.2.step h.1 hmax devEnv i⟩) ⟨Counted.init _, ?_⟩ inputs
  constructor
  · intro before entry _ hprefix
    simpa using List.prefix_nil.mp hprefix
  · intro before request hprefix
    simpa using List.prefix_nil.mp hprefix

/-! ## The log and the inputs -/

/-- A request arrives. -/
def Input.isArrival : Input → Bool
  | .arrive => true
  | .emit _ _ => false

/-- How many requests have arrived. -/
def arrivals (inputs : List Input) : Nat := inputs.countP Input.isArrival

/-- The service behind the inputs. -/
def served (devEnv : Bool) (maxConcurrent : Nat) (inputs : List Input) : HttpHandlerService :=
  run (step devEnv (some maxConcurrent)) {} inputs

/-- The request was admitted. -/
def Admitted (log : List Happened) (request : Nat) : Prop := request ∈ log.filterMap Happened.admits

/-- The request was turned away. -/
def Happened.turnsAway : Happened → Option Nat
  | .refused request _ _ => some request
  | _ => none

def TurnedAway (log : List Happened) (request : Nat) : Prop := request ∈ log.filterMap Happened.turnsAway

/-- The log has what came in: every request that arrived was admitted or turned away, not both, and the events
of an admitted request are those its response has emitted since. -/
structure Logged (devEnv : Bool) (maxConcurrent : Nat) (inputs : List Input) : Prop where
  decided : ∀ request, request < arrivals inputs ↔
    Admitted (served devEnv maxConcurrent inputs).log request ∨
      TurnedAway (served devEnv maxConcurrent inputs).log request
  apart : ∀ request, Admitted (served devEnv maxConcurrent inputs).log request →
    ¬ TurnedAway (served devEnv maxConcurrent inputs).log request
  fired : ∀ request, ConcurrencyCap.fired (served devEnv maxConcurrent inputs).log request = true ↔
    ∃ (i : Nat) (event : ResponseEvent), inputs[i]? = some (.emit request event) ∧
      Admitted (served devEnv maxConcurrent (inputs.take i)).log request

/-- What the middleware keeps of the inputs: one entry a request, empty for those it has turned away. -/
structure Follows (devEnv : Bool) (maxConcurrent : Nat) (inputs : List Input) : Prop where
  length : (served devEnv maxConcurrent inputs).responses.length = arrivals inputs
  turnedAway : ∀ request, TurnedAway (served devEnv maxConcurrent inputs).log request ↔
    (served devEnv maxConcurrent inputs).responses[request]? = some none
  fired : ∀ request, ConcurrencyCap.fired (served devEnv maxConcurrent inputs).log request = true ↔
    ∃ (i : Nat) (event : ResponseEvent), inputs[i]? = some (.emit request event) ∧
      Admitted (served devEnv maxConcurrent (inputs.take i)).log request

theorem turnedAway_concat (log : List Happened) (entry : Happened) (request : Nat) :
    TurnedAway (log ++ [entry]) request ↔ TurnedAway log request ∨ entry.turnsAway = some request := by
  unfold TurnedAway
  rw [List.filterMap_append, List.mem_append]
  refine or_congr_right ?_
  cases hentry : entry.turnsAway with
  | none => simp [hentry]
  | some r =>
      rw [List.filterMap_cons_some hentry, List.filterMap_nil, List.mem_singleton, Option.some.injEq]
      exact eq_comm

theorem turnedAway_other (log : List Happened) {entry : Happened} (h : entry.turnsAway = none) (request : Nat) :
    TurnedAway (log ++ [entry]) request ↔ TurnedAway log request := by
  rw [turnedAway_concat, h]
  exact or_iff_left nofun

section Follows

variable {devEnv : Bool} {inputs : List Input}

theorem served_concat (devEnv : Bool) (maxConcurrent : Nat) (inputs : List Input) (input : Input) :
    served devEnv maxConcurrent (inputs ++ [input]) =
      step devEnv (some maxConcurrent) (served devEnv maxConcurrent inputs) input :=
  run_append _ _ inputs [input]

/-- An input more has its events, and one more at its end. -/
theorem exists_emit_concat (inputs : List Input) (input : Input) (request : Nat) :
    (∃ (i : Nat) (event : ResponseEvent), (inputs ++ [input])[i]? = some (.emit request event) ∧
        Admitted (served devEnv maxConcurrent ((inputs ++ [input]).take i)).log request) ↔
      (∃ (i : Nat) (event : ResponseEvent), inputs[i]? = some (.emit request event) ∧
        Admitted (served devEnv maxConcurrent (inputs.take i)).log request) ∨
      ∃ event, input = .emit request event ∧ Admitted (served devEnv maxConcurrent inputs).log request := by
  constructor
  · rintro ⟨i, event, hi, hadmitted⟩
    rcases Nat.lt_or_ge i inputs.length with hlt | hge
    · rw [List.getElem?_append_left hlt] at hi
      rw [List.take_append_of_le_length hlt.le] at hadmitted
      exact .inl ⟨i, event, hi, hadmitted⟩
    · rw [List.getElem?_append_right hge] at hi
      have hlast : i - inputs.length = 0 := by
        obtain ⟨hlt, -⟩ := List.getElem?_eq_some_iff.mp hi
        rw [List.length_singleton] at hlt
        omega
      rw [hlast] at hi
      have heq : i = inputs.length := by omega
      rw [heq, List.take_left' rfl] at hadmitted
      exact .inr ⟨event, Option.some.inj hi, hadmitted⟩
  · rintro (⟨i, event, hi, hadmitted⟩ | ⟨event, rfl, hadmitted⟩)
    · have hlt := (List.getElem?_eq_some_iff.mp hi).1
      refine ⟨i, event, ?_, ?_⟩
      · rw [List.getElem?_append_left hlt]
        exact hi
      · rw [List.take_append_of_le_length hlt.le]
        exact hadmitted
    · refine ⟨inputs.length, event, ?_, ?_⟩
      · rw [List.getElem?_append_right le_rfl, Nat.sub_self]
        rfl
      · rw [List.take_left' rfl]
        exact hadmitted

theorem Follows.of_arrive (h : Follows devEnv maxConcurrent inputs) (hmax : 0 < maxConcurrent) :
    Follows devEnv maxConcurrent (inputs ++ [.arrive]) := by
  have harrivals : arrivals (inputs ++ [.arrive]) = arrivals inputs + 1 := by
    simp [arrivals, Input.isArrival]
  have hfired (request : Nat) :
      (∃ (i : Nat) (event : ResponseEvent), (inputs ++ [Input.arrive])[i]? = some (.emit request event) ∧
        Admitted (served devEnv maxConcurrent ((inputs ++ [Input.arrive]).take i)).log request) ↔
      ConcurrencyCap.fired (served devEnv maxConcurrent inputs).log request = true := by
    rw [exists_emit_concat, h.fired]
    exact or_iff_left (by rintro ⟨event, heq, -⟩; cases heq)
  have hnone (request : Nat) (added : Option Listeners) :
      ((served devEnv maxConcurrent inputs).responses ++ [added])[request]? = some none ↔
        (served devEnv maxConcurrent inputs).responses[request]? = some none ∨
          (request = (served devEnv maxConcurrent inputs).responses.length ∧ added = none) := by
    rw [List.getElem?_append]
    split
    next hlt => exact (or_iff_left fun heq => absurd heq.1 hlt.ne).symm
    next hge =>
      rw [List.getElem?_eq_none (Nat.le_of_not_lt hge), or_iff_right nofun, List.getElem?_singleton]
      split
      next hzero =>
        rw [Option.some.injEq]
        exact (and_iff_right (by omega)).symm
      next hpos => exact iff_of_false nofun fun heq => hpos (by omega)
  -- the cap was outstanding, or the request is taken in
  rcases arrive_cases devEnv hmax (served devEnv maxConcurrent inputs) with ⟨-, heq⟩ | ⟨-, heq⟩
  · have hserved : served devEnv maxConcurrent (inputs ++ [.arrive]) =
        refuse devEnv (served devEnv maxConcurrent inputs) :=
      (served_concat devEnv maxConcurrent inputs .arrive).trans heq
    constructor
    case length => rw [hserved, harrivals, refuse, List.length_append, h.length, List.length_singleton]
    case turnedAway =>
      intro request
      rw [hserved, refuse, turnedAway_concat, hnone, h.turnedAway, and_iff_left rfl]
      exact or_congr_right (Option.some_inj.trans eq_comm)
    case fired =>
      intro request
      rw [hfired, hserved, refuse, fired_concat]
      exact iff_of_eq (congrArg (· = true) (Bool.or_false _))
  · have hserved : served devEnv maxConcurrent (inputs ++ [.arrive]) =
        takeIn (served devEnv maxConcurrent inputs) :=
      (served_concat devEnv maxConcurrent inputs .arrive).trans heq
    constructor
    case length => rw [hserved, harrivals, takeIn, List.length_append, h.length, List.length_singleton]
    case turnedAway =>
      intro request
      rw [hserved, takeIn, turnedAway_other _ rfl, hnone, h.turnedAway]
      exact (or_iff_left (by rintro ⟨-, hsome⟩; cases hsome)).symm
    case fired =>
      intro request
      rw [hfired, hserved, takeIn, fired_concat]
      exact iff_of_eq (congrArg (· = true) (Bool.or_false _))

/-- A response that is replaced is one of an admitted request before and after. -/
theorem getElem?_set_none {responses : List (Option Listeners)} {request : Nat} {listeners : Listeners}
    (hl : responses[request]? = some (some listeners)) (taken : Listeners) (r : Nat) :
    (responses.set request (some taken))[r]? = some none ↔ responses[r]? = some none := by
  rw [getElem?_set_listeners hl r]
  split
  next heq =>
    rw [← heq, hl]
    exact iff_of_false nofun nofun
  next => exact Iff.rfl

theorem Follows.of_emit (h : Follows devEnv maxConcurrent inputs)
    (hcounted : Counted maxConcurrent (served devEnv maxConcurrent inputs)) (request : Nat)
    (event : ResponseEvent) : Follows devEnv maxConcurrent (inputs ++ [.emit request event]) := by
  have harrivals : arrivals (inputs ++ [.emit request event]) = arrivals inputs := by
    simp [arrivals, Input.isArrival]
  have hserved := served_concat devEnv maxConcurrent inputs (.emit request event)
  have hadmitted (r : Nat) : Admitted (served devEnv maxConcurrent inputs).log r ↔
      ∃ listeners, (served devEnv maxConcurrent inputs).responses[r]? = some (some listeners) :=
    hcounted.admitted r
  -- an event of an admitted request is logged
  have hof {listeners taken : Listeners} {log : List Happened}
      (hl : (served devEnv maxConcurrent inputs).responses[request]? = some (some listeners))
      (hresponses : (served devEnv maxConcurrent (inputs ++ [.emit request event])).responses =
        (served devEnv maxConcurrent inputs).responses.set request (some taken))
      (hlog : (served devEnv maxConcurrent (inputs ++ [.emit request event])).log =
        (served devEnv maxConcurrent inputs).log ++ [.emitted request event] ++ log)
      (hother : log = [] ∨ log = [.gaveBack request]) :
      Follows devEnv maxConcurrent (inputs ++ [.emit request event]) := by
    constructor
    case length => rw [hresponses, List.length_set, harrivals, h.length]
    case turnedAway =>
      intro r
      rw [hresponses, getElem?_set_none hl, ← h.turnedAway, hlog]
      rcases hother with rfl | rfl
      · rw [List.append_nil, turnedAway_other _ rfl]
      · rw [turnedAway_other _ rfl, turnedAway_other _ rfl]
    case fired =>
      intro r
      have hfired : ConcurrencyCap.fired (served devEnv maxConcurrent (inputs ++ [.emit request event])).log r =
          (ConcurrencyCap.fired (served devEnv maxConcurrent inputs).log r || request == r) := by
        rw [hlog]
        rcases hother with rfl | rfl
        · rw [List.append_nil, fired_concat]
          rfl
        · rw [fired_concat, fired_concat]
          exact Bool.or_false _
      rw [hfired, exists_emit_concat, Bool.or_eq_true, h.fired, beq_iff_eq]
      refine or_congr_right ⟨?_, ?_⟩
      · rintro rfl
        exact ⟨event, rfl, (hadmitted request).mpr ⟨listeners, hl⟩⟩
      · rintro ⟨event', heq, -⟩
        exact (Input.emit.inj heq).1
  rcases emit_cases hcounted request event with ⟨hother, heq⟩ | ⟨listeners, taken, hl, -, heq⟩ |
    ⟨listeners, taken, hl, -, -, heq⟩
  · -- nobody listens on a response that was not admitted
    have hsame := hserved.trans heq
    have hnot : ¬ Admitted (served devEnv maxConcurrent inputs).log request := by
      rw [hadmitted]
      exact fun ⟨listeners, hl⟩ => hother listeners hl
    refine ⟨?_, fun r => ?_, fun r => ?_⟩
    · rw [hsame, harrivals, h.length]
    · rw [hsame, h.turnedAway]
    · rw [hsame, h.fired, exists_emit_concat]
      refine (or_iff_left ?_).symm
      rintro ⟨event', heq', hadmitted'⟩
      obtain rfl := (Input.emit.inj heq').1
      exact hnot hadmitted'
  · exact hof hl (congrArg (·.responses) (hserved.trans heq)) (congrArg (·.log) (hserved.trans heq)) (.inr rfl)
  · refine @hof _ _ [] hl (congrArg (·.responses) (hserved.trans heq)) ?_ (.inl rfl)
    rw [List.append_nil]
    exact congrArg (·.log) (hserved.trans heq)

theorem follows_run (hmax : 0 < maxConcurrent) (devEnv : Bool) (inputs : List Input) :
    Follows devEnv maxConcurrent inputs := by
  induction inputs using List.reverseRecOn with
  | nil =>
      refine ⟨rfl, fun request => ?_, fun request => ?_⟩
      · exact iff_of_false List.not_mem_nil nofun
      · exact iff_of_false nofun fun ⟨i, event, hi, _⟩ => nomatch hi
  | append_singleton inputs input ih =>
      cases input with
      | arrive => exact ih.of_arrive hmax
      | emit request event => exact ih.of_emit (counted_run hmax devEnv inputs).1 request event

theorem logged_run (hmax : 0 < maxConcurrent) (devEnv : Bool) (inputs : List Input) :
    Logged devEnv maxConcurrent inputs := by
  have hfollows := follows_run hmax devEnv inputs
  have hadmitted := (counted_run hmax devEnv inputs).1.admitted
  constructor
  case decided =>
    intro request
    rw [← hfollows.length, hfollows.turnedAway]
    constructor
    · intro hlt
      cases hentry : (served devEnv maxConcurrent inputs).responses[request] with
      | none => exact .inr (List.getElem?_eq_some_iff.mpr ⟨hlt, hentry⟩)
      | some listeners =>
          exact .inl ((hadmitted request).mpr ⟨listeners, List.getElem?_eq_some_iff.mpr ⟨hlt, hentry⟩⟩)
    · rintro (hin | hentry)
      · obtain ⟨listeners, hentry⟩ := (hadmitted request).mp hin
        exact (List.getElem?_eq_some_iff.mp hentry).1
      · exact (List.getElem?_eq_some_iff.mp hentry).1
  case apart =>
    intro request hin haway
    obtain ⟨listeners, hentry⟩ := (hadmitted request).mp hin
    exact nomatch hentry.symm.trans ((hfollows.turnedAway request).mp haway)
  case fired => exact hfollows.fired

end Follows

/-- **The concurrency cap counts exactly.**  After any run of arrivals and response events, the counter
is the number of admitted requests without an event, between zero and the cap; each request that had an
event gave its slot back once, and no other did; a request was turned away only when the cap was outstanding;
and the log this is read from has every request that arrived and every event of an admitted one. -/
theorem inFlight_exact {maxConcurrent : Nat} (hmax : 0 < maxConcurrent) (devEnv : Bool)
    (inputs : List Input) :
    (run (step devEnv (some maxConcurrent)) {} inputs).inFlight =
        (outstanding (run (step devEnv (some maxConcurrent)) {} inputs).log).length ∧
      (outstanding (run (step devEnv (some maxConcurrent)) {} inputs).log).Nodup ∧
      0 ≤ (run (step devEnv (some maxConcurrent)) {} inputs).inFlight ∧
      (run (step devEnv (some maxConcurrent)) {} inputs).inFlight ≤ maxConcurrent ∧
      (∀ request, (run (step devEnv (some maxConcurrent)) {} inputs).log.countP
          (Happened.givesBack request) =
        if fired (run (step devEnv (some maxConcurrent)) {} inputs).log request then 1 else 0) ∧
      Decided maxConcurrent (run (step devEnv (some maxConcurrent)) {} inputs).log ∧
      Logged devEnv maxConcurrent inputs := by
  obtain ⟨hcounted, hdecided⟩ := counted_run hmax devEnv inputs
  have hflight := hcounted.flight
  exact ⟨hflight, hcounted.nodup_outstanding, by omega, hcounted.bound, hcounted.gaveBack, hdecided,
    logged_run hmax devEnv inputs⟩

/-- Two slots, three requests, and a response whose socket closes after it was sent. -/
theorem inFlight_exact_two :
    0 < 2 ∧ Logged false 2 [.arrive, .arrive, .arrive, .emit 0 .finish, .emit 0 .close, .arrive] ∧
      (run (step false (some 2)) {}
        [.arrive, .arrive, .arrive, .emit 0 .finish, .emit 0 .close, .arrive]).inFlight =
      (outstanding (run (step false (some 2)) {}
        [.arrive, .arrive, .arrive, .emit 0 .finish, .emit 0 .close, .arrive]).log).length ∧
      (run (step false (some 2)) {}
        [.arrive, .arrive, .arrive, .emit 0 .finish, .emit 0 .close, .arrive]).inFlight = 2 :=
  ⟨by decide, (inFlight_exact (by decide) false _).2.2.2.2.2.2, (inFlight_exact (by decide) false _).1, rfl⟩

end NestAmqp.Proxy.ConcurrencyCap
