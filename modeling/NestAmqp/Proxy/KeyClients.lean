/-
# NestAmqp.Proxy.KeyClients — the key clients of the token providers.

`JwtService` keeps a key client for each `jwks` provider under the provider's name: those of the YAML are
built when the module starts, the others when a token is first verified, and a reload of the registry drops
all of them.  A provider is looked up and its client read in one go, so no reload comes in between.

The table is a plain object, which answers the names of `Object.prototype` with what it inherits; and the
YAML's clients may be built after a reload has settled on other configurations.  Otherwise every verification
uses a client that was built from the configuration it looked up, since the last reload.
-/
import NestAmqp.Js.PlainObject
import NestAmqp.Proxy.AuthProviderRegistry

namespace NestAmqp.Proxy.KeyClients

open NestAmqp.Js
open NestAmqp.Lib.Machine

/-! ## The clients -/

/-- `JwksClient`, with the options that come from the configuration. -/
structure JwksClient where
  jwksUri : String
  /-- Of its `requestAgent`. -/
  rejectUnauthorized : Bool
  /-- What it was built from, and how often the clients had been dropped by then; nothing reads either. -/
  builtFrom : HandlerAuthConfig
  resets : Nat

/-- `new JwksClient({ … })`. -/
def JwksClient.new (resets : Nat) (cfg : HandlerAuthConfig) : JwksClient where
  jwksUri := cfg.jwksUri.getD ""
  rejectUnauthorized := cfg.httpsAllowUnauthorized != some true
  builtFrom := cfg
  resets := resets

/-- `this.jwksClients`. -/
abbrev JwksClients := List (String × JwksClient)

/-- What the table has under a name. -/
inductive KeySource where
  | client (client : JwksClient)
  /-- What it inherits from `Object.prototype`. -/
  | inherited (name : String)

/-- `this.jwksClients[name]`. -/
def JwksClients.read (clients : JwksClients) (name : String) : Option KeySource :=
  match clients.lookup name with
  | some client => some (.client client)
  | none => if name ∈ objectPrototype then some (.inherited name) else none

/-- A provider that a client can be built for. -/
def hasKeys (cfg : HandlerAuthConfig) : Bool := cfg.type == .jwks && truthyText cfg.jwksUri

/-- `jwksClientFor(cfg)`, and the table behind it. -/
def jwksClientFor (resets : Nat) (clients : JwksClients) (cfg : HandlerAuthConfig) :
    Option KeySource × JwksClients :=
  if hasKeys cfg then
    match clients.read cfg.name with
    | some source => (some source, clients)
    | none =>
        -- made on first use and kept until `resetClients`
        let client := JwksClient.new resets cfg
        (some (.client client), clients ++ [(cfg.name, client)])
  else (none, clients)

/-- `/^none$/i.test(a)`. -/
def isNone (alg : String) : Bool := toLowerCase alg == "none"

/-- `/^hs/i.test(a)`. -/
def isSymmetric (alg : String) : Bool := "hs".toList.isPrefixOf (toLowerCase alg).toList

/-- `resolveAlgorithms(cfg, requireAsymmetric)`. -/
def resolveAlgorithms (cfg : HandlerAuthConfig) (requireAsymmetric : Bool) : Option (List String) :=
  match cfg.algorithms with
  | none | some [] => none
  | some algs =>
      if algs.any isNone then none
      else if requireAsymmetric && algs.any isSymmetric then none
      else some algs

/-! ## Verifications -/

/-- What a verification comes to. -/
inductive Verification where
  | denied
  /-- Tokens of a `jwt` provider need no client. -/
  | withSecret
  /-- `verify(token, (header, callback) => client.getSigningKey(…), { issuer, audience, algorithms })`. -/
  | withKeys (keys : KeySource) (issuer : String) (audience : Option String) (algorithms : List String)

/-- `verifyTokenJwks(authConfig, token)`. -/
def verifyTokenJwks (resets : Nat) (clients : JwksClients) (authConfig : HandlerAuthConfig)
    (token : String) : Verification × JwksClients :=
  match jwksClientFor resets clients authConfig with
  | (none, clients) => (.denied, clients)
  | (some keys, clients) =>
      match resolveAlgorithms authConfig true with
      | none => (.denied, clients)
      | some algorithms =>
          if token = "" then (.denied, clients)
          else (.withKeys keys authConfig.issuer authConfig.audience algorithms, clients)

/-- `HttpAuthHandlerService.verifyToken(authConfig, token)`. -/
def verifyToken (resets : Nat) (clients : JwksClients) (authConfig : HandlerAuthConfig)
    (token : Option String) : Verification × JwksClients :=
  match token with
  | none => (.denied, clients)
  | some token =>
      if token = "" then (.denied, clients)
      else match authConfig.type with
        | .jwt => (.withSecret, clients)
        | .jwks => verifyTokenJwks resets clients authConfig token
        | _ => (.denied, clients)

/-- The registry and the table of clients. -/
structure TokenService where
  registry : AuthProviderRegistry
  jwksClients : JwksClients := []

/-- The registry takes an input of its own, `JwtService.onModuleInit` runs, or a token is verified against the
provider of a name: of a path, or of an event somebody subscribes to. -/
inductive TokenInput where
  | registry (input : AuthReloadInput)
  | moduleInit
  | verify (name : Option String) (token : Option String)

namespace TokenService

variable (s : TokenService)

/-- A token is verified against the provider of a name, if there is one. -/
def verification (name token : Option String) : Verification × JwksClients :=
  match s.registry.find name with
  | none => (.denied, s.jwksClients)
  | some authConfig => verifyToken s.registry.clientResets s.jwksClients authConfig token

/-- `JwtService.onModuleInit`. -/
def moduleInit : TokenService :=
  { s with
    jwksClients := s.registry.yaml.foldl
      (fun clients cfg => (jwksClientFor s.registry.clientResets clients cfg).2) s.jwksClients }

/-- One input.  A reload that swaps its set in drops the clients with `resetClients()`. -/
def step : TokenInput → TokenService
  | .registry input =>
      let registry := s.registry.step input
      { registry, jwksClients :=
        if registry.clientResets = s.registry.clientResets then s.jwksClients else [] }
  | .moduleInit => s.moduleInit
  | .verify name token => { s with jwksClients := (s.verification name token).2 }

end TokenService

/-! ## Current keys -/

/-- The keys come from a client that was built from this configuration, since the clients were last
dropped. -/
def Verification.UsesClientOf (cfg : HandlerAuthConfig) (resets : Nat) : Verification → Prop
  | .withKeys (.client client) _ _ _ => client = JwksClient.new resets cfg
  | .withKeys (.inherited _) _ _ _ => False
  | .denied | .withSecret => True

/-- Whatever token is verified against whichever `jwks` provider that is found. -/
def CurrentKeys (s : TokenService) : Prop :=
  ∀ (name token : Option String) (cfg : HandlerAuthConfig), s.registry.find name = some cfg →
    cfg.type = .jwks → (s.verification name token).1.UsesClientOf cfg s.registry.clientResets

/-- A provider against which tokens are verified with keys. -/
def Verifies (cfg : HandlerAuthConfig) : Prop :=
  hasKeys cfg = true ∧ (resolveAlgorithms cfg true).isSome

/-- No provider that tokens are verified against with keys is found under a name of `Object.prototype`. -/
def Plain (set : List HandlerAuthConfig) : Prop :=
  ∀ name ∈ objectPrototype, ∀ cfg, findByName set name = some cfg → ¬ Verifies cfg

/-- An input swaps in the YAML's providers with these: a reload without a source at once, another when its
read completes. -/
def Swaps (registry : AuthProviderRegistry) : AuthReloadInput → List HandlerAuthConfig → Prop
  | .reload, db => registry.source = false ∧ db = []
  | .complete i, db => ∃ startedAt readAt, registry.calls[i]? = some ⟨startedAt, .listed db readAt⟩
  | .write _, _ | .snapshot _, _ | .fail .., _ => False

/-- What the swaps and the start of the module have to meet. -/
def Keeps (s : TokenService) : TokenInput → Prop
  | .registry input => ∀ db, Swaps s.registry input db → Plain (s.registry.yaml ++ db).reverse
  | .verify .. => True
  -- the YAML's first configuration of a name without a client is the current one
  | .moduleInit => ∀ cfg, s.registry.find (some cfg.name) = some cfg → Verifies cfg →
      s.jwksClients.lookup cfg.name = none →
      ∀ q, s.registry.yaml.find? (fun q => hasKeys q && q.name == cfg.name) = some q → q = cfg

/-! ## The table -/

variable {resets : Nat} {clients : JwksClients} {cfg : HandlerAuthConfig}

/-- A client is built under the name it is missing under, when the table does not inherit anything there. -/
theorem lookup_jwksClientFor (resets : Nat) (clients : JwksClients) (cfg : HandlerAuthConfig)
    (name : String) : (jwksClientFor resets clients cfg).2.lookup name =
      (clients.lookup name).or
        (if (hasKeys cfg && cfg.name == name) = true ∧ name ∉ objectPrototype then
          some (.new resets cfg) else none) := by
  unfold jwksClientFor JwksClients.read
  by_cases hkeys : hasKeys cfg = true
  · rw [if_pos hkeys, hkeys, Bool.true_and]
    cases hread : clients.lookup cfg.name with
    | some client =>
        dsimp only
        by_cases hname : cfg.name = name
        · rw [← hname, hread, Option.some_or]
        · rw [if_neg fun h => hname (beq_iff_eq.mp h.1), Option.or_none]
    | none =>
        by_cases hinherited : cfg.name ∈ objectPrototype
        · have hno : ¬ ((cfg.name == name) = true ∧ name ∉ objectPrototype) :=
            fun h => h.2 (beq_iff_eq.mp h.1 ▸ hinherited)
          rw [if_pos hinherited, if_neg hno, Option.or_none]
        · rw [if_neg hinherited]
          dsimp only
          rw [List.lookup_append]
          congr 1
          by_cases hname : cfg.name = name
          · rw [if_pos ⟨beq_iff_eq.mpr hname, hname ▸ hinherited⟩, ← hname]
            exact List.lookup_cons_self
          · rw [if_neg fun h => hname (beq_iff_eq.mp h.1), List.lookup_cons,
              beq_eq_false_iff_ne.mpr (Ne.symm hname)]
            rfl
  · rw [if_neg hkeys, Bool.eq_false_iff.mpr hkeys, Bool.false_and]
    simp

/-- The start of the module builds the client of a name from the first configuration that has it. -/
theorem lookup_foldl_jwksClientFor (resets : Nat) (clients : JwksClients) (yaml : List HandlerAuthConfig)
    {name : String} (hname : name ∉ objectPrototype) :
    (yaml.foldl (fun clients cfg => (jwksClientFor resets clients cfg).2) clients).lookup name =
      (clients.lookup name).or
        ((yaml.find? fun q => hasKeys q && q.name == name).map (JwksClient.new resets)) := by
  induction yaml generalizing clients with
  | nil => rw [List.foldl_nil, List.find?_nil, Option.map_none, Option.or_none]
  | cons cfg yaml ih =>
      rw [List.foldl_cons, ih, lookup_jwksClientFor, Option.or_assoc, List.find?_cons]
      cases hfirst : hasKeys cfg && cfg.name == name with
      | true =>
          rw [if_pos ⟨rfl, hname⟩]
          rfl
      | false => rw [if_neg fun h => Bool.false_ne_true h.1, Option.none_or]

/-- Under an inherited name nothing is ever built. -/
theorem lookup_foldl_inherited (resets : Nat) (clients : JwksClients) (yaml : List HandlerAuthConfig)
    {name : String} (hname : name ∈ objectPrototype) :
    (yaml.foldl (fun clients cfg => (jwksClientFor resets clients cfg).2) clients).lookup name =
      clients.lookup name := by
  induction yaml generalizing clients with
  | nil => rfl
  | cons cfg yaml ih =>
      rw [List.foldl_cons, ih, lookup_jwksClientFor, if_neg fun h => h.2 hname, Option.or_none]

/-! ## One verification -/

/-- The table has the provider's own client, or nothing yet. -/
def Own (resets : Nat) (clients : JwksClients) (cfg : HandlerAuthConfig) : Prop :=
  match clients.lookup cfg.name with
  | some client => client = .new resets cfg
  | none => cfg.name ∉ objectPrototype

theorem Verification.usesClientOf_withKeys {cfg : HandlerAuthConfig} {resets : Nat} {keys : KeySource}
    {issuer : String} {audience : Option String} {algorithms : List String} :
    (withKeys keys issuer audience algorithms).UsesClientOf cfg resets ↔ keys = .client (.new resets cfg) := by
  cases keys with
  | client client => exact ⟨congrArg KeySource.client, KeySource.client.inj⟩
  | inherited name => exact ⟨False.elim, nofun⟩

/-- A provider with keys gets a client, or what the table inherits. -/
theorem jwksClientFor_keys (resets : Nat) (clients : JwksClients) {cfg : HandlerAuthConfig}
    (hkeys : hasKeys cfg = true) : ∃ keys clients', jwksClientFor resets clients cfg = (some keys, clients') ∧
      (keys = .client (.new resets cfg) ↔ Own resets clients cfg) := by
  unfold jwksClientFor JwksClients.read Own
  rw [if_pos hkeys]
  cases hread : clients.lookup cfg.name with
  | some client => exact ⟨.client client, clients, rfl, KeySource.client.inj, congrArg KeySource.client⟩
  | none =>
      by_cases hinherited : cfg.name ∈ objectPrototype
      · rw [if_pos hinherited]
        exact ⟨.inherited cfg.name, clients, rfl, nofun, fun h => absurd hinherited h⟩
      · rw [if_neg hinherited]
        exact ⟨.client (.new resets cfg), _, rfl, iff_of_true rfl hinherited⟩

/-- **One verification.**  A token is verified with keys when there is one and the provider has what it
takes; the keys are the provider's own exactly when the table has no others for it. -/
theorem verifyToken_jwks (resets : Nat) (clients : JwksClients) {cfg : HandlerAuthConfig}
    (hjwks : cfg.type = .jwks) {token : String} (htoken : token ≠ "") :
    (verifyToken resets clients cfg (some token)).1.UsesClientOf cfg resets ↔
      (Verifies cfg → Own resets clients cfg) := by
  unfold verifyToken Verifies
  dsimp only
  rw [if_neg htoken, hjwks]
  dsimp only
  unfold verifyTokenJwks
  by_cases hkeys : hasKeys cfg = true
  · obtain ⟨keys, clients', hclient, hown⟩ := jwksClientFor_keys resets clients hkeys
    rw [hclient]
    dsimp only
    cases halgs : resolveAlgorithms cfg true with
    | none => exact iff_of_true trivial fun h => Bool.noConfusion h.2
    | some algorithms =>
        dsimp only
        rw [if_neg htoken, Verification.usesClientOf_withKeys, hown]
        exact ⟨fun h _ => h, fun h => h ⟨hkeys, rfl⟩⟩
  · have hnone : jwksClientFor resets clients cfg = (none, clients) := if_neg hkeys
    rw [hnone]
    exact iff_of_true trivial fun h => absurd h.1 hkeys

/-- Without a token nothing is verified. -/
theorem verifyToken_empty (resets : Nat) (clients : JwksClients) (cfg : HandlerAuthConfig)
    {token : Option String} (htoken : truthyText token = false) :
    verifyToken resets clients cfg token = (.denied, clients) := by
  cases token with
  | none => rfl
  | some token =>
      have hempty : token = "" := by simpa [truthyText] using htoken
      unfold verifyToken
      dsimp only
      rw [if_pos hempty]

/-- With a token, no key is asked for exactly when the provider lacks what it takes. -/
theorem verifyToken_denied_iff (resets : Nat) (clients : JwksClients) {cfg : HandlerAuthConfig}
    (hjwks : cfg.type = .jwks) {token : String} (htoken : token ≠ "") :
    (verifyToken resets clients cfg (some token)).1 = .denied ↔ ¬ Verifies cfg := by
  unfold verifyToken Verifies
  dsimp only
  rw [if_neg htoken, hjwks]
  dsimp only
  unfold verifyTokenJwks
  by_cases hkeys : hasKeys cfg = true
  · obtain ⟨keys, clients', hclient, -⟩ := jwksClientFor_keys resets clients hkeys
    rw [hclient]
    dsimp only
    cases halgs : resolveAlgorithms cfg true with
    | none => exact iff_of_true rfl fun h => Bool.noConfusion h.2
    | some algorithms =>
        dsimp only
        rw [if_neg htoken]
        exact iff_of_false nofun fun h => h ⟨hkeys, rfl⟩
  · have hnone : jwksClientFor resets clients cfg = (none, clients) := if_neg hkeys
    rw [hnone]
    exact iff_of_true rfl fun h => hkeys h.1

/-- A verification touches the client of its own provider only. -/
theorem lookup_verifyToken (resets : Nat) (clients : JwksClients) (cfg : HandlerAuthConfig)
    (token : Option String) (name : String) :
    (verifyToken resets clients cfg token).2.lookup name = clients.lookup name ∨
      (verifyToken resets clients cfg token).2.lookup name =
      (jwksClientFor resets clients cfg).2.lookup name := by
  unfold verifyToken
  split
  next => exact .inl rfl
  next token =>
    split
    next => exact .inl rfl
    next =>
      split
      next => exact .inl rfl
      next =>
        refine .inr ?_
        unfold verifyTokenJwks
        cases hclient : jwksClientFor resets clients cfg with
        | mk keys clients' =>
            cases keys with
            | none => rfl
            | some keys =>
                dsimp only
                split
                next => rfl
                next => split <;> rfl
      next => exact .inl rfl

/-! ## Whole states -/

theorem find_some {registry : AuthProviderRegistry} {name : Option String} {cfg : HandlerAuthConfig}
    (hfind : registry.find name = some cfg) : name = some cfg.name := by
  unfold AuthProviderRegistry.find at hfind
  cases name with
  | none => cases hfind
  | some name =>
      rw [Option.bind_some] at hfind
      split at hfind
      next => cases hfind
      next => exact congrArg some (beq_iff_eq.mp (List.find?_some hfind :)).symm

/-- The table fits the registry when it has no client of another making for a provider that is found. -/
theorem currentKeys_iff_own (s : TokenService) : CurrentKeys s ↔
    ∀ cfg, s.registry.find (some cfg.name) = some cfg → Verifies cfg →
      Own s.registry.clientResets s.jwksClients cfg := by
  constructor
  · intro h cfg hfind hverifies
    have hjwks : cfg.type = .jwks := beq_iff_eq.mp (Bool.and_eq_true_iff.mp hverifies.1).1
    have huses := h (some cfg.name) (some "token") cfg hfind hjwks
    unfold TokenService.verification at huses
    rw [hfind] at huses
    exact (verifyToken_jwks _ _ hjwks (by decide)).mp huses hverifies
  · intro h name token cfg hfind hjwks
    unfold TokenService.verification
    rw [hfind]
    dsimp only
    cases htoken : truthyText token with
    | false =>
        rw [verifyToken_empty _ _ _ htoken]
        trivial
    | true =>
        obtain ⟨text, rfl, hnonempty⟩ : ∃ text, token = some text ∧ text ≠ "" := by
          cases token with
          | none => cases htoken
          | some text => exact ⟨text, rfl, by simpa [truthyText] using htoken⟩
        rw [verifyToken_jwks _ _ hjwks hnonempty]
        exact h cfg (find_some hfind ▸ hfind)

theorem JwksClient.new_inj {resets : Nat} {q cfg : HandlerAuthConfig}
    (h : JwksClient.new resets q = .new resets cfg) : q = cfg :=
  congrArg JwksClient.builtFrom h

/-- Building a client spoils no other provider's. -/
theorem Own.jwksClientFor {p : HandlerAuthConfig} (h : Own resets clients p)
    (hsame : cfg.name = p.name → cfg = p) : Own resets (jwksClientFor resets clients cfg).2 p := by
  unfold Own at h ⊢
  rw [lookup_jwksClientFor]
  cases hread : clients.lookup p.name with
  | some client =>
      rw [hread] at h
      exact h
  | none =>
      rw [hread] at h
      rw [Option.none_or]
      split
      next client heq =>
        split at heq
        next hbuilt =>
          obtain ⟨-, hname⟩ := Bool.and_eq_true_iff.mp hbuilt.1
          rw [← Option.some.inj heq, hsame (beq_iff_eq.mp hname)]
        next => cases heq
      next => exact h

/-- **Tokens.**  A verification leaves every provider its own client. -/
theorem CurrentKeys.verify {s : TokenService} (h : CurrentKeys s) (name token : Option String) :
    CurrentKeys (s.step (.verify name token)) := by
  rw [currentKeys_iff_own] at h ⊢
  intro p hp hverifies
  have hown := h p hp hverifies
  change Own s.registry.clientResets (s.verification name token).2 p
  unfold TokenService.verification
  cases hfind : s.registry.find name with
  | none => exact hown
  | some cfg =>
      dsimp only
      rcases lookup_verifyToken s.registry.clientResets s.jwksClients cfg token p.name with hsame | hbuilt
      · unfold Own at hown ⊢
        rw [hsame]
        exact hown
      · have hnext : Own s.registry.clientResets
            (jwksClientFor s.registry.clientResets s.jwksClients cfg).2 p := by
          refine hown.jwksClientFor fun hname => ?_
          rw [find_some hfind, hname] at hfind
          exact Option.some.inj (hfind.symm.trans hp)
        unfold Own at hnext ⊢
        rw [hbuilt]
        exact hnext

/-- **The start of the module.**  The YAML's clients are those of the current providers, where there were
none. -/
theorem own_moduleInit_iff (s : TokenService) {p : HandlerAuthConfig}
    (hown : Own s.registry.clientResets s.jwksClients p) :
    Own s.registry.clientResets s.moduleInit.jwksClients p ↔
      (s.jwksClients.lookup p.name = none → ∀ q,
        s.registry.yaml.find? (fun q => hasKeys q && q.name == p.name) = some q → q = p) := by
  unfold Own TokenService.moduleInit at *
  by_cases hinherited : p.name ∈ objectPrototype
  · rw [lookup_foldl_inherited _ _ _ hinherited]
    cases hread : s.jwksClients.lookup p.name with
    | some client =>
        rw [hread] at hown
        exact iff_of_true hown nofun
    | none =>
        rw [hread] at hown
        exact absurd hinherited hown
  · rw [lookup_foldl_jwksClientFor _ _ _ hinherited]
    cases hread : s.jwksClients.lookup p.name with
    | some client =>
        rw [hread] at hown
        exact iff_of_true hown nofun
    | none =>
        cases hfirst : s.registry.yaml.find? fun q => hasKeys q && q.name == p.name with
        | none => exact iff_of_true hinherited fun _ q hq => by cases hq
        | some q =>
            refine ⟨fun h _ q' hq' => ?_, fun h => congrArg _ (h rfl q rfl)⟩
            rw [← Option.some.inj hq']
            exact JwksClient.new_inj h

theorem currentKeys_moduleInit_iff {s : TokenService} (h : CurrentKeys s) :
    CurrentKeys (s.step .moduleInit) ↔ Keeps s .moduleInit := by
  rw [currentKeys_iff_own] at h ⊢
  refine forall_congr' fun cfg => forall_congr' fun hfind => forall_congr' fun hverifies => ?_
  exact own_moduleInit_iff s (h cfg hfind hverifies)

/-! ## Swaps -/

/-- With no clients at all, only the names count. -/
theorem currentKeys_empty_iff (registry : AuthProviderRegistry) :
    CurrentKeys { registry } ↔ Plain registry.current := by
  rw [currentKeys_iff_own]
  constructor
  · intro h name hinherited cfg hfind hverifies
    have hname : cfg.name = name := beq_iff_eq.mp (List.find?_some hfind :)
    have hnonempty : name ≠ "" := by
      rintro rfl
      exact absurd hinherited (by decide)
    refine h cfg ?_ hverifies (hname ▸ hinherited)
    rw [hname]
    exact (if_neg hnonempty).trans hfind
  · intro h cfg hfind hverifies hinherited
    refine h cfg.name hinherited cfg ?_ hverifies
    unfold AuthProviderRegistry.find at hfind
    rw [Option.bind_some] at hfind
    split at hfind
    next => cases hfind
    next => exact hfind

theorem plain_mergeProviders_iff (yaml db : List HandlerAuthConfig) :
    Plain (mergeProviders yaml db) ↔ Plain (yaml ++ db).reverse := by
  refine forall_congr' fun name => forall_congr' fun hinherited => ?_
  have hnonempty : name ≠ "" := by
    rintro rfl
    exact absurd hinherited (by decide)
  rw [findByName_mergeProviders yaml db hnonempty, List.reverse_append]
  unfold findByName
  rw [List.find?_append]

/-- **One input of the registry.**  It swaps one set in, or it leaves the set as it is. -/
theorem step_registry (registry : AuthProviderRegistry) (input : AuthReloadInput) :
    (∃ db, (∀ db', Swaps registry input db' ↔ db' = db) ∧
      (registry.step input).current = mergeProviders registry.yaml db ∧
      (registry.step input).clientResets = registry.clientResets + 1) ∨
    ((∀ db, ¬ Swaps registry input db) ∧ (registry.step input).current = registry.current ∧
      (registry.step input).clientResets = registry.clientResets) := by
  unfold AuthProviderRegistry.step AuthProviderRegistry.act
  cases input with
  | write enabled => exact .inr ⟨fun _ h => h, rfl, rfl⟩
  | reload =>
      unfold AuthProviderRegistry.reload Swaps
      dsimp only
      split
      next hsource => exact .inr ⟨fun _ h => Bool.noConfusion (h.1.symm.trans hsource), rfl, rfl⟩
      next hsource => exact .inl ⟨[], fun db' => and_iff_right (Bool.eq_false_iff.mpr hsource), rfl, rfl⟩
  | snapshot i =>
      dsimp only
      split <;> exact .inr ⟨fun _ h => h, rfl, rfl⟩
  | fail i error =>
      dsimp only
      split <;> exact .inr ⟨fun _ h => h, rfl, rfl⟩
  | complete i =>
      unfold Swaps
      dsimp only
      split
      next startedAt db readAt hcall =>
        refine .inl ⟨db, fun db' => ⟨?_, ?_⟩, rfl, rfl⟩
        · rintro ⟨startedAt', readAt', hcall'⟩
          cases hcall.symm.trans hcall'
          rfl
        · rintro rfl
          exact ⟨startedAt, readAt, hcall⟩
      next hother =>
        refine .inr ⟨?_, rfl, rfl⟩
        rintro db ⟨startedAt, readAt, hcall⟩
        exact hother startedAt db readAt hcall

/-- After an input of the registry the keys are current exactly when the set it swaps in is plain. -/
theorem currentKeys_registry_iff {s : TokenService} (h : CurrentKeys s) (input : AuthReloadInput) :
    CurrentKeys (s.step (.registry input)) ↔ Keeps s (.registry input) := by
  unfold TokenService.step Keeps
  dsimp only
  rcases step_registry s.registry input with ⟨db, hswaps, hcurrent, hresets⟩ | ⟨hnone, hcurrent, hresets⟩
  · rw [if_neg (hresets ▸ Nat.succ_ne_self _), currentKeys_empty_iff, hcurrent, plain_mergeProviders_iff]
    refine ⟨fun hplain db' hdb' => ?_, fun hall => hall db ((hswaps db).mpr rfl)⟩
    rw [(hswaps db').mp hdb']
    exact hplain
  · rw [if_pos hresets]
    refine iff_of_true ?_ fun db hdb => absurd hdb (hnone db)
    rw [currentKeys_iff_own] at h ⊢
    unfold AuthProviderRegistry.find at h ⊢
    rw [hcurrent, hresets]
    exact h

/-- **Token verification uses the provider's current keys**, in every state of a run, exactly when every set
that is looked in has no `jwks` provider under a name the table inherits, and the start of the module builds
no client from another configuration than the current one. -/
theorem currentKeys_iff (yaml : List HandlerAuthConfig) (source : Bool) (enabled : List HandlerAuthConfig)
    (inputs : List TokenInput) :
    (∀ s, Reaches TokenService.step { registry := { yaml, source, enabled } } inputs s → CurrentKeys s) ↔
      Plain yaml ∧ Along TokenService.step Keeps { registry := { yaml, source, enabled } } inputs := by
  have hstart : CurrentKeys { registry := { yaml, source, enabled } } ↔ Plain yaml :=
    currentKeys_empty_iff { yaml, source, enabled }
  have hstep : ∀ s i, CurrentKeys s → (CurrentKeys (s.step i) ↔ Keeps s i) := by
    intro s i hs
    cases i with
    | registry input => exact currentKeys_registry_iff hs input
    | moduleInit => exact currentKeys_moduleInit_iff hs
    | verify name token => exact iff_of_true (hs.verify name token) trivial
  have hrun : CurrentKeys { registry := { yaml, source, enabled } } →
      ((∀ s, Reaches TokenService.step { registry := { yaml, source, enabled } } inputs s → CurrentKeys s) ↔
        Along TokenService.step Keeps { registry := { yaml, source, enabled } } inputs) :=
    fun hs => Along.iff_forall_reaches (fun _ h => h) (fun s i hs hok => (hstep s i hs).mpr hok)
      (fun s i hs hno h => hno ((hstep s i hs).mp h)) hs inputs
  constructor
  · intro h
    have hs := h _ ⟨[], inputs, rfl, rfl⟩
    exact ⟨hstart.mp hs, (hrun hs).mp h⟩
  · rintro ⟨hplain, halong⟩
    exact (hrun (hstart.mpr hplain)).mpr halong

/-! ## A provider with an inherited name -/

/-- A provider of this name and of these keys. -/
def keyProvider (name jwksUri : String) : HandlerAuthConfig :=
  { name, type := .jwks, jwksUri := some jwksUri, algorithms := some ["RS256"] }

/-- The table answers `constructor` with a function, and no client is built. -/
theorem not_currentKeys_inherited :
    ¬ ∀ (yaml : List HandlerAuthConfig) (source : Bool) (enabled : List HandlerAuthConfig)
      (inputs : List TokenInput) (s : TokenService),
      Reaches TokenService.step { registry := { yaml, source, enabled } } inputs s → CurrentKeys s := by
  intro h
  have hkeys := h [keyProvider "constructor" "https://keys"] false [] [.moduleInit] _
    (reaches_run _ _ _) (some "constructor") (some "token") _ rfl rfl
  have hinherited : (TokenService.verification (run TokenService.step
      { registry := { yaml := [keyProvider "constructor" "https://keys"], source := false } } [.moduleInit])
        (some "constructor") (some "token")).1 =
      .withKeys (.inherited "constructor") "" none ["RS256"] := by
    rfl
  rw [hinherited] at hkeys
  exact hkeys

end NestAmqp.Proxy.KeyClients
