/-
# NestAmqp.Proxy.BasicAuth — which `Authorization` headers the basic provider accepts.

`checkBasicAuth` takes the second word of the header, decodes it, drops the highest bit of every byte, and
compares the first two parts between colons with the configured credentials.  The right header is `Basic ` and
the base64 of `user:password`, split at the first colon.  The two differ where the decoding merges texts, where
the splitting takes a part for the whole, and where the configured texts are none that can come out of it; the
result says so exactly.
-/
import NestAmqp.Js.Buffer
import NestAmqp.Proxy.GateContext

namespace NestAmqp.Proxy.BasicAuth

open NestAmqp.Js
open NestAmqp.Js.Buffer
open NestAmqp.Proxy.HttpAuthHandler

/-! ## Right headers -/

/-- `checkBasicAuth` succeeds, with Node's `Buffer` as the decoder. -/
def Succeeds (env : GatewayEnv) (req : Request) (cfg : HandlerAuthConfig) : Prop :=
  Obj.get (checkBasicAuth { env with base64ToAscii := fun s => toAscii (ofBase64 s) } req cfg) "success" =
    .bool true

/-- The bytes of `user:password`. -/
def credentials (user password : String) : List UInt8 := utf8 (user ++ ":" ++ password)

/-- `'Basic ' + Buffer.from(user + ':' + password).toString('base64')`. -/
def basicHeader (user password : String) : String := "Basic " ++ toBase64 (credentials user password)

/-- A user the provider lets in: without a colon, and the configured one, when one is. -/
def Admits (cfg : HandlerAuthConfig) (user : String) : Prop :=
  ':' ∉ user.toList ∧ (truthyText cfg.clientId = true → some user = cfg.clientId)

/-- The header is that of the configured credentials. -/
def Right (cfg : HandlerAuthConfig) (header : Option String) : Prop :=
  ∃ user password, Admits cfg user ∧ some password = cfg.clientSecret ∧
    header = some (basicHeader user password)

/-! ## What goes wrong -/

/-- The byte of `:`. -/
def colon : UInt8 := 58

/-- The second word of the header. -/
def word (header : String) : String := (split header ' ')[1]?.getD ""

/-- A text that begins with the right credentials: it ends with them, or goes on behind another colon. -/
def Reads (cfg : HandlerAuthConfig) (secret text : String) : Prop :=
  (split text ':')[1]? = some secret ∧
    (truthyText cfg.clientId = true → some ((split text ':').headD "") = cfg.clientId)

/-- The credentials come out of the decoding as they went in. -/
structure Readable (cfg : HandlerAuthConfig) (user secret : String) : Prop where
  password : SevenBit secret ∧ ':' ∉ secret.toList
  configured : truthyText cfg.clientId = true → SevenBit user
  -- a byte of another user may turn into a colon
  other : truthyText cfg.clientId = false → (split (toAscii (utf8 user)) ':')[1]?.getD secret = secret

/-- The header says nothing else, and says it in no other way. -/
structure Spelled (cfg : HandlerAuthConfig) (header secret : String) (bytes : List UInt8) : Prop where
  canonical : header = "Basic " ++ toBase64 bytes
  parts : ∃ userBytes, bytes = userBytes ++ colon :: utf8 secret ∧ colon ∉ userBytes ∧
    (truthyText cfg.clientId = true → ∀ b ∈ userBytes, b.toNat < 128) ∧
    (truthyText cfg.clientId = false → ∃ user, userBytes = utf8 user)

/-- Where the check is exact: right credentials that are readable, and wrong headers that do not read as
right ones. -/
structure Exact (cfg : HandlerAuthConfig) (header secret : String) : Prop where
  right : ∀ user, Admits cfg user → header = basicHeader user secret → Readable cfg user secret
  wrong : "Basic ".toList.isPrefixOf header.toList = true →
    Reads cfg secret (toAscii (ofBase64 (word header))) →
      Spelled cfg header secret (ofBase64 (word header))

/-! ## The check -/

theorem get_success_denied : Obj.get denied "success" = .bool false := rfl

theorem get_success_set (out : ProcessedAuthData) : Obj.get (Obj.set out "success" (.bool true)) "success" =
    .bool true := by
  simp [Obj.get]

/-- **The check**, for a provider with a secret. -/
theorem succeeds_iff (env : GatewayEnv) (req : Request) {cfg : HandlerAuthConfig} {secret : String}
    (hsecret : cfg.clientSecret = some secret) (hnonempty : secret ≠ "") :
    Succeeds env req cfg ↔ ∃ header, authorization req = some header ∧
      "Basic ".toList.isPrefixOf header.toList = true ∧
      Reads cfg secret (toAscii (ofBase64 (word header))) := by
  have htruthy : truthyText cfg.clientSecret = true := by
    rw [hsecret]
    exact bne_iff_ne.mpr hnonempty
  have hdenied : Obj.get denied "success" ≠ .bool true := by
    rw [get_success_denied]
    exact nofun
  unfold Succeeds checkBasicAuth
  cases hheader : authorization req with
  | none => exact iff_of_false hdenied nofun
  | some header =>
      simp only [Option.some.injEq, exists_eq_left']
      by_cases hbasic : "Basic ".toList.isPrefixOf header.toList = true
      · rw [if_neg (not_not_intro hbasic), if_neg (not_not_intro htruthy), and_iff_right hbasic]
        have hreads : (split (toAscii (ofBase64 (word header))) ':')[1]? = cfg.clientSecret ∧
            (¬ truthyText cfg.clientId = true ∨
              some ((split (toAscii (ofBase64 (word header))) ':').headD "") = cfg.clientId) ↔
            Reads cfg secret (toAscii (ofBase64 (word header))) := by
          unfold Reads
          rw [hsecret, imp_iff_not_or]
        unfold word at hreads
        split
        next h => exact iff_of_true (get_success_set _) (hreads.mp h)
        next h => exact iff_of_false hdenied (mt hreads.mpr h)
      · rw [if_pos hbasic]
        exact iff_of_false hdenied fun h => hbasic h.1

/-! ## Right headers -/

theorem split_append_colon (s t : String) : split (s ++ ":" ++ t) ':' = split s ':' ++ split t ':' := by
  have htext : (s ++ ":" ++ t).toList = s.toList ++ ':' :: t.toList := by
    rw [String.toList_append, String.toList_append, List.append_assoc]
    rfl
  unfold split
  rw [htext, List.splitOn_append_cons_self, List.map_append]

/-- The second word of a header that is `Basic ` and base64. -/
theorem word_basic (bytes : List UInt8) : word ("Basic " ++ toBase64 bytes) = toBase64 bytes := by
  have htext : ("Basic " ++ toBase64 bytes).toList = "Basic".toList ++ ' ' :: (toBase64 bytes).toList := by
    rw [String.toList_append]
    rfl
  have hblank : ' ' ∉ (toBase64 bytes).toList := by
    unfold toBase64
    rw [String.toList_ofList]
    exact Lib.Base64.blank_not_mem_encode bytes
  have hsplit : split ("Basic " ++ toBase64 bytes) ' ' = ["Basic", toBase64 bytes] := by
    unfold split
    rw [htext, List.splitOn_append_cons_self, List.splitOn_eq_singleton hblank,
      List.splitOn_eq_singleton (by decide : ' ' ∉ "Basic".toList), List.singleton_append, List.map_cons,
      List.map_singleton, String.ofList_toList, String.ofList_toList]
  unfold word
  rw [hsplit]
  rfl

theorem isPrefixOf_basic (text : String) : "Basic ".toList.isPrefixOf ("Basic " ++ text).toList = true := by
  rw [String.toList_append]
  exact List.isPrefixOf_iff_prefix.mpr (List.prefix_append _ _)

theorem getElem?_one_append_singleton {α : Type} {l : List α} (h : l ≠ []) (x : α) :
    (l ++ [x])[1]? = some (l[1]?.getD x) := by
  cases l with
  | nil => exact absurd rfl h
  | cons a l =>
      cases l with
      | nil => rfl
      | cons b l => rfl

theorem headD_mem {α : Type} {l : List α} (h : l ≠ []) (d : α) : l.headD d ∈ l := by
  cases l with
  | nil => exact absurd rfl h
  | cons a l => exact .head _

/-- The decoded credentials are split around their colon, and wherever a byte has turned into one. -/
theorem split_credentials (user password : String) : split (toAscii (credentials user password)) ':' =
    split (toAscii (utf8 user)) ':' ++ split (toAscii (utf8 password)) ':' := by
  have hcolon : toAscii (utf8 ":") = ":" := toAscii_utf8 (by decide +kernel)
  unfold credentials
  rw [utf8_append, utf8_append, toAscii_append, toAscii_append, hcolon, split_append_colon]

/-- **Right credentials** are read as such exactly when they are readable. -/
theorem reads_credentials_iff {cfg : HandlerAuthConfig} {user secret : String} (hadmits : Admits cfg user) :
    Reads cfg secret (toAscii (credentials user secret)) ↔ Readable cfg user secret := by
  have hsplit : SevenBit secret → ':' ∉ secret.toList →
      split (toAscii (credentials user secret)) ':' = split (toAscii (utf8 user)) ':' ++ [secret] := by
    intro hseven hmem
    rw [split_credentials, toAscii_utf8 hseven, split_of_not_mem hmem]
  have hne := split_ne_nil (toAscii (utf8 user)) ':'
  unfold Reads
  constructor
  · rintro ⟨hpassword, hconfigured⟩
    have hpart := List.mem_of_getElem? hpassword
    have hseven := (sevenBit_toAscii _).of_mem_split hpart
    have hmem := not_mem_of_mem_split hpart
    refine ⟨⟨hseven, hmem⟩, fun hclientId => ?_, fun _ => ?_⟩
    · have hhead : (split (toAscii (credentials user secret)) ':').headD "" = user :=
        Option.some.inj ((hconfigured hclientId).trans (hadmits.2 hclientId).symm)
      rw [← hhead]
      exact (sevenBit_toAscii _).of_mem_split (headD_mem (split_ne_nil _ _) "")
    · rw [hsplit hseven hmem, getElem?_one_append_singleton hne] at hpassword
      exact Option.some.inj hpassword
  · intro h
    rw [hsplit h.password.1 h.password.2, getElem?_one_append_singleton hne]
    cases hclientId : truthyText cfg.clientId with
    | false => exact ⟨congrArg some (h.other hclientId), nofun⟩
    | true =>
        rw [toAscii_utf8 (h.configured hclientId), split_of_not_mem hadmits.1]
        exact ⟨rfl, fun _ => hadmits.2 hclientId⟩

/-! ## Headers that read as right ones -/

theorem colon_mem_utf8_iff {s : String} : colon ∈ utf8 s ↔ ':' ∈ s.toList :=
  @ofNat_mem_utf8_iff s ':' (by decide)

theorem credentials_eq (user password : String) :
    credentials user password = utf8 user ++ colon :: utf8 password := by
  have hcolon : utf8 ":" = [colon] := by decide +kernel
  unfold credentials
  rw [utf8_append, utf8_append, hcolon, List.append_assoc, List.singleton_append]

/-- **A header that reads as a right one** is right exactly when it is spelled as that one is. -/
theorem spelled_iff_right {cfg : HandlerAuthConfig} {header secret : String}
    (hsecret : cfg.clientSecret = some secret)
    (hreads : Reads cfg secret (toAscii (ofBase64 (word header)))) :
    Spelled cfg header secret (ofBase64 (word header)) ↔ Right cfg (some header) := by
  constructor
  · rintro ⟨hcanonical, userBytes, hbytes, hcolon, hseven, hutf8⟩
    have hright : ∀ user, userBytes = utf8 user →
        (truthyText cfg.clientId = true → some user = cfg.clientId) → Right cfg (some header) := by
      rintro user rfl hconfigured
      refine ⟨user, secret, ⟨fun hmem => hcolon (colon_mem_utf8_iff.mpr hmem), hconfigured⟩, hsecret.symm, ?_⟩
      unfold basicHeader
      rw [credentials_eq, ← hbytes]
      exact congrArg some hcanonical
    cases hclientId : truthyText cfg.clientId with
    | false =>
        obtain ⟨user, huser⟩ := hutf8 hclientId
        exact hright user huser fun h => absurd (h.symm.trans hclientId) (by decide)
    | true =>
        have huser := utf8_toAscii (hseven hclientId)
        refine hright (toAscii userBytes) huser.symm fun _ => ?_
        have hmem : ':' ∉ (toAscii userBytes).toList := by
          rw [← colon_mem_utf8_iff, huser]
          exact hcolon
        have hconfigured := hreads.2 hclientId
        rw [hbytes, ← huser, ← credentials_eq, split_credentials, huser, split_of_not_mem hmem] at hconfigured
        exact hconfigured
  · rintro ⟨user, password, hadmits, hpassword, hheader⟩
    obtain rfl : password = secret := Option.some.inj (hpassword.trans hsecret)
    obtain rfl := Option.some.inj hheader
    unfold basicHeader at hreads ⊢
    rw [word_basic, ofBase64_toBase64] at hreads ⊢
    have hreadable := (reads_credentials_iff hadmits).mp hreads
    refine ⟨rfl, utf8 user, credentials_eq user password, fun hmem => hadmits.1 (colon_mem_utf8_iff.mp hmem),
      fun hclientId => (hreadable.configured hclientId).utf8_lt, fun _ => ⟨user, rfl⟩⟩

/-- **Basic authentication accepts exactly the configured credentials** in the headers where the check is
exact, and in no others. -/
theorem basicAuth_iff (env : GatewayEnv) (req : Request) {cfg : HandlerAuthConfig} {secret : String}
    (hsecret : cfg.clientSecret = some secret) (hnonempty : secret ≠ "") :
    (Succeeds env req cfg ↔ Right cfg (authorization req)) ↔
      ∀ header, authorization req = some header → Exact cfg header secret := by
  rw [succeeds_iff env req hsecret hnonempty]
  constructor
  · intro hexact header hheader
    rw [hheader] at hexact
    refine ⟨fun user hadmits hright => ?_, fun hbasic hreads => ?_⟩
    · obtain ⟨header', hsame, -, hreads⟩ :=
        hexact.mpr ⟨user, secret, hadmits, hsecret.symm, congrArg some hright⟩
      obtain rfl := Option.some.inj hsame
      rw [hright, basicHeader, word_basic, ofBase64_toBase64] at hreads
      exact (reads_credentials_iff hadmits).mp hreads
    · exact (spelled_iff_right hsecret hreads).mpr (hexact.mp ⟨header, rfl, hbasic, hreads⟩)
  · intro hexact
    constructor
    · rintro ⟨header, hheader, hbasic, hreads⟩
      rw [hheader]
      exact (spelled_iff_right hsecret hreads).mp ((hexact header hheader).wrong hbasic hreads)
    · rintro ⟨user, password, hadmits, hpassword, hheader⟩
      obtain rfl : password = secret := Option.some.inj (hpassword.trans hsecret)
      refine ⟨_, hheader, isPrefixOf_basic _, ?_⟩
      rw [basicHeader, word_basic, ofBase64_toBase64]
      exact (reads_credentials_iff hadmits).mpr ((hexact _ hheader).right user hadmits rfl)

/-! ## The user `admin` -/

/-- A provider for one user. -/
def adminProvider (secret : String) : HandlerAuthConfig :=
  { name := "basic", type := .basic, clientId := some "admin", clientSecret := some secret }

/-- A request with this header. -/
def requestWith (header : String) : Request :=
  { method := "GET", headers := [("authorization", .str header)] }

theorem basicAuth_iff_admin :
    Succeeds GateContext.openGateway (requestWith "Basic YWRtaW46cHc=") (adminProvider "pw") ↔
      Right (adminProvider "pw") (some "Basic YWRtaW46cHc=") := by
  refine (basicAuth_iff GateContext.openGateway (requestWith "Basic YWRtaW46cHc=") rfl (by decide)).mpr ?_
  intro header hheader
  obtain rfl : "Basic YWRtaW46cHc=" = header := Option.some.inj hheader
  refine ⟨fun user hadmits _ => ?_, fun _ _ => ⟨by decide +kernel, utf8 "admin", ?_⟩⟩
  · obtain rfl : user = "admin" := Option.some.inj (hadmits.2 (by decide +kernel))
    exact ⟨by decide +kernel, fun _ => by decide +kernel, nofun⟩
  · exact ⟨by decide +kernel, by decide +kernel, fun _ => by decide +kernel, fun _ => ⟨"admin", rfl⟩⟩

/-- Without their highest bits, the bytes of `ä` are `C$`. -/
theorem not_basicAuth_umlaut :
    ¬ ∀ (env : GatewayEnv) (req : Request) (cfg : HandlerAuthConfig) (secret : String),
      cfg.clientSecret = some secret → secret ≠ "" → (∀ id ∈ cfg.clientId, ':' ∉ id.toList) →
        (Succeeds env req cfg ↔ Right cfg (authorization req)) := by
  intro h
  have hexact := h GateContext.openGateway (requestWith (basicHeader "admin" "pä")) (adminProvider "pC$") "pC$"
    rfl (by decide +kernel) (by decide +kernel)
  have hsucceeds : Succeeds GateContext.openGateway (requestWith (basicHeader "admin" "pä"))
      (adminProvider "pC$") := by
    rw [succeeds_iff _ _ rfl (by decide)]
    exact ⟨_, rfl, by decide +kernel, by decide +kernel, fun _ => by decide +kernel⟩
  obtain ⟨user, password, hadmits, hpassword, hheader⟩ := hexact.mp hsucceeds
  obtain rfl : user = "admin" := Option.some.inj (hadmits.2 (by decide +kernel))
  obtain rfl : password = "pC$" := Option.some.inj hpassword
  exact absurd hheader (by decide +kernel)

end NestAmqp.Proxy.BasicAuth
