import Conrogate.Lib.Proc
import Conrogate.Plugins.Framework
import Conrogate.Plugins.Jwt

/-!
# The `auth` plugin

A bearer token has to be valid under the key of the binding: a shared secret, an RSA key, or one
that is fetched from a JWKS endpoint and cached.
-/

namespace Conrogate

open Json ClaimsForValidation Option TryParse Proc

structure AuthPluginConfig where
  algorithm : String
  secret : String
  rsaPem : Option String
  jwksUrl : Option String
  jwksCacheTtlSeconds : Nat
  issuer : Option String
  audience : Option String
  requireToken : Bool
deriving DecidableEq, Repr

namespace AuthPluginConfig

def default : AuthPluginConfig := ⟨"HS256", "", none, none, 300, none, none, true⟩

def ofFields (field : Nat → String → Option Json) : Option AuthPluginConfig := do
  let algorithm ← orDefault "HS256" asStr (field 0 "algorithm")
  let secret ← orDefault "" asStr (field 1 "secret")
  let rsaPem ← orDefault none (asOption asStr) (field 2 "rsa_pem")
  let jwksUrl ← orDefault none (asOption asStr) (field 3 "jwks_url")
  let ttl ← orDefault 300 asU64 (field 4 "jwks_cache_ttl_seconds")
  let issuer ← orDefault none (asOption asStr) (field 5 "issuer")
  let audience ← orDefault none (asOption asStr) (field 6 "audience")
  let requireToken ← orDefault true asBool (field 7 "require_token")
  some ⟨algorithm, secret, rsaPem, jwksUrl, ttl, issuer, audience, requireToken⟩

def fromValue : Json → Option AuthPluginConfig
  | .obj members => ofFields fun _ name => field members name
  | .arr items => if items.length ≤ 8 then ofFields fun i _ => items[i]? else none
  | _ => none

end AuthPluginConfig

structure JwksCache (Key : Type) where
  keys : String → Option Key
  fetchedAt : Option Time

namespace JwksCache

variable {Key : Type}

def new : JwksCache Key := ⟨fun _ => none, none⟩

def isStale (cache : JwksCache Key) (ttl now : Time) : Bool :=
  match cache.fetchedAt with
  | some t => now - t > ttl
  | none   => true

end JwksCache

structure Jwk where
  kty : String
  kid : Option String
  n : Option String
  e : Option String

abbrev JwksAnswer := Except String (List Jwk)

structure JwksEnv where
  now : Time
  answer : JwksAnswer
  fetchedAt : Time

section

variable {Key : Type} (jwt : JwtCrate Key) (toUppercase : String → String)

def addJwk (keys : String → Option Key) (jwk : Jwk) : String → Option Key :=
  match jwk.kty == "RSA", jwk.kid, jwk.n, jwk.e with
  | true, some kid, some n, some e => match jwt.fromRsaComponents n e with
    | .ok key  => Function.update keys kid (some key)
    | .error _ => keys
  | _, _, _, _ => keys

def fetchJwks (answer : JwksAnswer) : Result (String → Option Key) :=
  match answer with
  | .error msg => .error (.pluginRuntime msg)
  | .ok jwks   => .ok (jwks.foldl (addJwk jwt) fun _ => none)

def JwksCache.refresh (cache : JwksCache Key) (ttl : Time) (env : JwksEnv) : JwksCache Key :=
  if cache.isStale ttl env.now then
    match fetchJwks jwt env.answer with
    | .ok keys => ⟨keys, some env.fetchedAt⟩
    | .error _ => cache
  else cache

def parseAlgorithm (alg : String) : Result JwtAlgorithm :=
  match toUppercase alg with
  | "HS256" => .ok .hs256
  | "HS384" => .ok .hs384
  | "HS512" => .ok .hs512
  | "RS256" => .ok .rs256
  | "RS384" => .ok .rs384
  | "RS512" => .ok .rs512
  | other   => .error (.pluginConfigInvalid ("unsupported algorithm: " ++ other))

def isHmac (alg : String) : Bool :=
  match toUppercase alg with
  | "HS256" | "HS384" | "HS512" => true
  | _ => false

/-- The key of a `kid`. Other requests may use the cache between the two looks at it: `seen` is what
the first one finds, `held` what is there when the write lock is taken. -/
def jwksKey (seen held : JwksCache Key) (ttl : Time) (env : JwksEnv) (kid : String) : Option Key :=
  match seen.keys kid with
  | some key => some key
  | none => (held.refresh jwt ttl env).keys kid

def resolveKey (seen held : JwksCache Key) (env : JwksEnv) (header : JwtHeader)
    (config : AuthPluginConfig) : Result (Key × JwtAlgorithm) := do
  let alg ← parseAlgorithm toUppercase config.algorithm
  if isHmac toUppercase config.algorithm then
    if config.secret.isEmpty then
      .error (.pluginConfigInvalid "auth plugin: secret is required for HMAC algorithms")
    else .ok (jwt.fromSecret config.secret, alg)
  else match config.jwksUrl, config.rsaPem with
    | some _, _ => match header.kid with
      | none => .error (.pluginRuntime "JWT header missing 'kid' for JWKS lookup")
      | some kid =>
        match jwksKey jwt seen held (config.jwksCacheTtlSeconds * 1000) env kid with
        | some key => .ok (key, alg)
        | none => .error (.pluginRuntime ("JWKS key not found for kid: " ++ kid))
    | none, some pem => match jwt.fromRsaPem pem with
      | .ok key  => .ok (key, alg)
      | .error e => .error (.pluginConfigInvalid ("invalid RSA PEM: " ++ e.display))
    | none, none =>
      .error (.pluginConfigInvalid "auth plugin: rsa_pem or jwks_url is required for RS256")

structure Claims where
  iss : Option String
  aud : Option String
  exp : Option Nat
  sub : Option String

def Claims.fromMembers (members : List (String × Json)) : Option Claims := do
  let iss ← orDefault none (asOption asStr) (field members "iss")
  let aud ← orDefault none (asOption asStr) (field members "aud")
  let exp ← orDefault none (asOption asU64) (field members "exp")
  let sub ← orDefault none (asOption asStr) (field members "sub")
  some ⟨iss, aud, exp, sub⟩

/-- The first part of `decode`: the header and the signature. -/
def verifySignature (token : String) (key : Key) (options : Validation) : Except JwtError Unit :=
  if options.algorithms.any fun alg => jwt.family key != alg.family then
    .error .invalidAlgorithm
  else do
    let header ← jwt.decodeHeader token
    if options.algorithms.contains header.alg then
      let signed ← jwt.verify token key header.alg
      if signed then .ok () else .error .invalidSignature
    else .error .invalidAlgorithm

/-- `decode::<Claims>`; `jsonError` is the text of a failed deserialisation. -/
def decode (jsonError : Json → String) (token : String) (key : Key) (options : Validation)
    (now : Nat) : Except JwtError Claims := do
  verifySignature jwt token key options
  let payload ← jwt.payload token
  match payload with
  | .obj members => match Claims.fromMembers members with
    | none => .error (.malformed (jsonError payload))
    | some claims => do
      (ClaimsForValidation.fromMembers members).validate options now
      .ok claims
  | payload => .error (.malformed (jsonError payload))

/-! ### The plugin -/

def AuthPluginConfig.validate (cfg : AuthPluginConfig) : Result Unit := do
  let _ ← parseAlgorithm toUppercase cfg.algorithm
  if isHmac toUppercase cfg.algorithm then
    if cfg.requireToken && cfg.secret.isEmpty then
      .error (.pluginConfigInvalid
        "auth plugin: secret is required when require_token=true and algorithm=HS256")
  else
    if cfg.requireToken && cfg.rsaPem.isNone && cfg.jwksUrl.isNone then
      .error (.pluginConfigInvalid
        "auth plugin: rsa_pem or jwks_url is required when require_token=true and algorithm=RS256")

structure AuthPlugin (Key : Type) where
  config : AuthPluginConfig
  jwksCache : JwksCache Key

namespace AuthPlugin

variable (serdeError : Json → String)

def validateConfig (config : Json) : Result Unit :=
  match config with
  | .null  => .ok ()
  | config => match AuthPluginConfig.fromValue config with
    | none => .error (.pluginConfigInvalid (serdeError config))
    | some cfg => cfg.validate toUppercase

def configured (config : Json) : Result (AuthPlugin Key) :=
  match config with
  | .null  => .ok ⟨.default, .new⟩
  | config => match AuthPluginConfig.fromValue config with
    | none => .error (.pluginConfigInvalid (serdeError config))
    | some cfg => do
      cfg.validate toUppercase
      .ok ⟨cfg, .new⟩

def bearerToken (ctx : PluginContext) : Option String := do
  let http ← ctx.http
  let value ← http.headers.get "authorization"
  let text ← value.toStr
  let rest ← text.toList.dropPrefix? "Bearer ".toList
  some (String.ofList rest)

def validation (config : AuthPluginConfig) (alg : JwtAlgorithm) : Validation :=
  let options := Validation.new alg
  let options := match config.issuer with
    | some iss => options.setIssuer [iss]
    | none => options
  match config.audience with
  | some aud => options.setAudience [aud]
  | none => options

def unauthorized (ctx : PluginContext) (msg : String) : PluginOutcome :=
  .terminate 401 (errorBodyWithTrace ctx.traceId ConrogateError.unauthorized.code msg)

def beforeRequest (config : AuthPluginConfig) (seen held : JwksCache Key) (env : JwksEnv)
    (now : Nat) (ctx : PluginContext) : Result PluginOutcome :=
  match bearerToken ctx with
  | some token => match jwt.decodeHeader token with
    | .error e =>
      .ok (unauthorized ctx ("unauthorized: invalid token header: " ++ e.display))
    | .ok header => match resolveKey jwt toUppercase seen held env header config with
      | .error e => .ok (unauthorized ctx ("unauthorized: " ++ e.display))
      | .ok (key, alg) => match decode jwt serdeError token key (validation config alg) now with
        | .ok _    => .ok .continue_
        | .error e => .ok (unauthorized ctx ("unauthorized: " ++ e.display))
  | none =>
    if config.requireToken then .ok (unauthorized ctx "unauthorized: missing bearer token")
    else .ok .continue_

end AuthPlugin

end

/-! ### Decoded tokens -/

section

variable {Key : Type} (jwt : JwtCrate Key)

/-- The token is signed under the key, it expires and did not do so long ago, and the issuer and
the audience it names are the configured ones. It need not name any. -/
structure Unobjectionable (config : AuthPluginConfig) (token : String) (key : Key)
    (alg : JwtAlgorithm) (now : Nat) (claims : Claims) : Prop where
  family : jwt.family key = alg.family
  header : ∃ header, jwt.decodeHeader token = .ok header ∧ header.alg = alg
  signed : jwt.verify token key alg = .ok true
  payload : ∃ members, jwt.payload token = .ok (.obj members) ∧
    Claims.fromMembers members = some claims
  exp : ∃ exp, claims.exp = some exp ∧ now ≤ exp + 60
  iss : ∀ iss name, config.issuer = some iss → claims.iss = some name → name = iss
  aud : ∀ name, claims.aud = some name → config.audience = some name

structure Claims.Complete (claims : Claims) (config : AuthPluginConfig) (now : Nat) : Prop where
  exp : ∀ exp, claims.exp = some exp → now ≤ exp
  iss : config.issuer.isSome → claims.iss.isSome
  aud : config.audience.isSome → claims.aud.isSome

structure Authentic (config : AuthPluginConfig) (token : String) (key : Key) (alg : JwtAlgorithm)
    (now : Nat) : Prop where
  header : ∃ header, jwt.decodeHeader token = .ok header ∧ header.alg = alg
  signed : jwt.verify token key alg = .ok true
  payload : ∃ members, jwt.payload token = .ok (.obj members) ∧
    (∃ exp, (field members "exp").bind asU64 = some exp ∧ now ≤ exp) ∧
    (∀ iss, config.issuer = some iss → field members "iss" = some (.str iss)) ∧
    ∀ aud, config.audience = some aud → field members "aud" = some (.str aud) ∨
      ∃ items, field members "aud" = some (.arr items) ∧ .str aud ∈ items

end

/-! ### Reading claims -/

lemma orDefault_none_asOption {α : Type} {read : Json → Option α}
    {o : Option Json} {v : Option α} (h : orDefault none (asOption read) o = some v) :
    (v = none ∧ (o = none ∨ o = some .null)) ∨
      ∃ j a, o = some j ∧ read j = some a ∧ v = some a := by
  cases o with
  | none =>
    obtain rfl : none = v := some.inj h
    exact .inl ⟨rfl, .inl rfl⟩
  | some j =>
    rw [orDefault, asOption.eq_def] at h
    split at h
    · obtain rfl : none = v := some.inj h
      exact .inl ⟨rfl, .inr rfl⟩
    · obtain ⟨a, ha, rfl⟩ := map_eq_some_iff.mp h
      exact .inr ⟨j, a, rfl, ha, rfl⟩

lemma asStr_eq_some {j : Json} {s : String} : j.asStr = some s ↔ j = .str s := by
  cases j <;> simp [asStr]

section

variable {o : Option Json}

lemma read_str_iff {v : Option String} (h : orDefault none (asOption asStr) o = some v)
    (s : String) : v = some s ↔ o = some (.str s) := by
  obtain ⟨rfl, rfl | rfl⟩ | ⟨j, s', rfl, hj, rfl⟩ := orDefault_none_asOption h
  · simp
  · simp
  · simp [asStr_eq_some.mp hj]

lemma read_u64_iff {v : Option Nat} (h : orDefault none (asOption asU64) o = some v) (n : Nat) :
    v = some n ↔ o.bind asU64 = some n := by
  obtain ⟨rfl, rfl | rfl⟩ | ⟨j, m, rfl, hj, rfl⟩ := orDefault_none_asOption h
  · simp
  · simp [asU64]
  · simp [hj]

lemma names_eq {v : Option String} (h : orDefault none (asOption asStr) o = some v) :
    names o = v.elim .notPresent fun s => .parsed (.single s) := by
  obtain ⟨rfl, rfl | rfl⟩ | ⟨j, s, rfl, hj, rfl⟩ := orDefault_none_asOption h
  · rfl
  · rfl
  · rw [asStr_eq_some.mp hj]
    rfl

lemma numeric_eq_parsed_iff {v : Option Nat} (h : orDefault none (asOption asU64) o = some v)
    (n : Nat) :
    numeric o = .parsed n ↔ v = some n := by
  obtain ⟨rfl, rfl | rfl⟩ | ⟨j, m, rfl, hj, rfl⟩ := orDefault_none_asOption h
  · simp [numeric]
  · simp [numeric, asU64]
  · simp [numeric, hj]

end

open AuthPlugin

lemma validation_eq (config : AuthPluginConfig) (alg : JwtAlgorithm) :
    validation config alg = { Validation.new alg with
      iss := config.issuer.map fun iss => [iss]
      aud := config.audience.map fun aud => [aud] } := by
  rw [validation]
  cases config.issuer <;> cases config.audience <;> rfl

section
variable {claims : ClaimsForValidation} {options : Validation} {config : AuthPluginConfig}
  {alg : JwtAlgorithm}

lemma checkRequired_eq_ok_iff :
    claims.checkRequired (validation config alg) = .ok () ↔ ∃ exp, claims.exp = .parsed exp := by
  rw [validation_eq, checkRequired]
  cases hexp : claims.exp <;>
    simp [Validation.new, present, isParsed, hexp]

lemma checkExp_eq_ok_iff {exp now : Nat} (hexp : claims.exp = .parsed exp) :
    claims.checkExp (validation config alg) now = .ok () ↔ now ≤ exp + 60 := by
  rw [validation_eq, checkExp, hexp]
  simp only [Validation.new, Bool.true_and]
  split_ifs with hlate
  · have hexpired : ¬ now ≤ exp + 60 := by
      have := of_decide_eq_true hlate
      omega
    simp [hexpired]
  · have hvalid : now ≤ exp + 60 := by
      have := of_decide_eq_false (Bool.eq_false_iff.mpr hlate)
      omega
    simp [hvalid]

lemma checkIss_eq_ok_iff {name : Option String}
    (hiss : claims.iss = name.elim .notPresent fun s => .parsed (.single s)) :
    claims.checkIss (validation config alg) = .ok () ↔
      ∀ iss s, config.issuer = some iss → name = some s → s = iss := by
  rw [validation_eq, checkIss, hiss]
  cases name with
  | none => simp
  | some s => cases config.issuer <;> simp [Names.meets]

lemma checkAud_eq_ok_iff {name : Option String}
    (haud : claims.aud = name.elim .notPresent fun s => .parsed (.single s)) :
    claims.checkAud (validation config alg) = .ok () ↔
      ∀ s, name = some s → config.audience = some s := by
  rw [validation_eq, checkAud, haud]
  cases name with
  | none => simp [Validation.new]
  | some s => cases config.audience <;> simp [Names.meets, Validation.new, eq_comm]

end
section

variable {members : List (String × Json)} {claims : Claims}
  (h : Claims.fromMembers members = some claims)
include h

lemma Claims.fromMembers_eq_some :
    orDefault none (asOption asStr) (field members "iss") = some claims.iss ∧
    orDefault none (asOption asStr) (field members "aud") = some claims.aud ∧
    orDefault none (asOption asU64) (field members "exp") =
      some claims.exp := by
  simp only [Claims.fromMembers, bind_eq_bind, bind_eq_some_iff] at h
  obtain ⟨iss, hiss, aud, haud, exp, hexp, sub, -, heq⟩ := h
  cases heq
  exact ⟨hiss, haud, hexp⟩

lemma validate_eq_ok_iff {config : AuthPluginConfig} {alg : JwtAlgorithm} {now : Nat} :
    (fromMembers members).validate (validation config alg) now = .ok () ↔
      (∃ exp, claims.exp = some exp ∧ now ≤ exp + 60) ∧
      (∀ iss s, config.issuer = some iss → claims.iss = some s → s = iss) ∧
      ∀ s, claims.aud = some s → config.audience = some s := by
  obtain ⟨hiss, haud, hexp⟩ := Claims.fromMembers_eq_some h
  have hexp := numeric_eq_parsed_iff hexp
  rw [validate]
  simp only [bind_eq_ok]
  constructor
  · rintro ⟨⟨⟩, hrequired, ⟨⟩, hlate, ⟨⟩, hissuer, haudience⟩
    obtain ⟨exp, hparsed⟩ := checkRequired_eq_ok_iff.mp hrequired
    exact ⟨⟨exp, (hexp exp).mp hparsed, (checkExp_eq_ok_iff hparsed).mp hlate⟩,
      (checkIss_eq_ok_iff (names_eq hiss)).mp hissuer,
      (checkAud_eq_ok_iff (names_eq haud)).mp haudience⟩
  · rintro ⟨⟨exp, hsome, hlate⟩, hissuer, haudience⟩
    have hparsed := (hexp exp).mpr hsome
    exact ⟨(), checkRequired_eq_ok_iff.mpr ⟨exp, hparsed⟩, (),
      (checkExp_eq_ok_iff hparsed).mpr hlate, (),
      (checkIss_eq_ok_iff (names_eq hiss)).mpr hissuer,
      (checkAud_eq_ok_iff (names_eq haud)).mpr haudience⟩

end

section

variable {Key : Type} {jwt : JwtCrate Key} {jsonError : Json → String} {config : AuthPluginConfig}
  {token : String} {key : Key} {alg : JwtAlgorithm} {now : Nat}

lemma verifySignature_eq_ok_iff :
    verifySignature jwt token key (validation config alg) = .ok () ↔
      jwt.family key = alg.family ∧
      (∃ header, jwt.decodeHeader token = .ok header ∧ header.alg = alg) ∧
      jwt.verify token key alg = .ok true := by
  have halgorithms : (validation config alg).algorithms = [alg] := by
    rw [validation_eq]
    rfl
  rw [verifySignature, halgorithms]
  by_cases hfamily : jwt.family key = alg.family
  · simp only [List.any_cons, List.any_nil, hfamily, bne_self_eq_false, Bool.or_false,
      Bool.false_eq_true, if_false, bind_eq_ok, true_and]
    constructor
    · rintro ⟨header, hheader, h⟩
      split_ifs at h with halg
      · obtain ⟨signed, hsigned, h⟩ := bind_eq_ok.mp h
        obtain rfl : header.alg = alg := by simpa using halg
        cases signed with
        | true => exact ⟨⟨header, hheader, rfl⟩, hsigned⟩
        | false => cases h
    · rintro ⟨⟨header, hheader, rfl⟩, hsigned⟩
      refine ⟨header, hheader, ?_⟩
      rw [if_pos (by simp)]
      exact bind_eq_ok.mpr ⟨true, hsigned, rfl⟩
  · simp [hfamily]

lemma decode_isOk_iff :
    (∃ claims, decode jwt jsonError token key (validation config alg) now = .ok claims) ↔
      ∃ claims, Unobjectionable jwt config token key alg now claims := by
  simp only [decode, bind_eq_ok]
  constructor
  · rintro ⟨claims, ⟨⟩, hsignature, payload, hpayload, h⟩
    obtain ⟨hfamily, hheader, hsigned⟩ := verifySignature_eq_ok_iff.mp hsignature
    cases payload with
    | obj members =>
      cases hclaims : Claims.fromMembers members with
      | none => simp [hclaims] at h
      | some claims' =>
        simp only [hclaims, bind_eq_ok] at h
        obtain ⟨⟨⟩, hvalid, -⟩ := h
        obtain ⟨hexp, hiss, haud⟩ := (validate_eq_ok_iff hclaims).mp hvalid
        exact ⟨claims', hfamily, hheader, hsigned, ⟨members, hpayload, hclaims⟩, hexp, hiss, haud⟩
    | null | bool | num | str | arr => cases h
  · rintro ⟨claims, hfamily, hheader, hsigned, ⟨members, hpayload, hclaims⟩, hexp, hiss, haud⟩
    refine ⟨claims, (), verifySignature_eq_ok_iff.mpr ⟨hfamily, hheader, hsigned⟩, .obj members,
      hpayload, ?_⟩
    simp only [hclaims, bind_eq_ok, and_true]
    exact ⟨(), (validate_eq_ok_iff hclaims).mpr ⟨hexp, hiss, haud⟩⟩

lemma Unobjectionable.authentic_iff {claims : Claims}
    (h : Unobjectionable jwt config token key alg now claims) :
    Authentic jwt config token key alg now ↔ claims.Complete config now := by
  obtain ⟨members, hpayload, hclaims⟩ := h.payload
  obtain ⟨hiss, haud, hexp⟩ := Claims.fromMembers_eq_some hclaims
  constructor
  · rintro ⟨-, -, members', hpayload', ⟨exp, hfield, hnow⟩, hissuer, haudience⟩
    obtain rfl : members = members' := by
      rw [hpayload] at hpayload'
      cases hpayload'
      rfl
    refine ⟨?_, ?_, ?_⟩
    · intro exp' hexp'
      rw [read_u64_iff hexp, hfield] at hexp'
      exact some.inj hexp' ▸ hnow
    · intro hsome
      obtain ⟨iss, hiss'⟩ := isSome_iff_exists.mp hsome
      rw [(read_str_iff hiss iss).mpr (hissuer iss hiss')]
      rfl
    · intro hsome
      obtain ⟨aud, haud'⟩ := isSome_iff_exists.mp hsome
      obtain hname | ⟨items, hitems, -⟩ := haudience aud haud'
      · rw [(read_str_iff haud aud).mpr hname]
        rfl
      · rw [hitems] at haud
        cases haud
  · rintro ⟨hnow, hissuer, haudience⟩
    refine ⟨h.header, h.signed, members, hpayload, ?_, ?_, ?_⟩
    · obtain ⟨exp, hsome, -⟩ := h.exp
      exact ⟨exp, (read_u64_iff hexp exp).mp hsome, hnow exp hsome⟩
    · intro iss hiss'
      obtain ⟨name, hname⟩ := isSome_iff_exists.mp (hissuer (by simp [hiss']))
      obtain rfl := h.iss iss name hiss' hname
      exact (read_str_iff hiss name).mp hname
    · intro aud haud'
      obtain ⟨name, hname⟩ := isSome_iff_exists.mp (haudience (by simp [haud']))
      obtain rfl : aud = name := by
        have hsame := h.aud name hname
        rw [haud'] at hsame
        exact some.inj hsame
      exact .inl ((read_str_iff haud aud).mp hname)

end

/-! ### Requests with a token -/

namespace AuthPlugin

section

variable {Key : Type} {jwt : JwtCrate Key} {toUppercase : String → String}
  {serdeError : Json → String} {config : AuthPluginConfig} {seen held : JwksCache Key}
  {env : JwksEnv} {now : Nat} {ctx : PluginContext} {token : String}

lemma beforeRequest_eq_continue_iff (htoken : bearerToken ctx = some token) :
    beforeRequest jwt toUppercase serdeError config seen held env now ctx = .ok .continue_ ↔
      ∃ header key alg claims, jwt.decodeHeader token = .ok header ∧
        resolveKey jwt toUppercase seen held env header config = .ok (key, alg) ∧
        Unobjectionable jwt config token key alg now claims := by
  simp only [beforeRequest, htoken]
  cases hheader : jwt.decodeHeader token with
  | error e => simp [unauthorized]
  | ok header =>
    cases hkey : resolveKey jwt toUppercase seen held env header config with
    | error e => simp [hkey, unauthorized]
    | ok resolved =>
      obtain ⟨key, alg⟩ := resolved
      have hdecode : (∃ claims, decode jwt serdeError token key (validation config alg) now =
          .ok claims) ↔ ∃ claims, Unobjectionable jwt config token key alg now claims :=
        decode_isOk_iff
      cases hclaims : decode jwt serdeError token key (validation config alg) now with
      | ok claims =>
        simp only [hclaims, Except.ok.injEq, exists_eq', true_iff] at hdecode
        obtain ⟨claims', h⟩ := hdecode
        simp only [hkey, hclaims, true_iff]
        exact ⟨header, key, alg, claims', rfl, hkey, h⟩
      | error e =>
        simp only [hclaims, reduceCtorEq, exists_false, false_iff] at hdecode
        simp only [hkey, hclaims, unauthorized, Except.ok.injEq, reduceCtorEq, false_iff]
        rintro ⟨header', key', alg', claims, hheader', hkey', h⟩
        cases hheader'
        rw [hkey] at hkey'
        cases hkey'
        exact hdecode ⟨claims, h⟩

lemma parseAlgorithm_of_resolveKey {header : JwtHeader} {key : Key} {alg : JwtAlgorithm}
    (h : resolveKey jwt toUppercase seen held env header config = .ok (key, alg)) :
    parseAlgorithm toUppercase config.algorithm = .ok alg := by
  obtain ⟨alg', hparse, h⟩ := bind_eq_ok.mp h
  suffices halg : alg' = alg by rw [← halg, hparse]
  split_ifs at h
  · cases h
    rfl
  · split at h
    · split at h
      · cases h
      · split at h
        · cases h
          rfl
        · cases h
    · split at h
      · cases h
        rfl
      · cases h
    · cases h

lemma exists_configured (Key : Type) {config : Json}
    (hvalid : validateConfig toUppercase serdeError config = .ok ()) :
    ∃ plugin : AuthPlugin Key, configured toUppercase serdeError config = .ok plugin := by
  cases hcfg : AuthPluginConfig.fromValue config with
  | none => cases config <;> simp_all [validateConfig, configured]
  | some cfg =>
    have hvalidate : config ≠ .null → cfg.validate toUppercase = .ok () := by
      intro hnull
      cases config <;> simp_all [validateConfig]
    cases config <;> simp_all [configured, bind, Except.bind]

def signedCrate (claims : List (String × Json)) : JwtCrate String where
  fromSecret := id
  fromRsaPem := .ok
  fromRsaComponents n e := .ok (n ++ e)
  family _ := .hmac
  decodeHeader _ := .ok ⟨.hs256, none⟩
  verify _ _ _ := .ok true
  payload _ := .ok (.obj claims)

def strictConfig : Json :=
  .obj [("secret", .str "k"), ("issuer", .str "https://id"), ("audience", .str "api")]

def strictPlugin : AuthPlugin String :=
  ⟨⟨"HS256", "k", none, none, 300, some "https://id", some "api", true⟩, .new⟩

def tokenRequest : PluginContext :=
  .of "1.2.3.4"
    (some ⟨"GET", "/", fun _ => none, [("authorization", .ofString "Bearer a.b.c")], none⟩)

lemma bearerToken_tokenRequest : bearerToken tokenRequest = some "a.b.c" := by decide +kernel

/-- The outcome for a token with these claims, under a configuration that asks for an issuer and an
audience. -/
def strictOutcome (claims : List (String × Json)) : Result PluginOutcome :=
  beforeRequest (signedCrate claims) id (fun _ => "") strictPlugin.config .new .new ⟨0, .ok [], 0⟩
    1000 tokenRequest

/-- What the plugin lets pass is authentic, exactly if the token leaves nothing out that would have
to be there and is not in the leeway, or there is another objection to it. -/
theorem continue_authentic_iff (jwt : JwtCrate Key) (toUppercase : String → String)
    (serdeError : Json → String) (config : Json)
    (hvalid : validateConfig toUppercase serdeError config = .ok ()) :
    ∃ plugin : AuthPlugin Key, configured toUppercase serdeError config = .ok plugin ∧
      ∀ seen held env now ctx token, bearerToken ctx = some token →
        ((beforeRequest jwt toUppercase serdeError plugin.config seen held env now ctx =
            .ok .continue_ →
          ∃ header key alg, jwt.decodeHeader token = .ok header ∧
            resolveKey jwt toUppercase seen held env header plugin.config = .ok (key, alg) ∧
            parseAlgorithm toUppercase plugin.config.algorithm = .ok alg ∧
            Authentic jwt plugin.config token key alg now) ↔
        ∀ header key alg claims, jwt.decodeHeader token = .ok header →
          resolveKey jwt toUppercase seen held env header plugin.config = .ok (key, alg) →
          Unobjectionable jwt plugin.config token key alg now claims →
          claims.Complete plugin.config now) := by
  obtain ⟨plugin, hplugin⟩ := exists_configured Key hvalid
  refine ⟨plugin, hplugin, ?_⟩
  intro seen held env now ctx token htoken
  rw [beforeRequest_eq_continue_iff htoken]
  constructor
  · intro hsound header key alg claims hheader hkey h
    obtain ⟨header', key', alg', hheader', hkey', -, hauthentic⟩ :=
      hsound ⟨header, key, alg, claims, hheader, hkey, h⟩
    rw [hheader] at hheader'
    cases hheader'
    rw [hkey] at hkey'
    cases hkey'
    exact h.authentic_iff.mp hauthentic
  · rintro hcomplete ⟨header, key, alg, claims, hheader, hkey, h⟩
    exact ⟨header, key, alg, hheader, hkey, parseAlgorithm_of_resolveKey hkey,
      h.authentic_iff.mpr (hcomplete header key alg claims hheader hkey h)⟩

end

theorem continue_authentic_full_token :
    let claims := [("exp", .num 2000), ("iss", .str "https://id"), ("aud", .str "api")]
    validateConfig id (fun _ => "") strictConfig = .ok () ∧
    configured id (fun _ => "") strictConfig = .ok strictPlugin ∧
    strictOutcome claims = .ok .continue_ ∧
    ∃ key alg, Authentic (signedCrate claims) strictPlugin.config "a.b.c" key alg 1000 := by
  intro claims
  obtain ⟨plugin, hplugin, hiff⟩ :=
    continue_authentic_iff (signedCrate claims) id (fun _ => "") strictConfig rfl
  obtain rfl : strictPlugin = plugin := Except.ok.inj hplugin
  refine ⟨rfl, rfl, rfl, ?_⟩
  obtain ⟨-, key, alg, -, -, -, hauthentic⟩ :=
    (hiff .new .new ⟨0, .ok [], 0⟩ 1000 tokenRequest "a.b.c" bearerToken_tokenRequest).mpr (by
      intro header key alg claims _ _ h
      obtain ⟨members, hpayload, hclaims⟩ := h.payload
      cases hpayload
      cases hclaims
      refine ⟨?_, fun _ => rfl, fun _ => rfl⟩
      rintro exp ⟨⟩
      decide) rfl
  exact ⟨key, alg, hauthentic⟩

/-- Tokens that pass although they do not name the issuer, do not name the audience, or have
expired ten seconds ago. -/
theorem continue_without_issuer :
    validateConfig id (fun _ => "") strictConfig = .ok () ∧
    configured id (fun _ => "") strictConfig = .ok strictPlugin ∧
    ∀ claims ∈ [[("exp", .num 2000), ("aud", .str "api")],
        [("exp", .num 2000), ("iss", .str "https://id")],
        [("exp", .num 990), ("iss", .str "https://id"), ("aud", .str "api")]],
      strictOutcome claims = .ok .continue_ ∧
      ∀ key alg, ¬ Authentic (signedCrate claims) strictPlugin.config "a.b.c" key alg 1000 := by
  refine ⟨rfl, rfl, ?_⟩
  simp only [List.forall_mem_cons, List.not_mem_nil, false_imp_iff, implies_true, and_true]
  refine ⟨⟨rfl, ?_⟩, ⟨rfl, ?_⟩, ⟨rfl, ?_⟩⟩
  · rintro key alg ⟨-, -, members, hpayload, -, hiss, -⟩
    cases hpayload
    cases hiss "https://id" rfl
  · rintro key alg ⟨-, -, members, hpayload, -, -, haud⟩
    cases hpayload
    obtain hname | ⟨items, hitems, -⟩ := haud "api" rfl
    · cases hname
    · cases hitems
  · rintro key alg ⟨-, -, members, hpayload, ⟨exp, hexp, hnow⟩, -, -⟩
    cases hpayload
    cases hexp
    exact absurd hnow (by decide)

end AuthPlugin

end Conrogate
