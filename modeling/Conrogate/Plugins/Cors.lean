import Conrogate.Plugins.Framework

/-!
# The `cors` plugin

A preflight request is answered at once; any other response gets its headers on the way back. The
decision about the origin guards `Access-Control-Allow-Origin` alone.
-/

namespace Conrogate

open HeaderMap HeaderValue Option

structure CorsPluginConfig where
  allowOrigins : List String
  allowMethods : List String
  allowHeaders : List String
  exposeHeaders : List String
  allowCredentials : Bool
  maxAgeSeconds : Nat

def PluginContext.requestOrigin (ctx : PluginContext) : Option String :=
  ctx.http.bind fun http => (http.headers.get "origin").bind HeaderValue.toStr

def PluginContext.isPreflight (ctx : PluginContext) : Bool := ctx.http.any (·.method == "OPTIONS")

namespace CorsPluginConfig

variable (config : CorsPluginConfig)

def resolveOrigin (requestOrigin : Option String) : Option String :=
  if config.allowOrigins.contains "*" then some "*"
  else requestOrigin.filter fun origin => config.allowOrigins.contains origin

def insertOrigin (requestOrigin : Option String) (headers : HeaderMap) : HeaderMap :=
  match config.resolveOrigin requestOrigin with
  | some origin => headers.insertText "access-control-allow-origin" origin
  | none => headers

def insertCredentials (headers : HeaderMap) : HeaderMap :=
  if config.allowCredentials then headers.insertText "access-control-allow-credentials" "true"
  else headers

def insertExposed (headers : HeaderMap) : HeaderMap :=
  if config.exposeHeaders.isEmpty then headers
  else headers.insertText "access-control-expose-headers" (", ".intercalate config.exposeHeaders)

def preflightHeaders (requestOrigin : Option String) (headers : HeaderMap) : HeaderMap :=
  let headers := config.insertOrigin requestOrigin headers
  let headers := headers.insertText "access-control-allow-methods"
    (", ".intercalate config.allowMethods)
  let headers := headers.insertText "access-control-allow-headers"
    (", ".intercalate config.allowHeaders)
  let headers := headers.insertText "access-control-max-age" (toString config.maxAgeSeconds)
  config.insertCredentials headers

def beforeRequest (ctx : PluginContext) : PluginContext × PluginOutcome :=
  if ctx.isPreflight then
    ({ ctx with
        responseHeaders := config.preflightHeaders ctx.requestOrigin ctx.responseHeaders },
      .terminate 204 .null)
  else (ctx, .continue_)

def afterResponse (ctx : PluginContext) (resp : PluginResponse) : PluginResponse :=
  let headers := config.insertCredentials (config.insertOrigin ctx.requestOrigin resp.headers)
  { resp with headers := config.insertExposed headers }

/-- Whatever headers the answer has, the hooks leave them as they are. -/
def Silent (ctx : PluginContext) : Prop :=
  (∀ headers name, HeaderMap.getAll
    (config.beforeRequest { ctx with responseHeaders := headers }).1.responseHeaders name =
      headers.getAll name) ∧
  ∀ resp name, (config.afterResponse ctx resp).headers.getAll name = resp.headers.getAll name

/-- The answer allows the origin and no other. -/
def Echoes (ctx : PluginContext) (origin : String) : Prop :=
  (ctx.isPreflight = true → (config.beforeRequest ctx).1.responseHeaders.getAll
    "access-control-allow-origin" = [.ofString origin]) ∧
  ∀ resp, (config.afterResponse ctx resp).headers.getAll "access-control-allow-origin" =
    [.ofString origin]

def Allowed (ctx : PluginContext) : Prop :=
  ∃ origin ∈ config.allowOrigins, ctx.requestOrigin = some origin

/-- Nothing but the origin and the type of the request keeps the plugin from writing. -/
def Plain (ctx : PluginContext) : Prop :=
  ctx.isPreflight = false ∧ config.allowCredentials = false ∧
    (config.exposeHeaders = [] ∨
      HeaderValue.parse (", ".intercalate config.exposeHeaders) = none)

variable {config} {ctx : PluginContext} {name : String}

lemma getAll_insertCredentials (h : "access-control-allow-credentials" ≠ name) (headers : HeaderMap)
    :
    (config.insertCredentials headers).getAll name = headers.getAll name := by
  rw [insertCredentials]
  split_ifs
  · exact getAll_insertText_of_ne _ h _
  · rfl

lemma getAll_insertExposed (h : "access-control-expose-headers" ≠ name) (headers : HeaderMap) :
    (config.insertExposed headers).getAll name = headers.getAll name := by
  rw [insertExposed]
  split_ifs
  · rfl
  · exact getAll_insertText_of_ne _ h _

lemma responseHeaders_beforeRequest (headers : HeaderMap) :
    (config.beforeRequest { ctx with responseHeaders := headers }).1.responseHeaders =
      if ctx.isPreflight then config.preflightHeaders ctx.requestOrigin headers else headers :=
  apply_ite (fun r : PluginContext × PluginOutcome => r.1.responseHeaders) ..

lemma getAll_maxAge (origin : Option String) (headers : HeaderMap) :
    (config.preflightHeaders origin headers).getAll "access-control-max-age" =
      [.ofString (toString config.maxAgeSeconds)] := by
  rw [preflightHeaders, getAll_insertCredentials (by decide)]
  exact getAll_insertText_self _
    (parse_of_isVisible (isVisible_toString _)) _

section

variable (hstar : "*" ∉ config.allowOrigins)
include hstar

lemma insertOrigin_of_not_allowed (h : ¬ config.Allowed ctx) (headers : HeaderMap) :
    config.insertOrigin ctx.requestOrigin headers = headers := by
  have hnone : config.resolveOrigin ctx.requestOrigin = none := by
    rw [resolveOrigin, if_neg (by simpa using hstar), filter_eq_none_iff]
    intro origin horigin hmem
    exact h ⟨origin, by simpa using hmem, horigin⟩
  rw [insertOrigin, hnone]

section

variable {origin : String} (hmem : origin ∈ config.allowOrigins)
  (h : ctx.requestOrigin = some origin)
include hmem h

lemma getAll_insertOrigin (headers : HeaderMap) :
    (config.insertOrigin ctx.requestOrigin headers).getAll "access-control-allow-origin" =
      [.ofString origin] := by
  have hsome : config.resolveOrigin ctx.requestOrigin = some origin := by
    rw [resolveOrigin, if_neg (by simpa using hstar), h]
    simp [hmem]
  obtain ⟨http, -, h⟩ := bind_eq_some_iff.mp h
  obtain ⟨v, -, hv⟩ := bind_eq_some_iff.mp h
  rw [insertOrigin, hsome]
  exact getAll_insertText_self _
    (parse_of_isVisible (isVisible_of_toStr hv)) _

lemma echoes_of_allowed : config.Echoes ctx origin := by
  constructor
  · intro hpre
    rw [beforeRequest, if_pos hpre, preflightHeaders, getAll_insertCredentials (by decide),
      getAll_insertText_of_ne _ (by decide),
      getAll_insertText_of_ne _ (by decide),
      getAll_insertText_of_ne _ (by decide), getAll_insertOrigin hstar hmem h]
  · intro resp
    rw [afterResponse, getAll_insertExposed (by decide), getAll_insertCredentials (by decide),
      getAll_insertOrigin hstar hmem h]

end

lemma silent_iff (h : ¬ config.Allowed ctx) : config.Silent ctx ↔ config.Plain ctx := by
  simp only [Silent, responseHeaders_beforeRequest, afterResponse,
    insertOrigin_of_not_allowed hstar h]
  constructor
  · rintro ⟨hbefore, hafter⟩
    refine ⟨Bool.eq_false_of_not_eq_true fun hpre => ?_, ?_, ?_⟩
    · have hage := hbefore [] "access-control-max-age"
      rw [if_pos hpre, getAll_maxAge] at hage
      cases hage
    · by_contra hcredentials
      have hwritten := hafter ⟨200, [], []⟩ "access-control-allow-credentials"
      rw [getAll_insertExposed (by decide), insertCredentials, if_pos (by simpa using hcredentials)]
        at hwritten
      exact absurd hwritten (by decide +kernel)
    · by_contra hexpose
      rw [not_or] at hexpose
      obtain ⟨v, hv⟩ := ne_none_iff_exists'.mp hexpose.2
      have hwritten := hafter ⟨200, [], []⟩ "access-control-expose-headers"
      rw [insertExposed, if_neg (mt List.isEmpty_iff.mp hexpose.1),
        getAll_insertText_self _ hv] at hwritten
      cases hwritten
  · rintro ⟨hpre, hcredentials, hexpose⟩
    refine ⟨fun headers name => by rw [hpre]; rfl, fun resp name => ?_⟩
    have hkept : config.insertCredentials resp.headers = resp.headers :=
      if_neg (by simp [hcredentials])
    rw [hkept, insertExposed]
    obtain hempty | hillegal := hexpose
    · rw [if_pos (List.isEmpty_iff.mpr hempty)]
    · rw [insertText, hillegal, ite_self]

end

/-- With a configuration without `*`, the plugin is silent about an origin that is not on the list,
and names one that is, exactly for requests with an origin on the list, and for requests other than
preflights where there are neither credentials nor exposed headers to write. -/
theorem cors_guarded_iff (config : CorsPluginConfig) (hstar : "*" ∉ config.allowOrigins)
    (ctx : PluginContext) :
    ((¬ config.Allowed ctx → config.Silent ctx) ∧
      ∀ origin ∈ config.allowOrigins, ctx.requestOrigin = some origin →
        config.Echoes ctx origin) ↔ config.Allowed ctx ∨ config.Plain ctx := by
  rw [and_iff_left fun origin hmem h => echoes_of_allowed hstar hmem h, or_iff_not_imp_left]
  exact imp_congr_right (silent_iff hstar)

theorem cors_guarded_without_origin :
    let config : CorsPluginConfig := ⟨["https://a"], ["GET"], [], [], false, 60⟩
    let ctx := PluginContext.of "1.2.3.4" (some ⟨"GET", "/", fun _ => none, [], none⟩)
    ¬ config.Allowed ctx → config.Silent ctx := by
  intro config ctx
  exact ((cors_guarded_iff config (by simp [config]) ctx).mpr (.inr ⟨rfl, rfl, .inl rfl⟩)).1

/-- A preflight from an origin that is not on the list is answered with the methods, the headers
and the credentials, an ordinary request with the credentials. -/
theorem cors_answers_unlisted_origin :
    let config : CorsPluginConfig := ⟨["https://a"], ["GET"], [], [], true, 60⟩
    let ctx (method : String) := PluginContext.of "1.2.3.4"
      (some ⟨method, "/", fun _ => none, [("origin", .ofString "https://b")], none⟩)
    (config.beforeRequest (ctx "OPTIONS")).1.responseHeaders =
      [("access-control-allow-methods", .ofString "GET"),
        ("access-control-allow-headers", .ofString ""),
        ("access-control-max-age", .ofString "60"),
        ("access-control-allow-credentials", .ofString "true")] ∧
      (config.afterResponse (ctx "GET") ⟨200, [], []⟩).headers =
        [("access-control-allow-credentials", .ofString "true")] := by
  decide +kernel

end CorsPluginConfig

end Conrogate
