import Conrogate.Plugins.Framework
import Conrogate.Protocol.RealIp

/-!
# The `ip_allow_deny` plugin

Access control by client address: a deny list that always wins, and an allow list that, if there
is one, has to contain the client.
-/

namespace Conrogate

variable {Net : Type} (net : IpNetCrate Net)

structure IpAllowDenyConfig where
  allow : List String
  deny : List String
deriving DecidableEq, Repr

open IpAllowDenyConfig

def stringsOrDefault : Option Json → Option (List String)
  | none   => some []
  | some j => j.asStrings

def IpAllowDenyConfig.fromValue : Json → Option IpAllowDenyConfig
  | .obj members => do
    let allow ← stringsOrDefault (Json.field members "allow")
    let deny ← stringsOrDefault (Json.field members "deny")
    some ⟨allow, deny⟩
  | .arr items => do
    let allow ← stringsOrDefault items[0]?
    let deny ← stringsOrDefault items[1]?
    if items.length ≤ 2 then some ⟨allow, deny⟩ else none
  | _ => none

def IpAllowDenyConfig.validateCfg (cfg : IpAllowDenyConfig) : Result Unit :=
  if cfg.allow.isEmpty && cfg.deny.isEmpty then
    .error (.pluginConfigInvalid "ip_allow_deny: allow and deny cannot both be empty")
  else match (cfg.allow ++ cfg.deny).find? fun e => (parseIpOrCidr net e.toList).isNone with
    | some entry => .error (.pluginConfigInvalid s!"ip_allow_deny: invalid ip or cidr: {entry}")
    | none => .ok ()

structure IpAllowDenyPlugin (Net : Type) where
  allow : List Net
  deny : List Net

open IpAllowDenyPlugin

def IpAllowDenyConfig.compile (cfg : IpAllowDenyConfig) : IpAllowDenyPlugin Net where
  allow := cfg.allow.filterMap fun s => parseIpOrCidr net s.toList
  deny := cfg.deny.filterMap fun s => parseIpOrCidr net s.toList

namespace IpAllowDenyPlugin

variable (serdeError : Json → String)

def validateConfig (config : Json) : Result Unit :=
  match config with
  | .null => .ok ()
  | config => match fromValue config with
    | none => .error (.pluginConfigInvalid (serdeError config))
    | some cfg => cfg.validateCfg net

def configured (config : Json) : Result (IpAllowDenyPlugin Net) :=
  match config with
  | .null => .ok ⟨[], []⟩
  | config => match fromValue config with
    | none => .error (.pluginConfigInvalid (serdeError config))
    | some cfg => do
      cfg.validateCfg net
      .ok (cfg.compile net)

def decide (plugin : IpAllowDenyPlugin Net) (clientIp : String) (traceId : String) :
    Option Json := do
  let ip ← parseIpOrCidr net clientIp.toList
  let denied := (plugin.deny.any fun n => net.containsNet n ip) ||
    (!plugin.allow.isEmpty && !(plugin.allow.any fun n => net.containsNet n ip))
  if denied then
    some (errorBodyWithTrace traceId ConrogateError.forbidden.code "forbidden: ip not allowed")
  else none

def hook (plugin : IpAllowDenyPlugin Net) (ctx : PluginContext) :
    Result PluginOutcome :=
  match plugin.decide net ctx.clientIp ctx.traceId with
  | some body => .ok (.terminate 403 body)
  | none => .ok .continue_

def beforeRequest (plugin : IpAllowDenyPlugin Net) (ctx : PluginContext) :
    Result PluginOutcome :=
  plugin.hook net ctx

def onConnect (plugin : IpAllowDenyPlugin Net) (ctx : PluginContext) :
    Result PluginOutcome :=
  plugin.hook net ctx

end IpAllowDenyPlugin

/-! ### What the lists mean -/

def InSomeNetwork {α : Type} (contains : Net → α → Bool) (entries : List String) (x : α) : Prop :=
  ∃ e ∈ entries, ∃ n, parseIpOrCidr net e.toList = some n ∧ contains n x = true

def IpAllowDenyConfig.Permits (cfg : IpAllowDenyConfig) (a : IpAddr) : Prop :=
  ¬ InSomeNetwork net net.containsAddr cfg.deny a ∧
    (cfg.allow ≠ [] → InSomeNetwork net net.containsAddr cfg.allow a)

def DenotesAddr (s : String) : Prop := ∃ a, parseIpAddr (trim s.toList) = some a

def IpAllowDenyConfig.RefusesNetworkText (cfg : IpAllowDenyConfig) (s : String) : Prop :=
  ∃ m, net.fromStr (trim s.toList) = some m ∧
    (InSomeNetwork net net.containsNet cfg.deny m ∨
      (cfg.allow ≠ [] ∧ ¬ InSomeNetwork net net.containsNet cfg.allow m))

/-! ### Accepted configurations -/

lemma any_filterMap_iff {α : Type} (contains : Net → α → Bool) (entries : List String) (x : α) :
    ((entries.filterMap fun s => parseIpOrCidr net s.toList).any fun n => contains n x) = true ↔
      InSomeNetwork net contains entries x := by
  simp only [List.any_eq_true, List.mem_filterMap, InSomeNetwork]
  constructor
  · rintro ⟨n, ⟨e, he, hn⟩, hx⟩
    exact ⟨e, he, n, hn, hx⟩
  · rintro ⟨e, he, n, hn, hx⟩
    exact ⟨n, ⟨e, he, hn⟩, hx⟩

lemma allow_isEmpty_compile {cfg : IpAllowDenyConfig} (h : cfg.validateCfg net = .ok ()) :
    (cfg.compile net).allow.isEmpty = cfg.allow.isEmpty := by
  have hall : ∀ e ∈ cfg.allow ++ cfg.deny, (parseIpOrCidr net e.toList).isNone = false := by
    rw [validateCfg] at h
    split_ifs at h
    split at h
    · cases h
    · rename_i hnone
      intro e he
      exact Bool.eq_false_iff.mpr (List.find?_eq_none.mp hnone e he)
  rw [compile]
  cases hallow : cfg.allow with
  | nil => rfl
  | cons e rest =>
    have he := hall e (by simp [hallow])
    cases hp : parseIpOrCidr net e.toList with
    | none => simp [hp] at he
    | some n => simp [hp]

lemma configured_of_validateConfig {serdeError : Json → String} {config : Json}
    (hnull : config ≠ .null)
    (h : validateConfig net serdeError config = .ok ()) :
    ∃ cfg, fromValue config = some cfg ∧ cfg.validateCfg net = .ok () ∧
      configured net serdeError config = .ok (cfg.compile net) := by
  cases hcfg : fromValue config with
  | none => cases config <;> simp_all [validateConfig]
  | some cfg =>
    have hv : cfg.validateCfg net = .ok () := by
      cases config <;> simp_all [validateConfig]
    refine ⟨cfg, rfl, hv, ?_⟩
    cases config <;> simp_all [configured, bind, Except.bind]

/-! ### The verdict -/

lemma hook_eq_continue_iff {cfg : IpAllowDenyConfig} (h : cfg.validateCfg net = .ok ())
    (ctx : PluginContext) :
    (cfg.compile net).hook net ctx = .ok .continue_ ↔
      ∀ m, parseIpOrCidr net ctx.clientIp.toList = some m →
        ¬ InSomeNetwork net net.containsNet cfg.deny m ∧
          (cfg.allow ≠ [] → InSomeNetwork net net.containsNet cfg.allow m) := by
  have hdeny := any_filterMap_iff net net.containsNet cfg.deny
  have hallow := any_filterMap_iff net net.containsNet cfg.allow
  have hempty := allow_isEmpty_compile net h
  cases hp : parseIpOrCidr net ctx.clientIp.toList with
  | none => simp [IpAllowDenyPlugin.hook, IpAllowDenyPlugin.decide, hp]
  | some m =>
    have hdecide : (cfg.compile net).hook net ctx = .ok .continue_ ↔
        (((cfg.compile net).deny.any fun n => net.containsNet n m) ||
          (!(cfg.compile net).allow.isEmpty &&
            !((cfg.compile net).allow.any fun n => net.containsNet n m))) = false := by
      simp only [IpAllowDenyPlugin.hook, IpAllowDenyPlugin.decide, hp, Option.bind_eq_bind,
        Option.bind_some]
      split_ifs with hd
      · simp [hd]
      · simp [hd]
    rw [hdecide, hempty]
    simp only [compile, Bool.or_eq_false_iff, Bool.and_eq_false_iff,
      Bool.not_eq_false', Option.some.injEq, forall_eq', ne_eq]
    rw [← hdeny m, ← hallow m, Bool.not_eq_true, List.isEmpty_iff]
    exact and_congr_right fun _ => or_iff_not_imp_left

variable {net} in
lemma parseIpOrCidr_of_addr (hnet : net.Lawful) {s : List Char} {a : IpAddr}
    (h : parseIpAddr (trim s) = some a) : parseIpOrCidr net s = some (net.ofAddr a) := by
  have hnone : net.fromStr (trim s) = none := by
    cases hf : net.fromStr (trim s) with
    | none => rfl
    | some n =>
      exact absurd (hnet.slash_mem_of_fromStr _ n hf) (slash_not_mem_of_parseIpAddr h)
  simp [parseIpOrCidr, hnone, h]

/-- With a configuration other than `null` that `validate_config` accepts, a request only continues
if the client's text denotes an address that is permitted, exactly when the text denotes an address,
or a network that the lists refuse. -/
theorem ipAllowDeny_sound_iff (hnet : net.Lawful) (serdeError : Json → String) (config : Json)
    (hnull : config ≠ .null)
    (haccepted : validateConfig net serdeError config = .ok ())
    (ctx : PluginContext) :
    ∃ cfg plugin, fromValue config = some cfg ∧
      configured net serdeError config = .ok plugin ∧
      ((plugin.beforeRequest net ctx = .ok .continue_ ∨
          plugin.onConnect net ctx = .ok .continue_ →
          ∃ a, parseIpAddr (trim ctx.clientIp.toList) = some a ∧ cfg.Permits net a) ↔
        DenotesAddr ctx.clientIp ∨ cfg.RefusesNetworkText net ctx.clientIp) := by
  obtain ⟨cfg, hcfg, hvalid, hconf⟩ := configured_of_validateConfig net hnull haccepted
  refine ⟨cfg, cfg.compile net, hcfg, hconf, ?_⟩
  simp only [beforeRequest, onConnect, or_self]
  rw [hook_eq_continue_iff net hvalid]
  cases haddr : parseIpAddr (trim ctx.clientIp.toList) with
  | some a =>
    -- an address is judged by itself
    rw [parseIpOrCidr_of_addr hnet haddr]
    simp only [Option.some.injEq, forall_eq', InSomeNetwork, hnet.containsNet_ofAddr]
    refine iff_of_true ?_ (.inl ⟨a, haddr⟩)
    intro h
    exact ⟨a, rfl, h⟩
  | none =>
    have hno : ¬ DenotesAddr ctx.clientIp := by
      rintro ⟨a, ha⟩
      rw [haddr] at ha
      cases ha
    simp only [hno, false_or, reduceCtorEq, false_and, exists_false, imp_false]
    cases hstr : net.fromStr (trim ctx.clientIp.toList) with
    | none =>
      -- a text that is neither address nor network always continues
      simp [parseIpOrCidr, hstr, haddr, IpAllowDenyConfig.RefusesNetworkText]
    | some m =>
      simp only [parseIpOrCidr, hstr, Option.some.injEq, forall_eq',
        IpAllowDenyConfig.RefusesNetworkText, exists_eq_left']
      rw [not_and_or, not_not, Classical.not_imp]

theorem ipAllowDeny_sound_allowed_client :
    let ctx := PluginContext.of "10.1.2.3" none
    let config : Json := .obj [("allow", .arr [.str "10.0.0.0/8"])]
    ∃ cfg plugin, fromValue config = some cfg ∧
      configured ipNetCrate (fun _ => "") config = .ok plugin ∧
      ((plugin.beforeRequest ipNetCrate ctx = .ok .continue_ ∨
          plugin.onConnect ipNetCrate ctx = .ok .continue_ →
          ∃ a, parseIpAddr (trim "10.1.2.3".toList) = some a ∧ cfg.Permits ipNetCrate a) ↔
        DenotesAddr "10.1.2.3" ∨ cfg.RefusesNetworkText ipNetCrate "10.1.2.3") :=
  ipAllowDeny_sound_iff ipNetCrate ipNetCrate_lawful (fun _ => "") _ (by simp) (by decide) _

/-- Behind a trusted proxy the client writes a word into `X-Forwarded-For`: it becomes the
client address, and the allow list lets it through. -/
theorem ipAllowDeny_continues_on_garbage :
    let config : Json := .obj [("allow", .arr [.str "10.0.0.0/8"])]
    let clientIp := resolveRealIp ipNetCrate (compileTrustedProxies ipNetCrate ["192.168.0.1"])
      "192.168.0.1" [("x-forwarded-for", .ofString "unknown")]
    let ctx := PluginContext.of clientIp none
    validateConfig ipNetCrate (fun _ => "") config = .ok () ∧
    clientIp = "unknown" ∧ parseIpAddr (trim clientIp.toList) = none ∧
    ∃ plugin, configured ipNetCrate (fun _ => "") config = .ok plugin ∧
      plugin.beforeRequest ipNetCrate ctx = .ok .continue_ := by
  refine ⟨rfl, by decide, by decide, _, rfl, rfl⟩

end Conrogate
