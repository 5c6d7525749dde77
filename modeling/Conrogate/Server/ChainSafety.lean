import Conrogate.Plugins.IpAllowDeny
import Conrogate.Server.Service
import Conrogate.Storage.Restore

/-!
# What the control plane accepts and the data plane can build

A reload builds all chains together, so one binding that its plugin rejects keeps every later
configuration out. The service stores configurations without asking the plugin.
-/

namespace Conrogate

open SoftTable Transition ControlState

variable {P : Type} (registry : PluginRegistry P)

def Accepts (pluginName : String) (config : Json) : Prop :=
  ∀ template, registry pluginName = some template → ∃ inst, template.configured config = .ok inst

def BindingRow.Sound (m : BindingRow) : Prop :=
  m.enabled = true → Accepts registry m.pluginName m.config

structure SoundBindings (rows : List BindingRow) : Prop where
  ids : (rows.map (·.id)).Nodup
  sound : ∀ m ∈ live rows, m.Sound registry

def ConfigSnapshot.Sound (S : ConfigSnapshot) : Prop :=
  ∀ b ∈ S.pluginBindings, b.enabled = true → Buildable registry b

variable {registry} {now : Time} {rows : List BindingRow}

namespace SoundBindings

lemma empty : SoundBindings registry [] := ⟨List.nodup_nil, fun _ hm => by cases hm⟩

section

variable (h : SoundBindings registry rows)
include h

lemma softDelete (p : BindingRow → Bool) :
    SoundBindings registry (softDelete now p rows) :=
  ⟨nodup_softDelete (ρ := BindingRow) h.ids, forall_live_softDelete h.sound⟩

lemma insert {make : Nat → BindingRow} (hid : ∀ i, (make i).id = i)
    (hlive : ∀ i, (make i).deletedAt = none) (hsound : ∀ i, (make i).Sound registry) :
    SoundBindings registry (insert make rows) :=
  ⟨nodup_insert (ρ := BindingRow) h.ids hid, forall_live_insert h.sound hlive hsound⟩

lemma update {f : BindingRow → BindingRow} {m : BindingRow} (hm : m ∈ rows)
    (hid : ∀ r, (f r).id = r.id) (hlive : ∀ r, (f r).deletedAt = r.deletedAt)
    (hsound : (f m).Sound registry) : SoundBindings registry (update m.id f rows) :=
  ⟨nodup_update (ρ := BindingRow) h.ids hid, forall_live_update h.sound h.ids hlive hm hsound⟩

end

end SoundBindings

/-! ### Writing a snapshot back -/

variable {S : ConfigSnapshot} {t t' : Tables}

lemma SoundBindings.upsertBinding {routeIds : IdMap} {b : PluginBindingDto}
    (hb : b.enabled = true → Buildable registry b) {s s' : List BindingRow × List (Nat × String)}
    (h : SoundBindings registry s.1) (hstep : upsertBinding now routeIds s b = .ok s') :
    SoundBindings registry s'.1 := by
  simp only [Conrogate.upsertBinding] at hstep
  split at hstep
  · cases hstep
  · rename_i routeId hroute
    cases hstep
    split
    · rename_i m hm
      obtain ⟨hlive, hkey⟩ := mem_of_selectOne hm
      have hname : m.pluginName = b.pluginName := by simpa using (Bool.and_eq_true_iff.mp hkey).2
      refine h.update (mem_live.mp hlive).1 (fun _ => rfl) (fun _ => rfl) ?_
      intro henabled
      rw [show (b.writeTo now m).pluginName = b.pluginName from hname]
      exact hb henabled
    · exact h.insert (fun _ => rfl) (fun _ => rfl) fun _ henabled => hb henabled

lemma applyRoutes_bindings (now : Time) (S : ConfigSnapshot) (t : Tables) :
    ∃ p, (applyRoutes now S t).bindings = softDelete now p t.bindings := by
  obtain ⟨-, -, hbindings⟩ := upsertUpstreams_eq now (t, fun _ => none) S.upstreams
  have hpass := upsertRoutes_eq now S.upstreams (upstreamIdMap now S t)
    (applyUpstreams now S t, fun _ => none) S.routes
  have hsame : (applyUpstreams now S t).bindings = t.bindings := hbindings
  rw [applyRoutes, upsertRoutes, hpass, dropRoutes]
  exact ⟨_, congrArg _ hsame⟩

lemma SoundBindings.applySnapshot (h : SoundBindings registry t.bindings)
    (hS : S.Sound registry) (happly : applySnapshot now S t = .ok t') :
    SoundBindings registry t'.bindings := by
  obtain ⟨p, hbefore⟩ := applyRoutes_bindings now S t
  obtain ⟨s, hloop, hdone⟩ := Proc.bind_eq_ok.mp happly
  cases hdone
  refine SoundBindings.softDelete ?_ _
  refine Proc.foldlM_invariant (I := fun s => SoundBindings registry s.1) ?_ ?_ hloop
  · intro b hb s s' hs hstep
    exact hs.upsertBinding (hS b hb) hstep
  · rw [hbefore]
    exact h.softDelete p

/-! ### Operations one after the other -/

variable (registry) in
structure ControlState.Sound (s : ControlState) : Prop where
  bindings : SoundBindings registry s.tables.bindings
  versions : ∀ v ∈ s.versions, v.snapshotContent.Sound registry

variable (registry) in
def ControlOp.Accepted (s : ControlState) (call : Time × ControlOp) : Prop :=
  match call.2 with
  | .bindPlugin _ dto => dto.enabled.getD true = true → Accepts registry dto.pluginName dto.config
  | .updatePluginBinding routeId pluginName dto =>
    ∀ m, s.tables.findBinding routeId pluginName = some m →
      dto.enabled.getD m.enabled = true → Accepts registry pluginName (dto.config.getD m.config)
  | _ => True

lemma SoundBindings.collect (h : SoundBindings registry t.bindings) :
    t.collect.Sound registry := by
  intro b hb _
  obtain ⟨m, hm, henabled, rfl⟩ := Tables.exists_of_mem_collect hb
  exact h.sound m hm henabled

lemma ConfigSnapshot.Sound.buildChains (h : S.Sound registry) :
    ∃ chains, buildChains registry S.pluginBindings = .ok chains :=
  (buildChains_isOk_iff registry S.pluginBindings).mpr h

variable {env : ControlEnv} {s s' : ControlState}

lemma ControlState.Sound.step {call : Time × ControlOp} (h : s.Sound registry)
    (hcall : ControlOp.Accepted registry s call) (hstep : controlStep env s call = some s') :
    s'.Sound registry := by
  obtain ⟨now, op⟩ := call
  obtain ⟨hexec, hadmitted⟩ := controlStep_eq_some_iff.mp hstep
  have hnew : ∀ {row : ConfigVersionRow}, row.snapshotContent.Sound registry →
      ∀ v ∈ s.versions ++ [row], v.snapshotContent.Sound registry := by
    intro row hrow v hv
    rcases List.mem_append.mp hv with hv | hv
    · exact h.versions v hv
    · rw [List.mem_singleton.mp hv]
      exact hrow
  rcases exec_cases hexec with ⟨hbindings, hversions⟩ |
    ⟨routeId, dto, now, i, rfl, hversions, hbindings⟩ |
    ⟨routeId, pluginName, dto, m, now, rfl, hm, hversions, hbindings⟩ |
    ⟨_, p, hbindings, hversions⟩ | ⟨row, hrow, htables, hversions⟩ |
    ⟨target, htarget, row, happly, hrow, hversions⟩
  · -- routes and upstreams
    exact ⟨hbindings ▸ h.bindings, hversions ▸ h.versions⟩
  · -- a new binding
    refine ⟨⟨hadmitted.bindingIds, ?_⟩, hversions ▸ h.versions⟩
    rw [hbindings, live_append, List.forall_mem_append]
    exact ⟨h.bindings.sound, List.forall_mem_singleton.mpr hcall⟩
  · -- a changed binding
    obtain ⟨hlive, hkey⟩ := mem_of_selectOne hm
    have hname : m.pluginName = pluginName := by simpa using (Bool.and_eq_true_iff.mp hkey).2
    refine ⟨?_, hversions ▸ h.versions⟩
    rw [hbindings]
    refine h.bindings.update (mem_live.mp hlive).1 (fun _ => rfl) (fun _ => rfl) ?_
    intro henabled
    rw [show (dto.writeTo now m).pluginName = pluginName from hname]
    exact hcall m hm henabled
  · -- a deleted binding
    refine ⟨?_, hversions ▸ h.versions⟩
    rw [hbindings]
    exact h.bindings.softDelete p
  · -- a published version
    refine ⟨htables ▸ h.bindings, ?_⟩
    rw [hversions]
    exact hnew (hrow ▸ h.bindings.collect)
  · -- a version written back
    have hsound := h.versions target htarget
    refine ⟨h.bindings.applySnapshot hsound happly, ?_⟩
    rw [hversions]
    exact hnew (hrow ▸ hsound)

/-- As long as enabled bindings are only given configurations that their plugins accept, the chains
of every configuration the control plane reaches can be built. -/
theorem control_run_chains_buildable (registry : PluginRegistry P) (env : ControlEnv)
    {calls : List (Time × ControlOp)} {s : ControlState}
    (haccepted : Meets (controlStep env) (ControlOp.Accepted registry)
      init calls)
    (hrun : run (controlStep env) init calls = some s) :
    (∃ chains, buildChains registry s.tables.collect.pluginBindings = .ok chains) ∧
      ∀ v ∈ s.versions,
        ∃ chains, buildChains registry v.snapshotContent.pluginBindings = .ok chains := by
  have hinit : init.Sound registry :=
    ⟨SoundBindings.empty, fun v hv => by cases hv⟩
  have hsound : s.Sound registry := by
    refine invariant_of_meets ?_ hinit haccepted hrun
    intro u call v hu hcall hstep
    exact hu.step hcall hstep
  refine ⟨hsound.bindings.collect.buildChains, ?_⟩
  intro v hv
  exact (hsound.versions v hv).buildChains

/-! ### One plugin -/

def ipRegistry : PluginRegistry (IpAllowDenyPlugin IpNet) := fun name =>
  if name == "ip_allow_deny" then
    some ⟨false, IpAllowDenyPlugin.validateConfig ipNetCrate fun _ => "",
      IpAllowDenyPlugin.configured ipNetCrate fun _ => ""⟩
  else none

def plainEnv : ControlEnv := ⟨fun _ => "", "", "", .postgres⟩

def usersRoute : CreateRouteDto :=
  ⟨"users", .http, ⟨.exact "/users", none, none, [], []⟩, none, none, none, none, none, none⟩

def rollbackCalls : List (Time × ControlOp) :=
  [(0, .createRoute usersRoute),
    (1, .bindPlugin 1
      ⟨"ip_allow_deny", .obj [("deny", .arr [.str "10.0.0.1"])], none, none, none⟩),
    (2, .publishConfig 0 none none),
    (3, .updatePluginBinding 1 "ip_allow_deny" ⟨some (.obj []), none, none, some false⟩),
    (4, .rollbackConfig 1 none)]

theorem control_run_chains_buildable_rollback :
    ∃ s, run (controlStep plainEnv) init rollbackCalls = some s ∧
      (∃ chains, buildChains ipRegistry s.tables.collect.pluginBindings = .ok chains) ∧
      ∀ v ∈ s.versions,
        ∃ chains, buildChains ipRegistry v.snapshotContent.pluginBindings = .ok chains := by
  obtain ⟨s, hrun⟩ : ∃ s,
      run (controlStep plainEnv) init rollbackCalls = some s :=
    Option.isSome_iff_exists.mp rfl
  refine ⟨s, hrun, control_run_chains_buildable ipRegistry plainEnv ?_ hrun⟩
  apply meets_of_forall
  simp only [rollbackCalls, List.forall_mem_cons]
  refine ⟨fun s => trivial, fun s _ template htemplate => ?_, fun s => trivial, ?_,
    fun s => trivial, fun call hcall => by cases hcall⟩
  · cases htemplate
    exact ⟨_, rfl⟩
  · intro s m _ henabled
    cases henabled

/-- The service accepts a binding that its plugin rejects, and no chain can be built. -/
theorem control_run_accepts_rejected_config :
    ∃ s, run (controlStep plainEnv) init
        [(0, .createRoute usersRoute),
          (1, .bindPlugin 1 ⟨"ip_allow_deny", .obj [], none, none, none⟩)] = some s ∧
      buildChains ipRegistry s.tables.collect.pluginBindings =
        .error (.pluginConfigInvalid "ip_allow_deny: allow and deny cannot both be empty") :=
  ⟨_, rfl, rfl⟩

end Conrogate
