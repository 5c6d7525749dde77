import Conrogate.Storage.Programs

/-!
# Names of live routes, and bindings of live plugins

On PostgreSQL and SQLite unique indexes exclude two live routes of one name. On MySQL only the
checks do, as long as no other call writes before the write that a check is for.
-/

namespace Conrogate

open Transition UpdateRouteDto

open SoftTable Database List PluginBindingRepoImpl Program.Keeps UpstreamRepoImpl RouteRepoImpl

/-- Live rows are told apart by name and key. -/
structure Tables.Distinct (t : Tables) : Prop where
  routeIds : (t.routes.map (·.id)).Nodup
  routeNames : UniqueLive RouteRow.name t.routes
  bindingKeys : UniqueLive BindingRow.key t.bindings

variable {backend : DatabaseBackend} {t : Tables}

lemma Tables.WellFormed.distinct (h : t.WellFormed) : t.Distinct :=
  ⟨h.routeIds, h.routeNames, h.bindingKeys⟩

lemma Tables.Admitted.wellFormed (h : t.Admitted backend) (hdistinct : t.Distinct) :
    t.WellFormed :=
  { h with
    routeNames := hdistinct.routeNames
    bindingKeys := hdistinct.bindingKeys }

lemma Tables.admitted_iff_wellFormed (hbackend : backend ≠ .mySql) :
    t.Admitted backend ↔ t.WellFormed := by
  rw [Tables.WellFormed, Tables.admitted_iff, Tables.admitted_iff]
  cases backend with
  | mySql => exact absurd rfl hbackend
  | postgres => rfl
  | sqlite => rfl

/-! ### Single writes -/

variable {dto : UpdateRouteDto} {m : RouteRow}

namespace UpdateRouteDto

/-- The new name, if the check of `update` finds it at another route. -/
def takenName (dto : UpdateRouteDto) (m : RouteRow) (t : Tables) : Option String :=
  dto.name.filter fun name =>
    name != m.name && select (fun r => r.name == name && r.id != dto.id) t.routes ≠ []

variable {now : Time}

lemma writeTo_name_ne {q : RouteRow} (hname : m.name ≠ q.name) (htaken : dto.takenName m t = none)
    (hq : q ∈ live t.routes) (hid : q.id ≠ dto.id) : (dto.writeTo now m).name ≠ q.name := by
  rw [writeTo]
  cases hnew : dto.name with
  | none => exact hname
  | some name =>
    intro heq
    obtain rfl : name = q.name := heq
    have hmem : q ∈ select (fun r => r.name == q.name && r.id != dto.id) t.routes :=
      mem_filter.mpr ⟨hq, by simpa using hid⟩
    rw [takenName, hnew] at htaken
    have := ne_nil_of_mem hmem
    simp [Option.filter, this, Ne.symm hname] at htaken

lemma nodup_names (hids : (t.routes.map (·.id)).Nodup)
    (hnames : ((live t.routes).map (·.name)).Nodup)
    (hm : selectOne (·.id == dto.id) t.routes = some m) (htaken : dto.takenName m t = none) :
    ((live (update m.id (dto.writeTo now) t.routes)).map (·.name)).Nodup := by
  obtain ⟨hlive, hid⟩ := mem_of_selectOne hm
  rw [beq_iff_eq] at hid
  refine nodup_keys_update hnames hids (fun _ => rfl) ?_
  intro r hr hrm q hq hqm
  obtain rfl : r = m := inj_on_of_nodup_map hids (mem_live.mp hr).1 (mem_live.mp hlive).1 hrm
  refine writeTo_name_ne ?_ htaken hq (hid ▸ hqm)
  intro heq
  exact hqm (congrArg _ (inj_on_of_nodup_map hnames hr hq heq).symm)

end UpdateRouteDto

def TableWrite.Quiet : TableWrite → Prop
  | .routes (.insert _) | .bindings (.insert _) => False
  | .routes (.update _ f) => ∀ r, (f r).deletedAt = r.deletedAt ∧ (f r).name = r.name
  | .bindings (.update _ f) => ∀ b, (f b).deletedAt = b.deletedAt ∧ (f b).key = b.key
  | _ => True

namespace Tables.Distinct

variable (h : t.Distinct)

include h

lemma quiet {w : TableWrite} (hw : w.Quiet) (hadmitted : (w.apply t).Admitted backend) :
    (w.apply t).Distinct := by
  refine ⟨hadmitted.routeIds, ?_, ?_⟩
  · cases w with
    | routes w =>
      cases w with
      | insert row => exact hw.elim
      | update id f => exact h.routeNames.update id (fun r => (hw r).1) fun r => (hw r).2
      | delete now ids => exact h.routeNames.delete now ids
    | upstreams w => exact h.routeNames
    | nodes w => exact h.routeNames
    | bindings w => exact h.routeNames
  · cases w with
    | routes w => exact h.bindingKeys
    | upstreams w => exact h.bindingKeys
    | nodes w => exact h.bindingKeys
    | bindings w =>
      cases w with
      | insert row => exact hw.elim
      | update id f => exact h.bindingKeys.update id (fun b => (hw b).1) fun b => (hw b).2
      | delete now ids => exact h.bindingKeys.delete now ids

lemma insertRoute {row : RouteRow} (hlive : row.deletedAt = none)
    (hnew : select (·.name == row.name) t.routes = [])
    (hadmitted : ((TableWrite.routes (.insert row)).apply t).Admitted backend) :
    ((TableWrite.routes (.insert row)).apply t).Distinct := by
  refine ⟨hadmitted.routeIds, h.routeNames.insert hlive ?_, h.bindingKeys⟩
  intro r hr heq
  exact filter_eq_nil_iff.mp hnew r hr (beq_iff_eq.mpr heq)

lemma insertBinding {row : BindingRow} (hlive : row.deletedAt = none)
    (hnew : select (isBinding row.routeId row.pluginName) t.bindings = []) :
    ((TableWrite.bindings (.insert row)).apply t).Distinct := by
  refine ⟨h.routeIds, h.routeNames, h.bindingKeys.insert hlive ?_⟩
  intro b hb heq
  refine filter_eq_nil_iff.mp hnew b hb ?_
  obtain ⟨hroute, hplugin⟩ := Prod.mk.inj heq
  simp only [isBinding, hroute, hplugin, beq_self_eq_true, Bool.and_self]

lemma rename {now : Time} (hm : selectOne (·.id == dto.id) t.routes = some m)
    (htaken : dto.takenName m t = none) :
    ((TableWrite.routes (.update m.id (dto.writeTo now))).apply t).Distinct := by
  refine ⟨?_, dto.nodup_names h.routeIds h.routeNames hm htaken, h.bindingKeys⟩
  exact nodup_update (ρ := RouteRow) h.routeIds fun _ => rfl

end Tables.Distinct

/-! ### The calls of the repositories -/

abbrev TableProgram.Safe {α : Type} (backend : DatabaseBackend) (p : TableProgram α)
    (K : Tables → Prop) : Prop :=
  p.Keeps backend.database Tables.Distinct K

section Rules

variable {α β : Type} {K : Tables → Prop} {w : Stamp → Tables → TableWrite}
  {failed : String → ConrogateError}

lemma safe_ask {q : Tables → β} {f : β → TableProgram α}
    (hf : ∀ b, (f b).Safe backend fun t => K t ∧ q t = b) : (ask q >>= f).Safe backend K :=
  ⟨trivial, hf⟩

lemma safe_exec {f : Stamp × Tables → TableProgram α}
    (hw : ∀ x t₀ t, K t → t.Distinct → ((w x t₀).apply t).Admitted backend →
      ((w x t₀).apply t).Distinct)
    (hf : ∀ a, (f a).Safe backend fun _ => True) : (exec failed w >>= f).Safe backend K := by
  refine ⟨?_, fun _ => trivial, fun _ _ => hf _⟩
  intro x t₀ t hK ht hadmits
  exact hw x t₀ t hK ht (DatabaseBackend.admits_iff.mp hadmits)

lemma safe_quiet {f : Stamp × Tables → TableProgram α} (hw : ∀ x t, (w x t).Quiet)
    (hf : ∀ a, (f a).Safe backend fun _ => True) : (exec failed w >>= f).Safe backend K :=
  safe_exec (fun x t₀ _ _ ht hadmitted => ht.quiet (hw x t₀) hadmitted) hf

end Rules

namespace RouteRepoImpl

lemma create_safe (dto : CreateRouteDto) : (create dto).Safe backend fun _ => True := by
  refine safe_ask fun dup => ?_
  split_ifs with hdup
  · trivial
  · refine safe_exec ?_ ?_
    · rintro x - t ⟨-, hcount⟩ ht hadmitted
      have hfree : select (·.name == dto.name) t.routes = [] :=
        length_eq_zero_iff.mp (by omega)
      exact ht.insertRoute rfl hfree hadmitted
    · rintro ⟨x, t⟩
      dsimp only
      split <;> trivial

lemma checkName_safe {α : Type} {K : Tables → Prop} {f : Unit → TableProgram α}
    (hf : (f ()).Safe backend fun t => K t ∧ dto.takenName m t = none) :
    (checkName dto m >>= f).Safe backend K := by
  rw [checkName]
  cases hname : dto.name with
  | none => exact hf.mono fun t hK => ⟨hK, by simp [takenName, hname]⟩
  | some name =>
    dsimp only
    split_ifs with hsame
    · exact hf.mono fun t hK => ⟨hK, by simp [takenName, hname, hsame]⟩
    · rw [Program.bind_assoc]
      refine safe_ask fun dup => ?_
      split_ifs with hdup
      · trivial
      · refine hf.mono ?_
        rintro t ⟨hK, hcount⟩
        have hfree : select (fun r => r.name == name && r.id != dto.id) t.routes = [] :=
          length_eq_zero_iff.mp (by omega)
        exact ⟨hK, by simp [takenName, hname, hfree]⟩

lemma update_safe (dto : UpdateRouteDto) : (update dto).Safe backend fun _ => True := by
  refine safe_ask fun found => ?_
  cases found with
  | none => trivial
  | some m =>
    refine checkName_safe (safe_exec ?_ ?_)
    · rintro x - t ⟨⟨-, hm⟩, htaken⟩ ht -
      exact ht.rename hm htaken
    · rintro ⟨x, t⟩
      dsimp only
      split <;> trivial

lemma softDelete_safe (id : Nat) : (softDelete id).Safe backend fun _ => True :=
  safe_quiet (fun _ _ => trivial) fun _ => trivial

end RouteRepoImpl

namespace UpstreamRepoImpl

variable {failed : String → ConrogateError}

section

variable (upstreamId : Nat) (nodes : List CreateUpstreamNodeDto)

lemma insertNodes_safe :
    (insertNodes failed upstreamId nodes).Safe backend fun _ => True := by
  refine .forM (fun n => ?_) nodes
  exact safe_quiet (fun _ _ => trivial) fun _ => trivial

lemma replaceNodes_safe :
    (replaceNodes failed upstreamId nodes).Safe backend fun _ => True :=
  safe_quiet (fun _ _ => trivial) fun _ => insertNodes_safe upstreamId nodes

end

lemma create_safe (dto : CreateUpstreamDto) : (create dto).Safe backend fun _ => True := by
  refine safe_quiet (fun _ _ => trivial) fun _ => ?_
  exact (insertNodes_safe _ _).bind fun _ => safe_ask fun _ => trivial

lemma updated_safe (id : Nat) (model : Option UpstreamRow) :
    (updated id model).Safe backend fun _ => True := by
  refine safe_ask fun nodes => ?_
  cases model <;> trivial

lemma update_safe (dto : UpdateUpstreamDto) : (update dto).Safe backend fun _ => True := by
  refine safe_ask fun found => ?_
  cases found with
  | none => trivial
  | some m =>
    refine safe_quiet (fun _ _ => trivial) ?_
    rintro ⟨x, t⟩
    dsimp only
    cases dto.nodes with
    | none => exact updated_safe _ _
    | some nodes => exact (replaceNodes_safe _ _).bind fun _ => updated_safe _ _

lemma softDelete_safe (id : Nat) : (softDelete id).Safe backend fun _ => True :=
  safe_quiet (fun _ _ => trivial) fun _ => safe_quiet (fun _ _ => trivial) fun _ => trivial

end UpstreamRepoImpl

namespace PluginBindingRepoImpl

lemma bind_safe (routeId : Nat) (dto : BindPluginDto) :
    (bind routeId dto).Safe backend fun _ => True := by
  refine safe_ask fun dup => ?_
  split_ifs with hdup
  · trivial
  · refine safe_exec ?_ fun _ => trivial
    rintro x - t ⟨-, hcount⟩ ht -
    have hfree : select (isBinding routeId dto.pluginName) t.bindings = [] :=
      length_eq_zero_iff.mp (by omega)
    exact ht.insertBinding rfl hfree

lemma update_safe (routeId : Nat) (pluginName : String) (dto : UpdatePluginBindingDto) :
    (update routeId pluginName dto).Safe backend fun _ => True := by
  refine safe_ask fun found => ?_
  cases found with
  | none => trivial
  | some m =>
    refine safe_quiet (fun _ _ _ => ⟨rfl, rfl⟩) ?_
    rintro ⟨x, t⟩
    dsimp only
    split <;> trivial

lemma unbind_safe (routeId : Nat) (pluginName : String) :
    (unbind routeId pluginName).Safe backend fun _ => True :=
  safe_quiet (fun _ _ => trivial) fun _ => trivial

end PluginBindingRepoImpl

namespace ConfigVersionRepoImpl

lemma upsertUpstream_safe (ids : IdMap) (up : UpstreamDto) :
    (upsertUpstream ids up).Safe backend fun _ => True := by
  refine safe_ask fun found => ?_
  cases found with
  | none => exact safe_quiet (fun _ _ => trivial) fun _ => trivial
  | some m =>
    refine safe_quiet (fun _ _ => trivial) fun _ => ?_
    exact (replaceNodes_safe _ _).bind fun _ => trivial

lemma dropUpstreams_safe (upstreams : List UpstreamDto) :
    (dropUpstreams upstreams).Safe backend fun _ => True := by
  refine safe_ask fun current => ?_
  refine (forM (fun m => ?_) _).mono fun _ _ => trivial
  exact safe_quiet (fun _ _ => trivial) fun _ => safe_quiet (fun _ _ => trivial) fun _ => trivial

lemma upsertRoute_safe (upstreams : List UpstreamDto) (upstreamIds ids : IdMap) (r : RouteDto) :
    (upsertRoute upstreams upstreamIds ids r).Safe backend fun _ => True := by
  refine safe_ask fun found => ?_
  cases found with
  | some m => exact safe_quiet (fun _ _ _ => ⟨rfl, rfl⟩) fun _ => trivial
  | none =>
    refine safe_exec ?_ fun _ => trivial
    rintro x - t ⟨-, hnone⟩ ht hadmitted
    rw [selectOne_eq_head?, head?_eq_none_iff] at hnone
    exact ht.insertRoute rfl hnone hadmitted

lemma dropRoutes_safe (routes : List RouteDto) :
    (dropRoutes routes).Safe backend fun _ => True := by
  refine safe_ask fun current => ?_
  refine bind ((forM (fun id => ?_) _).mono fun _ _ => trivial) ?_
  · exact safe_quiet (fun _ _ => trivial) fun _ => trivial
  · refine fun _ => .forM (fun id => ?_) _
    exact safe_quiet (fun _ _ => trivial) fun _ => trivial

lemma upsertBinding_safe (routeIds : IdMap) (desired : List (Nat × String))
    (b : PluginBindingDto) : (upsertBinding routeIds desired b).Safe backend fun _ => True := by
  rw [upsertBinding]
  cases routeIds b.routeId with
  | none => trivial
  | some routeId =>
    refine safe_ask fun found => ?_
    cases found with
    | some m => exact safe_quiet (fun _ _ _ => ⟨rfl, rfl⟩) fun _ => trivial
    | none =>
      refine safe_exec ?_ fun _ => trivial
      rintro x - t ⟨-, hnone⟩ ht -
      rw [Tables.findBinding, selectOne_eq_head?, head?_eq_none_iff] at hnone
      exact ht.insertBinding rfl hnone

lemma dropBindings_safe (routes : List RouteDto) (routeIds : IdMap)
    (desired : List (Nat × String)) :
    (dropBindings routes routeIds desired).Safe backend fun _ => True := by
  refine .forM (fun routeId => safe_ask fun current => ?_) _
  refine (forM (fun m => ?_) _).mono fun _ _ => trivial
  exact safe_quiet (fun _ _ => trivial) fun _ => trivial

lemma applySnapshot_safe (snapshot : ConfigSnapshot) :
    (applySnapshot snapshot).Safe backend fun _ => True := by
  refine ⟨?_, trivial⟩
  refine (foldlM upsertUpstream_safe _ _).bind fun upstreamIds => ?_
  refine (dropUpstreams_safe _).bind fun _ => ?_
  refine (foldlM (upsertRoute_safe _ upstreamIds) _ _).bind fun routeIds => ?_
  refine (dropRoutes_safe _).bind fun _ => ?_
  refine (foldlM (upsertBinding_safe routeIds) _ _).bind fun desired => ?_
  exact dropBindings_safe _ routeIds desired

end ConfigVersionRepoImpl

lemma RepoOp.program_safe (op : RepoOp) : op.program.Safe backend fun _ => True := by
  cases op with
  | createRoute dto => exact (create_safe dto).bind fun _ => trivial
  | updateRoute dto => exact (update_safe dto).bind fun _ => trivial
  | deleteRoute id => exact softDelete_safe id
  | createUpstream dto => exact (create_safe dto).bind fun _ => trivial
  | updateUpstream dto => exact (update_safe dto).bind fun _ => trivial
  | deleteUpstream id => exact softDelete_safe id
  | bind routeId dto => exact (bind_safe routeId dto).bind fun _ => trivial
  | updateBinding routeId pluginName dto =>
    exact (update_safe routeId pluginName dto).bind fun _ => trivial
  | unbind routeId pluginName => exact unbind_safe routeId pluginName
  | applySnapshot snapshot => exact ConfigVersionRepoImpl.applySnapshot_safe snapshot

/-! ### Interleavings -/

/-- At every moment, live routes have different names and a plugin has at most one live binding to a
route, if the backend is PostgreSQL or SQLite, or if nothing that a call has read has changed when
it writes. -/
theorem live_keys_unique {t₀ : Tables} (h₀ : t₀.WellFormed) {events : List (Event RepoOp Stamp)}
    {s : State Tables TableWrite Stamp ConrogateError}
    (hrun : run (repoStep backend) (.start t₀) events = some s)
    (hok : Meets (repoStep backend)
      (fun u e => backend = .mySql → u.Undisturbed e) (.start t₀) events) :
    ((live s.store.routes).map (·.name)).Nodup ∧
      ((live s.store.bindings).map fun b => (b.routeId, b.pluginName)).Nodup := by
  have hdistinct : s.store.Distinct := by
    by_cases hbackend : backend = .mySql
    · refine invariant_of_undisturbed RepoOp.program_safe h₀.distinct ?_ hrun
      exact fun before e after u heq hu => hok before e after u heq hu hbackend
    · refine invariant_of_admits (I := Tables.Distinct) ?_ h₀.distinct hrun
      intro t hadmits
      have hadmitted := DatabaseBackend.admits_iff.mp hadmits
      exact ((Tables.admitted_iff_wellFormed hbackend).mp hadmitted).distinct
  exact ⟨hdistinct.routeNames, hdistinct.bindingKeys⟩

def ordersRoute : CreateRouteDto :=
  ⟨"orders", .http, ⟨.exact "/orders", none, none, [], []⟩, none, none, none, none, none, none⟩

def racingEvents : List (Event RepoOp Stamp) :=
  let cors : BindPluginDto := ⟨"cors", .obj [], none, none, none⟩
  [.begin 0 (.createRoute ordersRoute), .begin 1 (.createRoute ordersRoute),
    .answered 0 ⟨0, 0⟩, .answered 1 ⟨0, 0⟩, .answered 0 ⟨1, 1⟩, .answered 1 ⟨1, 2⟩,
    .begin 2 (.bind 1 cors), .begin 3 (.bind 1 cors),
    .answered 2 ⟨2, 0⟩, .answered 3 ⟨2, 0⟩, .answered 2 ⟨3, 1⟩, .answered 3 ⟨3, 2⟩]

def singleEvents : List (Event RepoOp Stamp) :=
  [.begin 0 (.createRoute ordersRoute), .answered 0 ⟨0, 0⟩, .answered 0 ⟨1, 1⟩]

theorem live_keys_unique_postgres :
    (∃ s, run (repoStep .postgres) (.start .empty) racingEvents = some s ∧
      ((live s.store.routes).map (·.name)).Nodup ∧
      (live s.store.routes).map (·.name) = ["orders"]) ∧
    ∃ s, run (repoStep .mySql) (.start .empty) singleEvents = some s ∧
      ((live s.store.routes).map (·.name)).Nodup := by
  constructor
  · obtain ⟨s, hrun, hnames⟩ : ∃ s ∈ run (repoStep .postgres) (.start .empty) racingEvents,
        (live s.store.routes).map (·.name) = ["orders"] := by decide +kernel
    refine ⟨s, hrun, (live_keys_unique Tables.empty_wellFormed hrun ?_).1, hnames⟩
    exact meets_of_forall fun _ _ _ => nofun
  · obtain ⟨s, hrun⟩ : ∃ s, run (repoStep .mySql) (.start .empty) singleEvents = some s := ⟨_, rfl⟩
    refine ⟨s, hrun, (live_keys_unique Tables.empty_wellFormed hrun ?_).1⟩
    refine meets_cons (fun _ => trivial) rfl (meets_cons (fun _ => trivial) rfl ?_)
    exact meets_cons (fun _ => forall_mem_singleton.mpr rfl) rfl meets_nil

/-- On MySQL all four writes succeed. -/
theorem mySql_accepts_duplicates :
    ∃ s ∈ run (repoStep .mySql) (.start .empty) racingEvents,
      ¬ ((live s.store.routes).map (·.name)).Nodup ∧
      ¬ ((live s.store.bindings).map fun b => (b.routeId, b.pluginName)).Nodup := by
  decide +kernel

end Conrogate
