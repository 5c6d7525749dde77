import Conrogate.Storage.ConfigVersion
import Conrogate.Storage.Snapshot

/-!
# The difference of two versions

`diff` compares the routes of two snapshots by their names. What is in both is reported as modified,
without comparing the routes.
-/

namespace Conrogate

open List

@[ext]
structure ConfigDiff where
  added : List String
  modified : List String
  removed : List String
deriving DecidableEq, Repr

/-- The order in which a `HashSet` yields its elements. -/
structure HashOrder (α : Type) where
  iterate : List α → List α
  perm : ∀ l, (iterate l).Perm l

def HashOrder.inserted (α : Type) : HashOrder α := ⟨id, fun _ => .rfl⟩

def ConfigSnapshot.names (s : ConfigSnapshot) : List String := s.routes.map (·.name)

def configDiff (fromOrder toOrder : HashOrder String) (fromSnap toSnap : ConfigSnapshot) :
    ConfigDiff where
  added := (toOrder.iterate toSnap.names.dedup).filter (· ∉ fromSnap.names)
  modified := (toSnap.routes.filter fun r => r.name ∈ fromSnap.names).map (·.name)
  removed := (fromOrder.iterate fromSnap.names.dedup).filter (· ∉ toSnap.names)

def diffVersions (fromOrder toOrder : HashOrder String)
    (fromRead toRead : Option (List ConfigVersionRow)) (fromVersion toVersion : Nat) :
    Result ConfigDiff :=
  match fromRead, toRead with
  | some fromRows, some toRows =>
    match findVersion fromRows fromVersion, findVersion toRows toVersion with
    | some fromM, some toM =>
      .ok (configDiff fromOrder toOrder fromM.snapshotContent toM.snapshotContent)
    | _, _ => .error (.notFound "version not found")
  | _, _ => .error .databaseInternal

/-! ### What a difference is -/

structure RouteContent where
  route : CreateRouteDto
  upstream : Option (Option String)
  bindings : Multiset BindPluginDto

namespace ConfigSnapshot

variable (s : ConfigSnapshot)

def content (r : RouteDto) : RouteContent where
  route := r.toCreate none
  upstream := r.upstreamId.map fun id => (s.upstreams.find? (·.id == id)).map (·.name)
  bindings := (s.pluginBindings.filter (·.routeId == r.id)).map (·.toCreate)

def contentOf (name : String) : Multiset RouteContent :=
  (s.routes.filter (·.name == name)).map s.content

end ConfigSnapshot

structure ConfigDiff.IsDiff (fromSnap toSnap : ConfigSnapshot) (d : ConfigDiff) : Prop where
  added : ∀ name, name ∈ d.added ↔ name ∈ toSnap.names ∧ name ∉ fromSnap.names
  removed : ∀ name, name ∈ d.removed ↔ name ∈ fromSnap.names ∧ name ∉ toSnap.names
  modified : ∀ name, name ∈ d.modified ↔ (name ∈ fromSnap.names ∧ name ∈ toSnap.names) ∧
    fromSnap.contentOf name ≠ toSnap.contentOf name
  added_nodup : d.added.Nodup
  removed_nodup : d.removed.Nodup
  modified_nodup : d.modified.Nodup

structure ConfigDiff.Disjoint (d : ConfigDiff) : Prop where
  added_modified : d.added.Disjoint d.modified
  added_removed : d.added.Disjoint d.removed
  modified_removed : d.modified.Disjoint d.removed

structure ConfigDiff.Mirrors (d d' : ConfigDiff) : Prop where
  added : d.added.Perm d'.removed
  removed : d.removed.Perm d'.added
  modified : ∀ name, name ∈ d.modified ↔ name ∈ d'.modified

structure ConfigSnapshot.AllChanged (fromSnap toSnap : ConfigSnapshot) : Prop where
  content : ∀ name ∈ fromSnap.names, name ∈ toSnap.names →
    fromSnap.contentOf name ≠ toSnap.contentOf name
  once : (toSnap.names.filter (· ∈ fromSnap.names)).Nodup

/-! ### What `diff` finds -/

section ConfigDiff

variable {fromOrder toOrder : HashOrder String} {fromSnap toSnap s : ConfigSnapshot} {name : String}

section

variable {α : Type} [DecidableEq α] (order : HashOrder α)

lemma HashOrder.mem_iterate_dedup {l : List α} {a : α} : a ∈ order.iterate l.dedup ↔ a ∈ l := by
  rw [(order.perm _).mem_iff, mem_dedup]

lemma HashOrder.nodup_iterate_dedup (l : List α) : (order.iterate l.dedup).Nodup :=
  (order.perm _).nodup_iff.mpr l.nodup_dedup

end

lemma mem_added : name ∈ (configDiff fromOrder toOrder fromSnap toSnap).added ↔
    name ∈ toSnap.names ∧ name ∉ fromSnap.names := by
  rw [configDiff, mem_filter, toOrder.mem_iterate_dedup, decide_eq_true_eq]

lemma mem_removed : name ∈ (configDiff fromOrder toOrder fromSnap toSnap).removed ↔
    name ∈ fromSnap.names ∧ name ∉ toSnap.names := by
  rw [configDiff, mem_filter, fromOrder.mem_iterate_dedup, decide_eq_true_eq]

lemma modified_eq : (configDiff fromOrder toOrder fromSnap toSnap).modified =
    toSnap.names.filter (· ∈ fromSnap.names) := by
  have h := filter_map (f := fun r : RouteDto => r.name) (p := (· ∈ fromSnap.names))
    (l := toSnap.routes)
  exact h.symm

lemma mem_modified : name ∈ (configDiff fromOrder toOrder fromSnap toSnap).modified ↔
    name ∈ fromSnap.names ∧ name ∈ toSnap.names := by
  rw [modified_eq, mem_filter, decide_eq_true_eq, and_comm]

lemma configDiff_isDiff_iff :
    (configDiff fromOrder toOrder fromSnap toSnap).IsDiff fromSnap toSnap ↔
      fromSnap.AllChanged toSnap := by
  constructor
  · intro h
    refine ⟨fun name hfrom hto => ?_, ?_⟩
    · exact ((h.modified name).mp (mem_modified.mpr ⟨hfrom, hto⟩)).2
    · have hnodup := h.modified_nodup
      rwa [modified_eq] at hnodup
  · intro h
    refine ⟨fun _ => mem_added, fun _ => mem_removed, fun name => ?_, ?_, ?_, ?_⟩
    · rw [mem_modified]
      exact ⟨fun hboth => ⟨hboth, h.content name hboth.1 hboth.2⟩, And.left⟩
    · exact (toOrder.nodup_iterate_dedup _).filter _
    · exact (fromOrder.nodup_iterate_dedup _).filter _
    · rw [modified_eq]
      exact h.once

lemma configDiff_disjoint : (configDiff fromOrder toOrder fromSnap toSnap).Disjoint where
  added_modified := fun _ hadded hmodified =>
    (mem_added.mp hadded).2 (mem_modified.mp hmodified).1
  added_removed := fun _ hadded hremoved => (mem_added.mp hadded).2 (mem_removed.mp hremoved).1
  modified_removed := fun _ hmodified hremoved =>
    (mem_removed.mp hremoved).2 (mem_modified.mp hmodified).2

lemma configDiff_mirrors {fromOrder' toOrder' : HashOrder String} :
    (configDiff fromOrder toOrder fromSnap toSnap).Mirrors
      (configDiff fromOrder' toOrder' toSnap fromSnap) where
  added := ((toOrder.perm _).trans (fromOrder'.perm _).symm).filter _
  removed := ((fromOrder.perm _).trans (toOrder'.perm _).symm).filter _
  modified := fun name => by rw [mem_modified, mem_modified, and_comm]

lemma configDiff_self_eq_empty_iff :
    configDiff fromOrder toOrder s s = ⟨[], [], []⟩ ↔ s.routes = [] := by
  constructor
  · intro h
    have hmodified := congrArg ConfigDiff.modified h
    rw [modified_eq, filter_eq_nil_iff] at hmodified
    have hnames : s.names = [] := eq_nil_iff_forall_not_mem.mpr fun name hname =>
      hmodified name hname (decide_eq_true hname)
    exact map_eq_nil_iff.mp hnames
  · intro h
    have hnames : s.names = [] := by rw [ConfigSnapshot.names, h, map_nil]
    have hadded : (configDiff fromOrder toOrder s s).added = [] :=
      eq_nil_iff_forall_not_mem.mpr fun name hname =>
        (mem_added.mp hname).2 (mem_added.mp hname).1
    have hremoved : (configDiff fromOrder toOrder s s).removed = [] :=
      eq_nil_iff_forall_not_mem.mpr fun name hname =>
        (mem_removed.mp hname).2 (mem_removed.mp hname).1
    have hmodified : (configDiff fromOrder toOrder s s).modified = [] := by
      rw [modified_eq, hnames, filter_nil]
    exact ConfigDiff.ext hadded hmodified hremoved

end ConfigDiff

/-- `diff` reports three disjoint sets of names, and the mirror of the difference the other way
round. It is the difference exactly if all routes that are in both have changed. -/
theorem diffVersions_isDiff_iff {rows : List ConfigVersionRow} {fromVersion toVersion : Nat}
    {fromM toM : ConfigVersionRow} (hfrom : findVersion rows fromVersion = some fromM)
    (hto : findVersion rows toVersion = some toM)
    (fromOrder toOrder fromOrder' toOrder' : HashOrder String) :
    ∃ d d', diffVersions fromOrder toOrder (some rows) (some rows) fromVersion toVersion = .ok d ∧
      diffVersions fromOrder' toOrder' (some rows) (some rows) toVersion fromVersion = .ok d' ∧
      d.Disjoint ∧ d.Mirrors d' ∧
      (d.IsDiff fromM.snapshotContent toM.snapshotContent ↔
        fromM.snapshotContent.AllChanged toM.snapshotContent) ∧
      (fromVersion = toVersion → (d = ⟨[], [], []⟩ ↔ fromM.snapshotContent.routes = [])) := by
  refine ⟨_, _, by rw [diffVersions, hfrom, hto], by rw [diffVersions, hfrom, hto],
    configDiff_disjoint, configDiff_mirrors, configDiff_isDiff_iff, ?_⟩
  rintro rfl
  obtain rfl : fromM = toM := Option.some.inj (hfrom.symm.trans hto)
  exact configDiff_self_eq_empty_iff

def diffRoute (id : Nat) (name : String) (priority : Int) : RouteDto where
  id := id
  name := name
  protocol := .http
  matchConditions := ⟨.exact "/", none, none, [], []⟩
  priority := priority
  upstreamId := none
  hostHeader := none
  allowRetryNonIdempotent := false
  wsStripSensitiveHeaders := false
  enabled := true
  createdAt := 0
  updatedAt := 0

def diffVersion (version : Nat) (routes : List RouteDto) : ConfigVersionRow where
  id := version
  version := version
  baseVersion := version - 1
  publishType := .publish
  contentHash := ""
  snapshotContent := ⟨routes, [], []⟩
  createdBy := none
  remark := none
  createdAt := 0

theorem diffVersions_isDiff_changed :
    let before := diffVersion 1 [diffRoute 1 "gone" 0, diffRoute 2 "kept" 0]
    let after := diffVersion 2 [diffRoute 7 "kept" 5, diffRoute 8 "new" 0]
    let order := HashOrder.inserted String
    ∃ d, diffVersions order order (some [before, after]) (some [before, after]) 1 2 = .ok d ∧
      d = ⟨["new"], ["kept"], ["gone"]⟩ ∧
      d.IsDiff before.snapshotContent after.snapshotContent := by
  intro before after order
  have hfrom : findVersion [before, after] 1 = some before := rfl
  have hto : findVersion [before, after] 2 = some after := rfl
  obtain ⟨d, d', hd, -, -, -, hiff, -⟩ :=
    diffVersions_isDiff_iff hfrom hto order order order order
  refine ⟨d, hd, (Except.ok.inj hd).symm, hiff.mpr ⟨?_, by decide⟩⟩
  intro name hname hname'
  have hold : name ∈ ["gone", "kept"] := hname
  have hnew : name ∈ ["kept", "new"] := hname'
  obtain rfl : name = "kept" := by grind
  intro h
  have hpriority := congrArg (Multiset.map (·.route.priority)) h
  exact absurd hpriority (by decide)

/-- A route is deleted and created again as it was: it is reported as modified, and so is every
route between a version and itself. -/
theorem diffVersions_reports_unchanged :
    let before := diffVersion 1 [diffRoute 1 "r" 0]
    let after := diffVersion 2 [diffRoute 9 "r" 0]
    let order := HashOrder.inserted String
    before.snapshotContent.contentOf "r" = after.snapshotContent.contentOf "r" ∧
    diffVersions order order (some [before, after]) (some [before, after]) 1 2 =
      .ok ⟨[], ["r"], []⟩ ∧
    diffVersions order order (some [before, after]) (some [before, after]) 1 1 =
      .ok ⟨[], ["r"], []⟩ :=
  ⟨rfl, rfl, rfl⟩

end Conrogate
