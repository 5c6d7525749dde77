import Conrogate.Server.Service

/-!
# Publish and rollback, statement by statement

Only `apply_snapshot` is a transaction. Calls interleave in any way, every statement can fail, or be
executed while its answer is lost, and other operations may come in between.
-/

namespace Conrogate

open SoftTable Option

/-! ### Redis -/

/-- The keys of `RedisConfigCache`: the version, and one snapshot for each version. -/
structure RedisConfigCache where
  version : Option Nat
  snapshots : Nat → Option ConfigSnapshot

namespace RedisConfigCache

def empty : RedisConfigCache := ⟨none, fun _ => none⟩

def writeSnapshot (cache : RedisConfigCache) (version : Nat) (snapshot : ConfigSnapshot) :
    RedisConfigCache :=
  ⟨some version, Function.update cache.snapshots version (some snapshot)⟩

def invalidate (cache : RedisConfigCache) : RedisConfigCache := { cache with version := none }

def getSnapshot (cache : RedisConfigCache) : Option ConfigSnapshot :=
  cache.version.bind cache.snapshots

end RedisConfigCache

def retryMax : Nat := 3

/-! ### Calls -/

structure PublishArgs where
  baseVersion : Nat
  operator : Option String
  remark : Option String

/-- Where a call of `publish_config` or `rollback_config` stands: its next statement. -/
inductive ConfigCall where
  | idle
  -- `publish_config`
  | listEnabled (args : PublishArgs)
  | listAll (args : PublishArgs) (routes : List RouteDto)
  | loadNodes (args : PublishArgs) (routes : List RouteDto) (got : List UpstreamDto)
    (next : UpstreamRow) (rest : List UpstreamRow)
  | listByRoute (args : PublishArgs) (routes : List RouteDto) (upstreams : List UpstreamDto)
    (got : List PluginBindingDto) (next : RouteDto) (rest : List RouteDto)
  | publish (req : PublishRequest)
  -- `rollback_config`
  | getTarget (req : RollbackRequest)
  | applySnapshot (req : RollbackRequest) (snapshot : ConfigSnapshot)
  | rollback (req : RollbackRequest)
  | latestVersion (req : RollbackRequest) (target : ConfigVersionRow)
  -- the end of both
  | insert (new : NewConfigVersion)
  | readBack (row : ConfigVersionRow)
  | putSnapshot (row : ConfigVersionRow) (snapshot : ConfigSnapshot) (attempt : Nat)
  | invalidate (row : ConfigVersionRow)
  | done (result : Result ConfigVersionRow)

structure ConfigStore extends ControlState where
  redis : RedisConfigCache

structure ConfigEnv where
  hash : ConfigSnapshot → String
  hasCache : Bool

/-- What the outside contributes to a statement. -/
structure Answer where
  outcome : Database.Outcome
  now : Time
  id : Nat
  dbError : String

namespace ConfigCall

def bindings (args : PublishArgs) (routes : List RouteDto) (upstreams : List UpstreamDto)
    (got : List PluginBindingDto) : List RouteDto → ConfigCall
  | next :: rest => .listByRoute args routes upstreams got next rest
  | [] => .publish
    ⟨args.baseVersion, ⟨routes, upstreams, got⟩, args.operator, args.remark⟩

def nodes (args : PublishArgs) (routes : List RouteDto) (got : List UpstreamDto) :
    List UpstreamRow → ConfigCall
  | next :: rest => .loadNodes args routes got next rest
  | [] => .bindings args routes got [] routes

def afterRead (x : Answer) (c : ConfigCall) : ConfigCall :=
  if x.outcome = .answered then c else .done (.error .databaseInternal)

def inserted (env : ConfigEnv) (new : NewConfigVersion) :
    Result ConfigVersionRow → ConfigCall
  | .error e => .done (.error e)
  | .ok row  =>
    if !env.hasCache then .done (.ok row)
    else match new.publishType with
      | .publish  => .putSnapshot row new.snapshotContent 1
      | .rollback => .readBack row

variable (env : ConfigEnv) (x : Answer) (store : ConfigStore)

def effect : ConfigCall → ConfigStore
  | .applySnapshot _ snapshot => match Conrogate.applySnapshot x.now snapshot store.tables with
    | .ok tables => if x.outcome = .notExecuted then store else { store with tables := tables }
    | .error _   => store
  | .insert new =>
    { store with versions := (insertStep store.versions new x.outcome x.id x.dbError).1 }
  | .putSnapshot row snapshot _ =>
    if x.outcome = .notExecuted then store
    else { store with redis := store.redis.writeSnapshot row.version snapshot }
  | .invalidate _ =>
    if x.outcome = .notExecuted then store
    else { store with redis := store.redis.invalidate }
  | _ => store

def next : ConfigCall → ConfigCall
  | .idle => .idle
  | .listEnabled args => afterRead x (.listAll args store.tables.listEnabled)
  | .listAll args routes => afterRead x (.nodes args routes [] (live store.tables.upstreams))
  | .loadNodes args routes got m rest =>
    afterRead x (.nodes args routes (got ++ [m.toDto (store.tables.loadNodes m.id)]) rest)
  | .listByRoute args routes upstreams got r rest =>
    afterRead x (.bindings args routes upstreams (got ++ store.tables.listByRoute r.id) rest)
  | .publish req => afterRead x <| match publishRead env.hash store.versions req x.now with
    | .ok new  => .insert new
    | .error e => .done (.error e)
  | .getTarget req => afterRead x <| match rollbackTarget store.versions req with
    | .ok target => .applySnapshot req target.snapshotContent
    | .error e   => .done (.error e)
  | .applySnapshot req snapshot =>
    match x.outcome, Conrogate.applySnapshot x.now snapshot store.tables with
    | .answered, .ok _ => .rollback req
    | .answered, .error e => .done (.error e)
    | _, _ => .done (.error .databaseInternal)
  | .rollback req => afterRead x <| match rollbackTarget store.versions req with
    | .ok target => .latestVersion req target
    | .error e   => .done (.error e)
  | .latestVersion req target =>
    afterRead x (.insert (rollbackRead store.versions req target x.now))
  | .insert new =>
    inserted env new (insertStep store.versions new x.outcome x.id x.dbError).2
  | .readBack row => afterRead x <| match findVersion store.versions row.version with
    | some r => .putSnapshot row r.snapshotContent 1
    | none   => .done (.ok row)
  | .putSnapshot row snapshot attempt =>
    if x.outcome = .answered then .done (.ok row)
    else if attempt < retryMax then .putSnapshot row snapshot (attempt + 1)
    else .invalidate row
  | .invalidate row => .done (.ok row)
  | .done result    => .done result

def Running : ConfigCall → Bool
  | .idle | .done _ => false
  | _ => true

end ConfigCall

/-! ### Interleavings -/

/-- The shared store and the calls in flight. -/
structure ServiceState where
  store : ConfigStore
  calls : Nat → ConfigCall

def ServiceState.start (store : ConfigStore) : ServiceState := ⟨store, fun _ => .idle⟩

namespace ServiceState

variable (env : ConfigEnv) (s : ServiceState) (call : Nat) (x : Answer)

def setCall (c : ConfigCall) : ServiceState :=
  { s with calls := Function.update s.calls call c }

def execute : ServiceState :=
  setCall { s with store := (s.calls call).effect x s.store } call
    ((s.calls call).next env x s.store)

variable {s call} {c : ConfigCall} {k : Nat}

@[simp] lemma setCall_store : (s.setCall call c).store = s.store := rfl

@[simp] lemma setCall_self : (s.setCall call c).calls call = c := Function.update_self ..

lemma setCall_of_ne (h : k ≠ call) : (s.setCall call c).calls k = s.calls k :=
  Function.update_of_ne h ..

@[simp] lemma execute_store :
    (s.execute env call x).store = (s.calls call).effect x s.store := rfl

@[simp] lemma execute_self :
    (s.execute env call x).calls call = (s.calls call).next env x s.store := setCall_self

lemma execute_of_ne (h : k ≠ call) : (s.execute env call x).calls k = s.calls k := setCall_of_ne h

end ServiceState

inductive ConfigEvent where
  | publishConfig (call : Nat) (args : PublishArgs)
  | rollbackConfig (call : Nat) (req : RollbackRequest)
  | statement (call : Nat) (x : Answer)
  | edit (tables : Tables)

def statements (call n : Nat) (x : Answer) : List ConfigEvent :=
  List.replicate n (.statement call x)

/-- Calls interleave statement by statement. -/
def configStep (env : ConfigEnv) (s : ServiceState) : ConfigEvent → Option ServiceState
  | .publishConfig call args => match s.calls call with
    | .idle => some (s.setCall call (.listEnabled args))
    | _ => none
  | .rollbackConfig call req => match s.calls call with
    | .idle => some (s.setCall call (.getTarget req))
    | _ => none
  | .statement call x => if (s.calls call).Running then some (s.execute env call x) else none
  | .edit tables => some { s with store := { s.store with tables := tables } }

/-! ### What a step can do -/

section Cases

variable {env : ConfigEnv} {s t : ServiceState} {e : ConfigEvent} {x : Answer} {store : ConfigStore}

lemma configStep_cases (h : configStep env s e = some t) :
    (∃ call c, s.calls call = .idle ∧
      ((∃ args, c = .listEnabled args) ∨ ∃ req, c = .getTarget req) ∧
      (∀ k x, e ≠ .statement k x) ∧ t = s.setCall call c) ∨
    (∃ call x, e = .statement call x ∧ (s.calls call).Running = true ∧
      t = s.execute env call x) ∨
    (∃ tables, e = .edit tables ∧ t = { s with store := { s.store with tables := tables } }) := by
  cases e with
  | publishConfig call args =>
    simp only [configStep] at h
    split at h
    · rename_i hidle
      exact .inl ⟨call, _, hidle, .inl ⟨args, rfl⟩, by simp, (some.inj h).symm⟩
    · cases h
  | rollbackConfig call req =>
    simp only [configStep] at h
    split at h
    · rename_i hidle
      exact .inl ⟨call, _, hidle, .inr ⟨req, rfl⟩, by simp, (some.inj h).symm⟩
    · cases h
  | statement call x =>
    simp only [configStep] at h
    split_ifs at h with hrunning
    exact .inr (.inl ⟨call, x, rfl, hrunning, (some.inj h).symm⟩)
  | edit tables => exact .inr (.inr ⟨tables, rfl, (some.inj h).symm⟩)

namespace ConfigCall

variable (x store)

lemma effect_tables (c : ConfigCall) : (c.effect x store).tables = store.tables ∨
    ∃ req snapshot, c = .applySnapshot req snapshot ∧
      Conrogate.applySnapshot x.now snapshot store.tables = .ok (c.effect x store).tables := by
  cases c with
  | applySnapshot req snapshot =>
    simp only [effect]
    cases hok : Conrogate.applySnapshot x.now snapshot store.tables with
    | error e => exact .inl rfl
    | ok tables =>
      simp only
      split_ifs
      · exact .inl rfl
      · exact .inr ⟨req, snapshot, rfl, hok⟩
  | putSnapshot row snapshot attempt =>
    simp only [effect]
    split_ifs <;> exact .inl rfl
  | invalidate row =>
    simp only [effect]
    split_ifs <;> exact .inl rfl
  | _ => exact .inl rfl

lemma effect_versions (c : ConfigCall) : (c.effect x store).versions = store.versions ∨
    ∃ new, c = .insert new ∧ (∀ r ∈ store.versions, r.version ≠ new.version) ∧
      (c.effect x store).versions = store.versions ++ [new.toRow x.id] := by
  cases c with
  | insert new =>
    simp only [effect]
    rcases insertStep_cases store.versions new x.outcome x.id x.dbError with heq | ⟨hfresh, heq, -⟩
    · rw [heq]
      exact .inl rfl
    · rw [heq]
      exact .inr ⟨new, rfl, hfresh, rfl⟩
  | applySnapshot req snapshot =>
    simp only [effect]
    split
    · split_ifs <;> exact .inl rfl
    · exact .inl rfl
  | putSnapshot row snapshot attempt =>
    simp only [effect]
    split_ifs <;> exact .inl rfl
  | invalidate row =>
    simp only [effect]
    split_ifs <;> exact .inl rfl
  | _ => exact .inl rfl

lemma effect_redis (c : ConfigCall) : (c.effect x store).redis = store.redis ∨
    (∃ row snapshot attempt, c = .putSnapshot row snapshot attempt ∧
      (c.effect x store).redis = store.redis.writeSnapshot row.version snapshot) ∨
    ∃ row, c = .invalidate row ∧ (c.effect x store).redis = store.redis.invalidate := by
  cases c with
  | putSnapshot row snapshot attempt =>
    simp only [effect]
    split_ifs
    · exact .inl rfl
    · exact .inr (.inl ⟨row, snapshot, attempt, rfl, rfl⟩)
  | invalidate row =>
    simp only [effect]
    split_ifs
    · exact .inl rfl
    · exact .inr (.inr ⟨row, rfl, rfl⟩)
  | applySnapshot req snapshot =>
    simp only [effect]
    split
    · split_ifs <;> exact .inl rfl
    · exact .inl rfl
  | _ => exact .inl rfl

/-! ### Where a call goes -/

section Elim

variable {x store} {P : ConfigCall → Prop} {c : ConfigCall}

lemma afterRead_elim (hfail : P (.done (.error .databaseInternal))) (h : P c) :
    P (afterRead x c) := by
  rw [afterRead]
  split_ifs
  · exact h
  · exact hfail

lemma bindings_elim {args : PublishArgs} {routes : List RouteDto} {upstreams : List UpstreamDto}
    {got : List PluginBindingDto} {rest : List RouteDto}
    (hlist : ∀ r rest, P (.listByRoute args routes upstreams got r rest))
    (hpublish : ∀ req, P (.publish req)) : P (bindings args routes upstreams got rest) := by
  cases rest with
  | nil => exact hpublish _
  | cons r rest => exact hlist r rest

lemma nodes_elim {args : PublishArgs} {routes : List RouteDto} {got : List UpstreamDto}
    {rest : List UpstreamRow} (hload : ∀ m rest, P (.loadNodes args routes got m rest))
    (hlist : ∀ r rest, P (.listByRoute args routes got [] r rest))
    (hpublish : ∀ req, P (.publish req)) : P (nodes args routes got rest) := by
  cases rest with
  | nil => exact bindings_elim hlist hpublish
  | cons m rest => exact hload m rest

def Reading : ConfigCall → Prop
  | .listEnabled _ | .listAll .. | .loadNodes .. | .listByRoute .. | .publish _ => True
  | _ => False

lemma Reading.next_elim (hc : c.Reading) (hread : ∀ c' : ConfigCall, c'.Reading → P c')
    (hinsert : ∀ new, P (.insert new)) (hdone : ∀ r, P (.done r)) : P (c.next env x store) := by
  cases c with
  | listEnabled args => exact afterRead_elim (hdone _) (hread _ trivial)
  | listAll args routes =>
    apply afterRead_elim (hdone _)
    exact nodes_elim (fun _ _ => hread _ trivial) (fun _ _ => hread _ trivial)
      fun _ => hread _ trivial
  | loadNodes args routes got m rest =>
    apply afterRead_elim (hdone _)
    exact nodes_elim (fun _ _ => hread _ trivial) (fun _ _ => hread _ trivial)
      fun _ => hread _ trivial
  | listByRoute args routes upstreams got r rest =>
    apply afterRead_elim (hdone _)
    exact bindings_elim (fun _ _ => hread _ trivial) fun _ => hread _ trivial
  | publish req =>
    apply afterRead_elim (hdone _)
    cases publishRead env.hash store.versions req x.now with
    | ok new => exact hinsert new
    | error e => exact hdone _
  | _ => exact hc.elim

lemma inserted_elim {new : NewConfigVersion} {result : Result ConfigVersionRow}
    (hdone : ∀ r, P (.done r))
    (hput : ∀ row, result = .ok row → P (.putSnapshot row new.snapshotContent 1))
    (hread : ∀ row, result = .ok row → P (.readBack row)) : P (inserted env new result) := by
  cases result with
  | error e => exact hdone _
  | ok row =>
    rw [inserted]
    split_ifs
    · exact hdone _
    · split
      · exact hput row rfl
      · exact hread row rfl

end Elim

end ConfigCall

end Cases

end Conrogate
