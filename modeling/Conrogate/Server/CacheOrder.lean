import Conrogate.Server.PublishReads

/-!
# The cache and the version table

Nothing holds the insert of a version row and its write to Redis together. A call that is slow
between the two puts an old version over a newer one.
-/

namespace Conrogate

open List ConfigCall ServiceState RedisConfigCache Option Transition

variable {env : ConfigEnv} {s t u v : ServiceState} {e : ConfigEvent} {events : List ConfigEvent}
  {rows : List ConfigVersionRow} {row : ConfigVersionRow}

/-! ### The two stores -/

/-- What is in Redis comes from `config_versions`. -/
structure ConfigStore.CacheValid (store : ConfigStore) : Prop where
  versions : (store.versions.map (·.version)).Nodup
  snapshots : ∀ w S, store.redis.snapshots w = some S →
    ∃ row ∈ store.versions, row.version = w ∧ row.snapshotContent = S
  key : ∀ w ∈ store.redis.version, ∃ S, store.redis.snapshots w = some S

structure ConfigStore.InSync (store : ConfigStore) : Prop extends store.CacheValid where
  latest : ∀ row ∈ store.versions, ∃ w ∈ store.redis.version, row.version ≤ w

lemma eq_of_version_eq (hnodup : (rows.map (·.version)).Nodup) {r : ConfigVersionRow}
    (hr : r ∈ rows) (hrow : row ∈ rows) (h : r.version = row.version) : r = row :=
  inj_on_of_nodup_map hnodup hr hrow h

lemma findVersion_of_mem (hnodup : (rows.map (·.version)).Nodup) (hrow : row ∈ rows) :
    findVersion rows row.version = some row := by
  cases hfind : findVersion rows row.version with
  | none =>
    have hne := find?_eq_none.mp hfind row hrow
    simp at hne
  | some r =>
    have hversion : r.version = row.version := by
      have hfound := find?_some hfind
      exact beq_iff_eq.mp hfound
    rw [eq_of_version_eq hnodup (mem_of_find?_eq_some hfind) hrow hversion]

namespace ConfigStore.CacheValid

variable {store store' : ConfigStore} (h : store.CacheValid)

include h

lemma of_eq (hversions : store'.versions = store.versions) (hredis : store'.redis = store.redis) :
    store'.CacheValid := by
  refine ⟨?_, ?_, ?_⟩
  · rw [hversions]
    exact h.versions
  · rw [hversions, hredis]
    exact h.snapshots
  · rw [hredis]
    exact h.key

lemma insert (hfresh : ∀ r ∈ store.versions, r.version ≠ row.version)
    (hversions : store'.versions = store.versions ++ [row])
    (hredis : store'.redis = store.redis) : store'.CacheValid := by
  refine ⟨?_, ?_, ?_⟩
  · rw [hversions, map_append]
    refine h.versions.append (nodup_singleton _) ?_
    intro w hw hnew
    obtain ⟨r, hr, rfl⟩ := mem_map.mp hw
    exact hfresh r hr (mem_singleton.mp hnew)
  · rw [hversions, hredis]
    intro w S hS
    obtain ⟨r, hr, hrest⟩ := h.snapshots w S hS
    exact ⟨r, mem_append_left _ hr, hrest⟩
  · rw [hredis]
    exact h.key

lemma writeSnapshot (hrow : row ∈ store.versions) (hversions : store'.versions = store.versions)
    (hredis : store'.redis = store.redis.writeSnapshot row.version row.snapshotContent) :
    store'.CacheValid := by
  refine ⟨?_, ?_, ?_⟩
  · rw [hversions]
    exact h.versions
  · rw [hversions, hredis]
    intro w S hS
    by_cases hw : w = row.version
    · subst hw
      simp only [RedisConfigCache.writeSnapshot, Function.update_self] at hS
      exact ⟨row, hrow, rfl, some.inj hS⟩
    · simp only [RedisConfigCache.writeSnapshot, Function.update_of_ne hw] at hS
      exact h.snapshots w S hS
  · rw [hredis]
    intro w hw
    obtain rfl : row.version = w := some.inj hw
    exact ⟨row.snapshotContent, Function.update_self ..⟩

lemma key_le {version : Nat} (horder : ∀ r ∈ store.versions, version < r.version →
    store.redis.snapshots r.version = none) : ∀ a ∈ store.redis.version, a ≤ version := by
  intro a ha
  obtain ⟨S, hS⟩ := h.key a ha
  obtain ⟨r, hr, rfl, -⟩ := h.snapshots a S hS
  by_contra hlt
  rw [horder r hr (Nat.lt_of_not_le hlt)] at hS
  cases hS

end ConfigStore.CacheValid

lemma ConfigStore.InSync.latestRow {store : ConfigStore} (h : store.InSync) :
    store.redis.version = (latestRow store.versions).map (·.version) ∧
    store.redis.getSnapshot = (latestRow store.versions).map (·.snapshotContent) := by
  cases hlatest : Conrogate.latestRow store.versions with
  | none =>
    have hkey : store.redis.version = none := by
      rw [eq_none_iff_forall_not_mem]
      intro w hw
      obtain ⟨S, hS⟩ := h.key w hw
      obtain ⟨row, hrow, -⟩ := h.snapshots w S hS
      rw [argmax_eq_none.mp hlatest] at hrow
      cases hrow
    rw [getSnapshot, hkey]
    exact ⟨rfl, rfl⟩
  | some m =>
    have hm : m ∈ store.versions := argmax_mem hlatest
    obtain ⟨w, hw, hle⟩ := h.latest m hm
    obtain ⟨S, hS⟩ := h.key w hw
    obtain ⟨row, hrow, rfl, rfl⟩ := h.snapshots w S hS
    have hversion : row.version = m.version :=
      Nat.le_antisymm (le_of_mem_argmax hrow hlatest) hle
    obtain rfl := eq_of_version_eq h.versions hrow hm hversion
    rw [getSnapshot, hw]
    exact ⟨rfl, hS⟩

/-! ### Calls on their way to the cache -/

namespace ConfigCall

def pending : ConfigCall → Option ConfigVersionRow
  | .readBack row => some row
  | .putSnapshot row _ _ => some row
  | _ => none

def CanCache (rows : List ConfigVersionRow) : ConfigCall → Prop
  | .readBack row => row ∈ rows
  | .putSnapshot row snapshot _ => row ∈ rows ∧ snapshot = row.snapshotContent
  | .invalidate _ => False
  | _ => True

/-- The statement is answered, and no newer version has been cached. -/
def Orderly (store : ConfigStore) (x : Answer) : ConfigCall → Prop
  | .insert _ => x.outcome ≠ .answerLost
  | .readBack _ => x.outcome = .answered
  | .putSnapshot row _ _ => x.outcome = .answered ∧
    ∀ r ∈ store.versions, row.version < r.version → store.redis.snapshots r.version = none
  | _ => True

instance decidableOrderly (store : ConfigStore) (x : Answer) (c : ConfigCall) :
    Decidable (c.Orderly store x) := by
  cases c <;> (dsimp only [Orderly]; infer_instance)

variable {c : ConfigCall} {x : Answer} {store : ConfigStore}

lemma CanCache.mono {rows' : List ConfigVersionRow} (h : c.CanCache rows)
    (hsub : ∀ r ∈ rows, r ∈ rows') : c.CanCache rows' := by
  cases c with
  | readBack row => exact hsub row h
  | putSnapshot row snapshot attempt => exact ⟨hsub row h.1, h.2⟩
  | invalidate row => exact h
  | _ => trivial

lemma pending_of_not_running (h : c.Running = false) : c.pending = none := by
  cases c with
  | readBack row => cases h
  | putSnapshot row snapshot attempt => cases h
  | _ => rfl

lemma Reading.canCache (h : c.Reading) : c.CanCache rows := by
  cases c <;> first | exact h.elim | trivial

section

variable (hc : c.CanCache rows) (hpending : c.pending = none) (hinsert : ∀ new, c ≠ .insert new)
include hc hpending hinsert

lemma canCache_next : (c.next env x store).CanCache rows := by
  cases c with
  | listEnabled | listAll | loadNodes | listByRoute | publish =>
    refine Reading.next_elim trivial ?_ (fun _ => trivial) fun _ => trivial
    exact fun c' hc' => hc'.canCache
  | getTarget req =>
    apply afterRead_elim trivial
    cases rollbackTarget store.versions req <;> trivial
  | applySnapshot req snapshot =>
    rw [next]
    split <;> trivial
  | rollback req =>
    apply afterRead_elim trivial
    cases rollbackTarget store.versions req <;> trivial
  | latestVersion req target => exact afterRead_elim trivial trivial
  | insert new => exact absurd rfl (hinsert new)
  | readBack row => cases hpending
  | putSnapshot row snapshot attempt => cases hpending
  | invalidate row => exact hc.elim
  | idle => trivial
  | done result => trivial

lemma effect_of_pending_eq_none : (c.effect x store).versions = store.versions ∧
      (c.effect x store).redis = store.redis := by
  constructor
  · rcases c.effect_versions x store with heq | ⟨new, rfl, -⟩
    · exact heq
    · exact absurd rfl (hinsert new)
  · rcases c.effect_redis x store with heq | ⟨row, snapshot, attempt, rfl, -⟩ | ⟨row, rfl, -⟩
    · exact heq
    · cases hpending
    · exact hc.elim

end

end ConfigCall

/-- Cache writes come in the order of the versions. -/
def OrderlyStep (s : ServiceState) : ConfigEvent → Prop
  | .statement call x => (s.calls call).Orderly s.store x
  | _ => True

instance decidableOrderlyStep (s : ServiceState) (e : ConfigEvent) :
    Decidable (OrderlyStep s e) := by
  cases e <;> (dsimp only [OrderlyStep]; infer_instance)

/-! ### The invariant -/

/-- Each version is covered by the cache or by a call that is about to write it. -/
structure CacheInv (s : ServiceState) : Prop where
  store : s.store.CacheValid
  calls : ∀ call, (s.calls call).CanCache s.store.versions
  covered : ∀ row ∈ s.store.versions, (∃ w ∈ s.store.redis.version, row.version ≤ w) ∨
    ∃ call row', (s.calls call).pending = some row' ∧ row.version ≤ row'.version

def KeyGrows (u v : ServiceState) : Prop :=
  ∀ a ∈ u.store.redis.version, ∃ b ∈ v.store.redis.version, a ≤ b

lemma keyGrows_of_eq (h : v.store.redis = u.store.redis) : KeyGrows u v := by
  intro a ha
  exact ⟨a, h ▸ ha, Nat.le_refl a⟩

namespace CacheInv

lemma canCache_calls {k : Nat} (h : CacheInv u) (hsub : ∀ r ∈ u.store.versions, r ∈ rows)
    (hcalls : ∀ call ≠ k, v.calls call = u.calls call) (hk : (v.calls k).CanCache rows)
    (call : Nat) : (v.calls call).CanCache rows := by
  by_cases hcall : call = k
  · rw [hcall]
    exact hk
  · rw [hcalls call hcall]
    exact (h.calls call).mono hsub

lemma move {k : Nat} (h : CacheInv u) (hversions : v.store.versions = u.store.versions)
    (hredis : v.store.redis = u.store.redis) (hcalls : ∀ call ≠ k, v.calls call = u.calls call)
    (hk : (v.calls k).CanCache u.store.versions)
    (hpending : ∀ row ∈ (u.calls k).pending, (v.calls k).pending = some row) : CacheInv v := by
  refine ⟨h.store.of_eq hversions hredis, ?_, ?_⟩
  · rw [hversions]
    exact h.canCache_calls (fun _ hr => hr) hcalls hk
  · rw [hversions, hredis]
    intro row hrow
    refine (h.covered row hrow).imp_right ?_
    rintro ⟨call, row', hrow', hle⟩
    refine ⟨call, row', ?_, hle⟩
    by_cases hcall : call = k
    · subst hcall
      exact hpending row' hrow'
    · rw [hcalls call hcall]
      exact hrow'

variable {call : Nat} {x : Answer}

lemma readBack (h : CacheInv u) (hc : u.calls call = .readBack row)
    (hanswered : x.outcome = .answered) : CacheInv (u.execute env call x) := by
  have hrow : row ∈ u.store.versions := by
    have hcall := h.calls call
    rw [hc] at hcall
    exact hcall
  have hnext : (u.execute env call x).calls call = .putSnapshot row row.snapshotContent 1 := by
    rw [execute_self, hc, ConfigCall.next, afterRead, if_pos hanswered,
      findVersion_of_mem h.store.versions hrow]
  have hstore : (u.execute env call x).store = u.store := by
    rw [execute_store, hc]
    rfl
  refine h.move (congrArg (·.versions) hstore) (congrArg (·.redis) hstore)
    (fun k hk => execute_of_ne env x hk) ?_ ?_
  · rw [hnext]
    exact ⟨hrow, rfl⟩
  · rw [hc, hnext]
    exact fun _ hr => hr

lemma insert (henv : env.hasCache = true) (h : CacheInv u) {new : NewConfigVersion}
    (hc : u.calls call = .insert new) (hanswer : x.outcome ≠ .answerLost) :
    CacheInv (u.execute env call x) := by
  have hstore : (u.execute env call x).store = (ConfigCall.insert new).effect x u.store := by
    rw [execute_store, hc]
  have hnext : (u.execute env call x).calls call = (ConfigCall.insert new).next env x u.store := by
    rw [execute_self, hc]
  have hcalls : ∀ k ≠ call, (u.execute env call x).calls k = u.calls k :=
    fun k hk => execute_of_ne env x hk
  rcases insertStep_answered u.store.versions new x.id x.dbError hanswer with
    heq | ⟨hfresh, heq⟩
  · refine h.move ?_ ?_ hcalls ?_ ?_
    · rw [hstore, ConfigCall.effect, heq]
    · rw [hstore, ConfigCall.effect]
    · rw [hnext, ConfigCall.next, heq]
      trivial
    · rw [hc]
      exact fun _ hr => by cases hr
  · have hversions : (u.execute env call x).store.versions =
        u.store.versions ++ [new.toRow x.id] := by
      rw [hstore, ConfigCall.effect, heq]
    have hredis : (u.execute env call x).store.redis = u.store.redis := by
      rw [hstore, ConfigCall.effect]
    have hself : ((u.execute env call x).calls call).pending = some (new.toRow x.id) ∧
        ((u.execute env call x).calls call).CanCache (u.store.versions ++ [new.toRow x.id]) := by
      rw [hnext, ConfigCall.next, heq, ConfigCall.inserted, henv]
      cases new.publishType with
      | publish => exact ⟨rfl, by simp, rfl⟩
      | rollback => exact ⟨rfl, by simp [ConfigCall.CanCache]⟩
    refine ⟨h.store.insert hfresh hversions hredis, ?_, ?_⟩
    · rw [hversions]
      exact h.canCache_calls (fun r hr => mem_append_left _ hr) hcalls hself.2
    · rw [hversions, hredis]
      intro r hr
      rcases mem_append.mp hr with hr | hr
      · refine (h.covered r hr).imp_right ?_
        rintro ⟨k, row', hrow', hle⟩
        have hk : k ≠ call := by
          rintro rfl
          rw [hc] at hrow'
          cases hrow'
        exact ⟨k, row', (hcalls k hk).symm ▸ hrow', hle⟩
      · -- the row itself is pending
        obtain rfl := mem_singleton.mp hr
        exact .inr ⟨call, _, hself.1, Nat.le_refl _⟩

lemma putSnapshot (h : CacheInv u) {S : ConfigSnapshot} {attempt : Nat}
    (hc : u.calls call = .putSnapshot row S attempt) (hanswered : x.outcome = .answered)
    (horder : ∀ r ∈ u.store.versions, row.version < r.version →
      u.store.redis.snapshots r.version = none) :
    CacheInv (u.execute env call x) ∧ KeyGrows u (u.execute env call x) := by
  obtain ⟨hrow, rfl⟩ : row ∈ u.store.versions ∧ S = row.snapshotContent := by
    have hcall := h.calls call
    rw [hc] at hcall
    exact hcall
  have hexec : x.outcome ≠ .notExecuted := by simp [hanswered]
  have hversions : (u.execute env call x).store.versions = u.store.versions := by
    rw [execute_store, hc, effect, if_neg hexec]
  have hredis : (u.execute env call x).store.redis =
      u.store.redis.writeSnapshot row.version row.snapshotContent := by
    rw [execute_store, hc, effect, if_neg hexec]
  have hnext : (u.execute env call x).calls call = .done (.ok row) := by
    rw [execute_self, hc, ConfigCall.next, if_pos hanswered]
  have hcalls : ∀ k ≠ call, (u.execute env call x).calls k = u.calls k :=
    fun k hk => execute_of_ne env x hk
  have hle : ∀ a ∈ u.store.redis.version, a ≤ row.version := h.store.key_le horder
  refine ⟨⟨h.store.writeSnapshot hrow hversions hredis, ?_, ?_⟩, ?_⟩
  · rw [hversions]
    refine h.canCache_calls (fun _ hr => hr) hcalls ?_
    rw [hnext]
    trivial
  · rw [hversions, hredis]
    intro r hr
    rcases h.covered r hr with ⟨a, ha, hra⟩ | ⟨k, row', hrow', hle'⟩
    · exact .inl ⟨row.version, rfl, hra.trans (hle a ha)⟩
    · by_cases hk : k = call
      · rw [hk, hc] at hrow'
        obtain rfl : row = row' := some.inj hrow'
        exact .inl ⟨row.version, rfl, hle'⟩
      · exact .inr ⟨k, row', (hcalls k hk).symm ▸ hrow', hle'⟩
  · intro a ha
    rw [hredis]
    exact ⟨row.version, rfl, hle a ha⟩

lemma early (h : CacheInv u) (hpending : (u.calls call).pending = none)
    (hinsert : ∀ new, u.calls call ≠ .insert new) :
    CacheInv (u.execute env call x) ∧ KeyGrows u (u.execute env call x) := by
  obtain ⟨hversions, hredis⟩ := effect_of_pending_eq_none (x := x) (h.calls call)
    hpending hinsert
  refine ⟨?_, keyGrows_of_eq hredis⟩
  refine h.move hversions hredis (fun k hk => execute_of_ne env x hk) ?_ ?_
  · rw [execute_self]
    exact canCache_next (h.calls call) hpending hinsert
  · rw [hpending]
    exact fun _ hr => by cases hr

lemma statement (henv : env.hasCache = true) (h : CacheInv u)
    (hok : (u.calls call).Orderly u.store x) :
    CacheInv (u.execute env call x) ∧ KeyGrows u (u.execute env call x) := by
  cases hc : u.calls call with
  | insert new =>
    rw [hc] at hok
    refine ⟨h.insert henv hc hok, keyGrows_of_eq ?_⟩
    rw [execute_store, hc, effect]
  | readBack row =>
    rw [hc] at hok
    refine ⟨h.readBack hc hok, keyGrows_of_eq ?_⟩
    rw [execute_store, hc]
    rfl
  | putSnapshot row S attempt =>
    rw [hc] at hok
    exact h.putSnapshot hc hok.1 hok.2
  | _ => exact h.early (by rw [hc]; rfl) (by simp [hc])

lemma step (henv : env.hasCache = true) (h : CacheInv u) (hok : OrderlyStep u e)
    (hstep : configStep env u e = some v) : CacheInv v ∧ KeyGrows u v := by
  rcases configStep_cases hstep with ⟨k, c, hidle, hc, -, rfl⟩ | ⟨k, x, rfl, -, rfl⟩ |
    ⟨tables, rfl, rfl⟩
  · refine ⟨?_, keyGrows_of_eq rfl⟩
    refine h.move rfl rfl (fun call hcall => setCall_of_ne hcall) ?_ ?_
    · rw [setCall_self]
      rcases hc with ⟨args, rfl⟩ | ⟨req, rfl⟩ <;> trivial
    · rw [hidle]
      exact fun _ hr => by cases hr
  · exact h.statement henv hok
  · refine ⟨?_, keyGrows_of_eq rfl⟩
    exact h.move (k := 0) rfl rfl (fun _ _ => rfl) (h.calls 0) fun _ hr => hr

lemma inSync (h : CacheInv t) (hfinished : ∀ call, (t.calls call).Running = false) :
    t.store.InSync := by
  refine ⟨h.store, ?_⟩
  intro row hrow
  rcases h.covered row hrow with hkey | ⟨call, row', hrow', -⟩
  · exact hkey
  · rw [pending_of_not_running (hfinished call)] at hrow'
    cases hrow'

lemma of_inSync (hsync : s.store.InSync) (hidle : ∀ call, s.calls call = .idle) : CacheInv s := by
  refine ⟨hsync.toCacheValid, ?_, fun row hrow => .inl (hsync.latest row hrow)⟩
  intro call
  rw [hidle call]
  trivial

end CacheInv

/-- While every row is cached, and none after a later one, the version key never goes back, and when
no call is under way it is the latest version, with its snapshot. -/
theorem cache_follows_versions (henv : env.hasCache = true) (hsync : s.store.InSync)
    (hidle : ∀ call, s.calls call = .idle)
    (horderly : Meets (configStep env) OrderlyStep s events)
    (hrun : run (configStep env) s events = some t) :
    (∀ u e v, (u, e, v) ∈ trace (configStep env) s events →
      ∀ a ∈ u.store.redis.version, ∃ b ∈ v.store.redis.version, a ≤ b) ∧
    ((∀ call, (t.calls call).Running = false) →
      t.store.redis.version = (latestRow t.store.versions).map (·.version) ∧
      t.store.redis.getSnapshot = (latestRow t.store.versions).map (·.snapshotContent)) := by
  have hstart : CacheInv s := CacheInv.of_inSync hsync hidle
  have hstep : ∀ u e v, CacheInv u → OrderlyStep u e → configStep env u e = some v →
      CacheInv v ∧ KeyGrows u v := fun u e v hu hok hv => hu.step henv hok hv
  refine ⟨?_, ?_⟩
  · exact forall_trace_of_meets (Q := fun u _ v => KeyGrows u v) hstep hstart horderly
  · intro hfinished
    have hend : CacheInv t := by
      refine invariant_of_meets ?_ hstart horderly hrun
      exact fun u e v hu hok hv => (hstep u e v hu hok hv).1
    exact (hend.inSync hfinished).latestRow

def orderlyEvents : List ConfigEvent :=
  .publishConfig 0 ⟨0, none, none⟩ :: statements 0 5 plainAnswer ++
    .rollbackConfig 1 ⟨1, none⟩ :: statements 1 5 { plainAnswer with id := 2 } ++
    .publishConfig 2 ⟨2, none, none⟩ :: statements 2 4 { plainAnswer with id := 3 } ++
    statements 1 2 plainAnswer ++ statements 2 1 plainAnswer

theorem cache_follows_versions_in_order :
    ∃ t, run (configStep plainConfigEnv) (.start ⟨.init, .empty⟩)
        orderlyEvents = some t ∧
      t.store.versions.map (·.version) = [1, 2, 3] ∧ t.store.redis.version = some 3 ∧
      t.store.redis.getSnapshot = (latestRow t.store.versions).map (·.snapshotContent) := by
  obtain ⟨t, hrun, hversions, hlatest, hfinished⟩ : ∃ t,
      run (configStep plainConfigEnv) (.start ⟨.init, .empty⟩) orderlyEvents = some t ∧
      t.store.versions.map (·.version) = [1, 2, 3] ∧
      (latestRow t.store.versions).map (·.version) = some 3 ∧
      ∀ call, (t.calls call).Running = false :=
    ⟨_, rfl, rfl, rfl, by rintro (_ | _ | _ | call) <;> rfl⟩
  have hsync : (ServiceState.start ⟨.init, .empty⟩).store.InSync :=
    ⟨⟨nodup_nil, by rintro w S ⟨⟩, by rintro w ⟨⟩⟩, by rintro row ⟨⟩⟩
  obtain ⟨hkey, hsnapshot⟩ := (cache_follows_versions rfl hsync (fun _ => rfl) (by decide) hrun).2
    hfinished
  exact ⟨t, hrun, hversions, hkey.trans hlatest, hsnapshot⟩

def overtakenEvents (tables : Tables) : List ConfigEvent :=
  .publishConfig 0 ⟨0, none, none⟩ :: statements 0 4 plainAnswer ++
    .edit tables :: .publishConfig 1 ⟨1, none, none⟩ ::
    statements 1 6 { plainAnswer with id := 2 }

/-- Then the first publish caches version 1: the key goes back, and stays there with a snapshot
that lacks the route, when all calls have returned and every statement was answered. -/
theorem cache_falls_behind :
    ∃ s u t, run (controlStep plainEnv) ControlState.init
        [(0, .createRoute usersRoute)] = some s ∧
      run (configStep plainConfigEnv) (.start ⟨.init, .empty⟩)
        (overtakenEvents s.tables) = some u ∧
      configStep plainConfigEnv u (.statement 0 plainAnswer) = some t ∧
      (∀ call, (t.calls call).Running = false) ∧
      u.store.redis.version = some 2 ∧ t.store.redis.version = some 1 ∧
      latestVersion t.store.versions = 2 ∧
      t.store.redis.getSnapshot.map (·.routes.length) = some 0 ∧
      (latestRow t.store.versions).map (·.snapshotContent.routes.length) = some 1 :=
  ⟨_, _, _, rfl, rfl, rfl, by rintro (_ | _ | call) <;> rfl, rfl, rfl, rfl, rfl, rfl⟩

/-! ### What is read from the cache

`get_snapshot` reads the version key and then the snapshot of that version, in two commands. Calls
may write to Redis in between, fail, or lose the answers to their statements. -/

namespace ConfigCall

variable {c : ConfigCall} {x : Answer} {store : ConfigStore}

/-- `c` will write nothing to Redis but the content of a version row. -/
def Carries (rows : List ConfigVersionRow) (c : ConfigCall) : Prop :=
  c.CanCache rows ∨ ∃ row, c = .invalidate row

lemma Carries.execute (env : ConfigEnv) (x : Answer) (h : c.Carries store.versions)
    (hvalid : store.CacheValid) : (c.effect x store).CacheValid ∧
      (c.next env x store).Carries (c.effect x store).versions := by
  cases c with
  | insert new =>
    rcases insertStep_cases store.versions new x.outcome x.id x.dbError with
      heq | ⟨hfresh, hrows, hresult⟩
    · refine ⟨hvalid.of_eq (congrArg Prod.fst heq) rfl, .inl ?_⟩
      rw [next, heq]
      trivial
    · refine ⟨hvalid.insert hfresh hrows rfl, .inl ?_⟩
      have hnew : new.toRow x.id ∈ ((insert new).effect x store).versions := by
        simp [effect, hrows]
      rw [next]
      refine inserted_elim (fun _ => trivial) ?_ ?_ <;> intro row hrow <;>
        rcases hresult with hresult | hresult <;> cases hrow.symm.trans hresult
      · exact ⟨hnew, rfl⟩
      · exact hnew
  | readBack row =>
    have hrow : row ∈ store.versions := h.resolve_right (by simp)
    refine ⟨hvalid, .inl (afterRead_elim trivial ?_)⟩
    rw [findVersion_of_mem hvalid.versions hrow]
    exact ⟨hrow, rfl⟩
  | putSnapshot row snapshot attempt =>
    obtain ⟨hrow, rfl⟩ : row ∈ store.versions ∧ snapshot = row.snapshotContent :=
      h.resolve_right (by simp)
    rw [effect, next]
    constructor
    · split_ifs
      · exact hvalid
      · exact hvalid.writeSnapshot hrow rfl rfl
    · split_ifs
      all_goals first | exact .inl trivial | exact .inl ⟨hrow, rfl⟩ | exact .inr ⟨row, rfl⟩
  | invalidate row =>
    refine ⟨?_, .inl trivial⟩
    rw [effect]
    split_ifs
    · exact hvalid
    · exact ⟨hvalid.versions, hvalid.snapshots, by rintro w ⟨⟩⟩
  | _ =>
    have hc := h.resolve_right (by simp)
    obtain ⟨hversions, hredis⟩ := @effect_of_pending_eq_none _ _ x store hc rfl (by simp)
    rw [hversions]
    exact ⟨hvalid.of_eq hversions hredis, .inl (canCache_next hc rfl (by simp))⟩

lemma mem_effect_versions {row : ConfigVersionRow} (h : row ∈ store.versions) :
    row ∈ (c.effect x store).versions := by
  rcases c.effect_versions x store with heq | ⟨new, -, -, heq⟩ <;> rw [heq]
  · exact h
  · exact mem_append_left _ h

lemma exists_effect_snapshots {w : Nat} (h : ∃ S, store.redis.snapshots w = some S) :
    ∃ S, (c.effect x store).redis.snapshots w = some S := by
  rcases c.effect_redis x store with heq | ⟨row, S, -, -, heq⟩ | ⟨row, -, heq⟩ <;> rw [heq]
  · exact h
  · by_cases hw : w = row.version
    · exact ⟨S, by rw [hw]; exact Function.update_self ..⟩
    · simpa only [RedisConfigCache.writeSnapshot, Function.update_of_ne hw] using h
  · exact h

end ConfigCall

structure Truthful (seen : Option Nat) (s : ServiceState) : Prop where
  store : s.store.CacheValid
  calls : ∀ call, (s.calls call).Carries s.store.versions
  kept : ∀ w ∈ seen, ∃ S, s.store.redis.snapshots w = some S

lemma Truthful.step {seen : Option Nat} (h : Truthful seen s)
    (hstep : configStep env s e = some t) : Truthful seen t := by
  rcases configStep_cases hstep with ⟨k, c, -, hc, -, rfl⟩ | ⟨k, x, rfl, -, rfl⟩ |
    ⟨tables, rfl, rfl⟩
  · refine ⟨h.store, fun call => ?_, h.kept⟩
    by_cases hcall : call = k
    · rw [hcall, setCall_self]
      rcases hc with ⟨args, rfl⟩ | ⟨req, rfl⟩ <;> exact .inl trivial
    · rw [setCall_of_ne hcall]
      exact h.calls call
  · obtain ⟨hvalid, hnext⟩ := (h.calls k).execute env x h.store
    refine ⟨hvalid, fun call => ?_, fun w hw => exists_effect_snapshots (h.kept w hw)⟩
    by_cases hcall : call = k
    · rw [hcall, execute_self]
      exact hnext
    · rw [execute_of_ne env x hcall]
      exact (h.calls call).imp_left (·.mono fun _ => mem_effect_versions)
  · exact ⟨h.store.of_eq rfl rfl, h.calls, h.kept⟩

/-- A reader that has found a version gets the snapshot of that version's row, whatever calls do
before its second command and however their statements end. -/
theorem cache_reads_versions (env : ConfigEnv) (events later : List ConfigEvent)
    (hvalid : s.store.CacheValid) (hidle : ∀ call, s.calls call = .idle)
    (hrun : run (configStep env) s events = some t)
    (hlater : run (configStep env) t later = some u) :
    ∀ w ∈ t.store.redis.version, ∃ row ∈ u.store.versions, row.version = w ∧
      u.store.redis.snapshots w = some row.snapshotContent := by
  have hs : Truthful none s :=
    ⟨hvalid, fun call => .inl (by rw [hidle call]; trivial), by rintro w ⟨⟩⟩
  have ht : Truthful none t := invariant (fun _ _ _ h => h.step) hs hrun
  -- from here on the versions seen by the reader stay cached
  have hu : Truthful t.store.redis.version u :=
    invariant (fun _ _ _ h => h.step) ⟨ht.store, ht.calls, ht.store.key⟩ hlater
  intro w hw
  obtain ⟨S, hS⟩ := hu.kept w hw
  obtain ⟨row, hrow, hversion, rfl⟩ := hu.store.snapshots w S hS
  exact ⟨row, hrow, hversion, hS⟩

/-- The key has passed on to version 3 when the reader asks for version 1. -/
theorem cache_reads_versions_in_order :
    ∃ t u, run (configStep plainConfigEnv) (.start ⟨.init, .empty⟩) (orderlyEvents.take 6) =
        some t ∧ t.store.redis.version = some 1 ∧
      run (configStep plainConfigEnv) t (orderlyEvents.drop 6) = some u ∧
      u.store.redis.version = some 3 ∧ ∃ row ∈ u.store.versions, row.version = 1 ∧
        u.store.redis.snapshots 1 = some row.snapshotContent :=
  ⟨_, _, rfl, rfl, rfl, rfl, cache_reads_versions (s := .start ⟨.init, .empty⟩) plainConfigEnv
    (orderlyEvents.take 6) (orderlyEvents.drop 6) ⟨nodup_nil, by rintro w S ⟨⟩, by rintro w ⟨⟩⟩
    (fun _ => rfl) rfl rfl 1 rfl⟩

end Conrogate
