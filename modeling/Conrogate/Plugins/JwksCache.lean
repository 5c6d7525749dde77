import Conrogate.Lib.History
import Conrogate.Lib.Transition
import Conrogate.Plugins.Auth

/-!
# How old the keys of the cache are

A request looks under the read lock, then under the write lock, which it holds while it fetches.
Only the second look asks how old the keys are.
-/

namespace Conrogate

open List Transition

inductive JwksCall (Key : Type) where
  | missed (kid : String) (seen : JwksCache Key)
  | finished

inductive JwksEntry (Key : Type) where
  | fetched (time : Time) (keys : String → Option Key)
  | fetchFailed (time : Time)
  | resolved (kid : String) (key : Key) (time : Time) (failed : Bool)

structure JwksState (Key : Type) where
  cache : JwksCache Key
  now : Time
  calls : List (JwksCall Key)
  log : List (JwksEntry Key)

open JwksState

inductive JwksEvent where
  | read (kid : String) (now : Time)
  | write (i : Nat) (env : JwksEnv)

namespace JwksState

variable {Key : Type}

def new (now : Time) : JwksState Key := ⟨.new, now, [], []⟩

variable (jwt : JwtCrate Key) (ttl : Time)

def fetchEntries (cache : JwksCache Key) (env : JwksEnv) : List (JwksEntry Key) :=
  if cache.isStale ttl env.now then
    match fetchJwks jwt env.answer with
    | .ok keys => [.fetched env.fetchedAt keys]
    | .error _ => [.fetchFailed env.fetchedAt]
  else []

def fetchFails (cache : JwksCache Key) (env : JwksEnv) : Bool :=
  cache.isStale ttl env.now && !(fetchJwks jwt env.answer).isOk

def writeTime (cache : JwksCache Key) (env : JwksEnv) : Time :=
  if cache.isStale ttl env.now then env.fetchedAt else env.now

def step (s : JwksState Key) : JwksEvent → Option (JwksState Key)
  | .read kid now =>
    if now < s.now then none
    else match s.cache.keys kid with
      | some key => some { s with now := now, log := s.log ++ [.resolved kid key now false] }
      | none => some { s with now := now, calls := s.calls ++ [.missed kid s.cache] }
  | .write i env =>
    if env.now < s.now ∨ env.fetchedAt < env.now then none
    else match s.calls[i]? with
      | some (.missed kid seen) =>
        let time := writeTime ttl s.cache env
        let answer := match jwksKey jwt seen s.cache ttl env kid with
          | some key => [.resolved kid key time (fetchFails jwt ttl s.cache env)]
          | none => []
        some {
          cache := s.cache.refresh jwt ttl env
          now := time
          calls := s.calls.set i .finished
          log := s.log ++ fetchEntries jwt ttl s.cache env ++ answer }
      | _ => none

end JwksState

/-! ### What the log says about the keys -/

def lastFetch {Key : Type} (log : List (JwksEntry Key)) : Option (Time × (String → Option Key)) :=
  log.foldl (fun last e => match e with
    | .fetched time keys => some (time, keys)
    | _ => last) none

namespace JwksState

variable {Key : Type}

/-- A key that is returned was in the most recent successful fetch, and that fetch is no older than
the lifetime of the cache or the request could not fetch. A key that is no longer served is not
returned after one lifetime, as long as no fetch fails. -/
def KeysFresh (ttl : Time) (log : List (JwksEntry Key)) : Prop :=
  (∀ before kid key time failed after, log = before ++ .resolved kid key time failed :: after →
    ∃ fetchedAt keys, lastFetch before = some (fetchedAt, keys) ∧ keys kid = some key ∧
      (time ≤ fetchedAt + ttl ∨ failed = true)) ∧
  ∀ withdrawn kid key,
    (∀ time keys, .fetched time keys ∈ log → withdrawn ≤ time → keys kid ≠ some key) →
    (∀ time, .fetchFailed time ∈ log → time < withdrawn) →
    ∀ time failed, .resolved kid key time failed ∈ log → time ≤ withdrawn + ttl

def ReadsFresh (ttl : Time) (s : JwksState Key) : JwksEvent → Prop
  | .read kid now => s.cache.keys kid ≠ none → s.cache.isStale ttl now = false
  | .write .. => True

instance decidableReadsFresh (ttl : Time) (s : JwksState Key) :
    ∀ event, Decidable (s.ReadsFresh ttl event)
  | .read kid now =>
    decidable_of_iff ((s.cache.keys kid).isSome = true → s.cache.isStale ttl now = false)
      (by rw [ReadsFresh, Option.isSome_iff_ne_none])
  | .write .. => isTrue trivial

def EntryOk (ttl : Time) (before : List (JwksEntry Key)) : JwksEntry Key → Prop
  | .resolved kid key time failed =>
    ∃ fetchedAt keys, lastFetch before = some (fetchedAt, keys) ∧ keys kid = some key ∧
      (time ≤ fetchedAt + ttl ∨ failed = true ∧ .fetchFailed time ∈ before)
  | _ => True

def CacheOk (cache : JwksCache Key) (log : List (JwksEntry Key)) : Prop :=
  cache = .new ∨ ∃ time, cache.fetchedAt = some time ∧ lastFetch log = some (time, cache.keys)

structure Sound (ttl : Time) (s : JwksState Key) : Prop where
  cache : CacheOk s.cache s.log
  calls : ∀ kid seen, .missed kid seen ∈ s.calls → seen.keys kid = none
  log : History.Each (EntryOk ttl) s.log

section

variable {jwt : JwtCrate Key} {ttl : Time} {cache : JwksCache Key} {log : List (JwksEntry Key)}
  {s t : JwksState Key} {env : JwksEnv}

@[simp] lemma lastFetch_append_fetched (time : Time) (keys : String → Option Key) :
    lastFetch (log ++ [.fetched time keys]) = some (time, keys) := by
  simp [lastFetch]

@[simp] lemma lastFetch_append_fetchFailed (time : Time) :
    lastFetch (log ++ [.fetchFailed time]) = lastFetch log := by
  simp [lastFetch]

@[simp] lemma lastFetch_append_resolved (kid : String) (key : Key) (time : Time) (failed : Bool) :
    lastFetch (log ++ [.resolved kid key time failed]) = lastFetch log := by
  simp [lastFetch]

lemma fetched_mem_of_lastFetch {time : Time} {keys : String → Option Key}
    (h : lastFetch log = some (time, keys)) : .fetched time keys ∈ log := by
  induction log using List.reverseRecOn with
  | nil => cases h
  | append_singleton log e ih =>
    cases e with
    | fetched time' keys' =>
      rw [lastFetch_append_fetched] at h
      cases h
      exact mem_append_right log mem_cons_self
    | fetchFailed time' =>
      rw [lastFetch_append_fetchFailed] at h
      exact mem_append_left _ (ih h)
    | resolved kid key time' failed =>
      rw [lastFetch_append_resolved] at h
      exact mem_append_left _ (ih h)

variable {kid : String} {key : Key}

lemma CacheOk.of_key (h : CacheOk cache log) (hkey : cache.keys kid = some key) :
    ∃ time, cache.fetchedAt = some time ∧ lastFetch log = some (time, cache.keys) := by
  rcases h with rfl | h
  · cases hkey
  · exact h

lemma le_of_not_isStale {now time : Time} (hfetched : cache.fetchedAt = some time)
    (hfresh : cache.isStale ttl now = false) : now ≤ time + ttl := by
  simp only [JwksCache.isStale, hfetched] at hfresh
  exact Nat.sub_le_iff_le_add'.mp (Nat.not_lt.mp (of_decide_eq_false hfresh))

lemma Sound.hit (h : s.Sound ttl) {now : Time} (hkey : s.cache.keys kid = some key)
    (hfresh : s.cache.isStale ttl now = false) :
    Sound ttl { s with now := now, log := s.log ++ [.resolved kid key now false] } := by
  obtain ⟨time, hfetched, hlast⟩ := h.cache.of_key hkey
  refine ⟨?_, h.calls, h.log.append_singleton ?_⟩
  · exact .inr ⟨time, hfetched, by rw [lastFetch_append_resolved, hlast]⟩
  · exact ⟨time, _, hlast, hkey, .inl (le_of_not_isStale hfetched hfresh)⟩

lemma fetch_spec (jwt : JwtCrate Key) (env : JwksEnv) (hcache : CacheOk cache log)
    (hlog : History.Each (EntryOk ttl) log) :
    CacheOk (cache.refresh jwt ttl env) (log ++ fetchEntries jwt ttl cache env) ∧
    History.Each (EntryOk ttl) (log ++ fetchEntries jwt ttl cache env) ∧
    ∀ kid key, (cache.refresh jwt ttl env).keys kid = some key →
      EntryOk ttl (log ++ fetchEntries jwt ttl cache env)
        (.resolved kid key (writeTime ttl cache env) (fetchFails jwt ttl cache env)) := by
  rw [JwksCache.refresh, fetchEntries, writeTime, fetchFails]
  cases hstale : cache.isStale ttl env.now with
  | false =>
    simp only [Bool.false_eq_true, if_false, append_nil]
    refine ⟨hcache, hlog, fun kid key hkey => ?_⟩
    obtain ⟨time, hfetched, hlast⟩ := hcache.of_key hkey
    exact ⟨time, _, hlast, hkey, .inl (le_of_not_isStale hfetched hstale)⟩
  | true =>
    cases hfetch : fetchJwks jwt env.answer with
    | ok keys =>
      simp only [if_true]
      refine ⟨.inr ⟨env.fetchedAt, rfl, by simp⟩, hlog.append_singleton trivial, ?_⟩
      intro kid key hkey
      exact ⟨env.fetchedAt, keys, by simp, hkey, .inl (Nat.le_add_right _ _)⟩
    | error e =>
      simp only [if_true]
      refine ⟨?_, hlog.append_singleton trivial, ?_⟩
      · rcases hcache with hnew | ⟨time, hfetched, hlast⟩
        · exact .inl hnew
        · exact .inr ⟨time, hfetched, by rw [lastFetch_append_fetchFailed, hlast]⟩
      · intro kid key hkey
        obtain ⟨time, -, hlast⟩ := hcache.of_key hkey
        refine ⟨time, _, by rw [lastFetch_append_fetchFailed, hlast], hkey, .inr ⟨rfl, ?_⟩⟩
        exact mem_append_right log mem_cons_self

lemma Sound.read (h : s.Sound ttl) {now : Time} (hfresh : s.ReadsFresh ttl (.read kid now))
    (hstep : step jwt ttl s (.read kid now) = some t) :
    t.Sound ttl := by
  rw [step] at hstep
  split_ifs at hstep
  cases hkey : s.cache.keys kid with
  | some key =>
    simp only [hkey] at hstep
    cases hstep
    exact h.hit hkey (hfresh (by simp [hkey]))
  | none =>
    simp only [hkey] at hstep
    cases hstep
    refine ⟨h.cache, ?_, h.log⟩
    intro kid' seen hmem
    rcases mem_append.mp hmem with hmem | hmem
    · exact h.calls kid' seen hmem
    · cases mem_singleton.mp hmem
      exact hkey

lemma Sound.write (h : s.Sound ttl) {i : Nat} (hstep : step jwt ttl s (.write i env) = some t) :
    t.Sound ttl := by
  rw [step] at hstep
  split_ifs at hstep
  cases hi : s.calls[i]? with
  | none => simp [hi] at hstep
  | some call =>
    cases call with
    | finished => simp [hi] at hstep
    | missed kid seen =>
      simp only [hi] at hstep
      have hmissed := h.calls kid seen (mem_of_getElem? hi)
      have hcalls : ∀ kid seen, .missed kid seen ∈ s.calls.set i .finished →
          seen.keys kid = none := by
        intro kid seen hmem
        rcases mem_or_eq_of_mem_set hmem with hmem | heq
        · exact h.calls kid seen hmem
        · cases heq
      obtain ⟨hcache, hlog, hentry⟩ := fetch_spec jwt env h.cache h.log
      simp only [jwksKey, hmissed] at hstep
      cases hkey : (s.cache.refresh jwt ttl env).keys kid with
      | none =>
        simp only [hkey, append_nil] at hstep
        cases hstep
        exact ⟨hcache, hcalls, hlog⟩
      | some key =>
        simp only [hkey] at hstep
        cases hstep
        refine ⟨?_, hcalls, hlog.append_singleton (hentry kid key hkey)⟩
        rcases hcache with hnew | ⟨time, hfetched, hlast⟩
        · exact .inl hnew
        · exact .inr ⟨time, hfetched, by rw [lastFetch_append_resolved, hlast]⟩

lemma Sound.step (h : s.Sound ttl) (event : JwksEvent) (hfresh : s.ReadsFresh ttl event)
    (hstep : step jwt ttl s event = some t) : t.Sound ttl := by
  cases event with
  | read kid now => exact h.read hfresh hstep
  | write i env => exact h.write hstep

lemma sound_new (now : Time) : (new now : JwksState Key).Sound ttl :=
  ⟨.inl rfl, nofun, History.each_nil⟩

lemma Sound.keysFresh (h : s.Sound ttl) : KeysFresh ttl s.log := by
  constructor
  · intro before kid key time failed after hlog
    obtain ⟨fetchedAt, keys, hlast, hkey, hage⟩ := h.log before _ after hlog
    exact ⟨fetchedAt, keys, hlast, hkey, hage.imp_right And.left⟩
  · intro withdrawn kid key hgone hreachable time failed hmem
    obtain ⟨before, after, hlog, fetchedAt, keys, hlast, hkey, hage⟩ := h.log.of_mem hmem
    have hbefore : ∀ e ∈ before, e ∈ s.log := by
      intro e he
      rw [hlog]
      exact mem_append_left _ he
    have hfetched := hbefore _ (fetched_mem_of_lastFetch hlast)
    have hold : fetchedAt < withdrawn := by
      by_contra hlater
      exact hgone fetchedAt keys hfetched (not_lt.mp hlater) hkey
    rcases hage with hage | ⟨-, hfailed⟩
    · exact hage.trans (Nat.add_le_add_right hold.le ttl)
    · exact (hreachable time (hbefore _ hfailed)).le.trans (Nat.le_add_right _ _)

/-- In every run in which the first look of a request finds only keys that are not stale, the keys
that are returned are fresh. -/
theorem jwks_keys_fresh (jwt : JwtCrate Key) (ttl start : Time) (events : List JwksEvent)
    (hrun : run (step jwt ttl) (new start) events = some s)
    (hfresh : Meets (step jwt ttl) (ReadsFresh ttl) (new start) events) :
    KeysFresh ttl s.log := by
  have hsound : s.Sound ttl :=
    invariant_of_meets (fun s event t hs hok hnext => hs.step event hok hnext)
      (sound_new start) hfresh hrun
  exact hsound.keysFresh

end

def oneKey : JwksAnswer := .ok [⟨"RSA", some "k1", some "n", some "e"⟩]

theorem jwks_keys_fresh_within_ttl :
    let jwt := AuthPlugin.signedCrate []
    let events : List JwksEvent := [.read "k1" 0, .write 0 ⟨0, oneKey, 10⟩, .read "k1" 250000]
    Meets (step jwt 300000) (ReadsFresh 300000) (new 0) events ∧
    ∃ s, run (step jwt 300000) (new 0) events = some s ∧
      .resolved "k1" "ne" 250000 false ∈ s.log ∧ KeysFresh 300000 s.log := by
  intro jwt events
  have hmeets :
      Meets (step jwt 300000) (ReadsFresh 300000) (new 0) events := by
    decide +kernel
  refine ⟨hmeets, _, rfl, ?_, jwks_keys_fresh jwt 300000 0 events rfl hmeets⟩
  exact mem_append_right _ mem_cons_self

/-- A key is fetched, and found again a quarter of an hour later. The endpoint is not asked, so it
does not matter what it serves by then. -/
theorem jwks_key_outlives_ttl :
    let jwt := AuthPlugin.signedCrate []
    let events : List JwksEvent := [.read "k1" 0, .write 0 ⟨0, oneKey, 10⟩, .read "k1" 900000]
    ∃ s, run (step jwt 300000) (new 0) events = some s ∧
      .resolved "k1" "ne" 900000 false ∈ s.log ∧ ¬ KeysFresh 300000 s.log := by
  intro jwt events
  refine ⟨_, rfl, mem_append_right _ mem_cons_self, ?_⟩
  rintro ⟨hfresh, -⟩
  obtain ⟨fetchedAt, keys, hlast, -, hage⟩ := hfresh [_, _] "k1" "ne" 900000 false [] rfl
  cases hlast
  revert hage
  decide

end JwksState

end Conrogate
