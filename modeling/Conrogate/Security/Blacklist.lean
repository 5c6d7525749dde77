import Conrogate.Cli.HttpConfigLoader
import Conrogate.Lib.Calls
import Conrogate.Plugins.IpAllowDeny

/-!
# The blacklist

`BlacklistMatcher` keeps the entries of the last `reload`, without those that had expired by
then. A query looks at the entries twice, and at the clock in between; reloads may complete at any
of these points.
-/

namespace Conrogate

open List Transition ConrogateError

variable {Net : Type} (net : IpNetCrate Net)

structure BlacklistEntry (Net : Type) where
  net : Net
  expiresAt : Option Time

namespace BlacklistMatcher

def expired (now : Time) (expiresAt : Option Time) : Bool := expiresAt.any (· ≤ now)

/-- The entries that `reload` builds. -/
def reload (now : Time) (dtos : List IpBlacklistDto) : List (BlacklistEntry Net) :=
  dtos.filterMap fun d => do
    let n ← parseIpOrCidr net d.ipOrCidr.toList
    if expired now d.expiresAt then none else some ⟨n, d.expiresAt⟩

/-- The last part of `is_blocked`. -/
def scan (entries : List (BlacklistEntry Net)) (ip : IpAddr) (now : Time) : Bool :=
  entries.any fun e => if expired now e.expiresAt then false else net.containsAddr e.net ip

/-- `is_blocked` while nothing else happens. -/
def isBlocked (entries : List (BlacklistEntry Net)) (ip : String) (now : Time) : Bool :=
  if entries.isEmpty then false
  else (parseIpAddr (trim ip.toList)).any fun a => scan net entries a now

end BlacklistMatcher

open BlacklistMatcher

/-- The list has an entry that is in force at the time and contains the address. -/
def Blacklists (dtos : List IpBlacklistDto) (now : Time) (a : IpAddr) : Prop :=
  ∃ d ∈ dtos, ∃ n, parseIpOrCidr net d.ipOrCidr.toList = some n ∧
    (∀ exp, d.expiresAt = some exp → now < exp) ∧ net.containsAddr n a = true

lemma scan_reload_iff (t now : Time) (dtos : List IpBlacklistDto) (a : IpAddr) :
    scan net (reload net t dtos) a now = true ↔ Blacklists net dtos (max now t) a := by
  have hlive : ∀ e : Option Time, expired t e = false ∧ expired now e = false ↔
      ∀ exp, e = some exp → max now t < exp := by
    intro e
    cases e <;> simp [expired, and_comm]
  simp only [scan, reload, any_eq_true, mem_filterMap, Blacklists, ← hlive]
  constructor
  · rintro ⟨e, ⟨d, hd, he⟩, hscan⟩
    obtain ⟨n, hn, he⟩ := Option.bind_eq_some_iff.mp he
    split_ifs at he with ht
    obtain rfl := Option.some.inj he
    split_ifs at hscan with hnow
    exact ⟨d, hd, n, hn, ⟨by simpa using ht, by simpa using hnow⟩, hscan⟩
  · rintro ⟨d, hd, n, hn, ⟨ht, hnow⟩, ha⟩
    exact ⟨⟨n, d.expiresAt⟩, ⟨d, hd, by simp [hn, ht]⟩, by simp [hnow, ha]⟩

/-- How far a call of `is_blocked` has come. The time of an answer is the one the call read, or
the time of the answer if it read none; `last` is the last reload completed by then. -/
inductive QueryStage where
  | checked
  | timed (ip : IpAddr) (now : Time)
  | answered (blocked : Bool) (now : Time) (last : Nat)
deriving DecidableEq

structure BlacklistQuery where
  ip : String
  first : Nat
  stage : QueryStage
deriving DecidableEq

/-- The matcher, with the reloads that were completed and those that only read the clock. -/
structure BlacklistState (Net : Type) where
  clock : Time
  entries : List (BlacklistEntry Net)
  completed : List (Time × List IpBlacklistDto)
  pending : List (Time × List IpBlacklistDto)
  queries : List BlacklistQuery

def BlacklistState.init : BlacklistState Net := ⟨0, [], [(0, [])], [], []⟩

inductive BlacklistEvent where
  | tick (now : Time)
  | reload (dtos : List IpBlacklistDto)
  | install (i : Nat)
  | isBlocked (ip : String)
  | readClock (i : Nat)
  | scan (i : Nat)

def BlacklistState.last (s : BlacklistState Net) : Nat := s.completed.length - 1

def blacklistStep (s : BlacklistState Net) : BlacklistEvent → Option (BlacklistState Net)
  | .tick now => if s.clock ≤ now then some { s with clock := now } else none
  | .reload dtos => some { s with pending := s.pending ++ [(s.clock, dtos)] }
  | .install i => s.pending[i]?.map fun (t, dtos) =>
    { s with
      entries := reload net t dtos
      completed := s.completed ++ [(t, dtos)]
      pending := s.pending.eraseIdx i }
  | .isBlocked ip =>
    let stage := if s.entries.isEmpty then .answered false s.clock s.last else .checked
    some { s with queries := s.queries ++ [⟨ip, s.last, stage⟩] }
  | .readClock i => s.queries[i]?.bind fun q =>
    if q.stage = .checked then
      let stage := match parseIpAddr (trim q.ip.toList) with
        | some a => .timed a s.clock
        | none   => .answered false s.clock s.last
      some { s with queries := s.queries.set i { q with stage } }
    else none
  | .scan i => s.queries[i]?.bind fun q =>
    match q.stage with
    | .timed a now =>
      some { s with
        queries := s.queries.set i
          { q with stage := .answered (scan net s.entries a now) now s.last } }
    | _ => none

/-- A call that nothing interrupts answers what `isBlocked` says. -/
lemma exists_run_isBlocked (s : BlacklistState Net) (ip : String) :
    ∃ events, ∃ u ∈ run (blacklistStep net) s events, u.queries = s.queries ++
      [⟨ip, s.last, .answered (isBlocked net s.entries ip s.clock) s.clock s.last⟩] := by
  by_cases hempty : s.entries.isEmpty
  · exact ⟨[.isBlocked ip], _, rfl, by simp [isBlocked, hempty]⟩
  · cases hip : parseIpAddr (trim ip.toList) with
    | none =>
      refine ⟨[.isBlocked ip, .readClock s.queries.length], ?_⟩
      simp [run, blacklistStep, hempty, isBlocked, hip, BlacklistState.last]
    | some a =>
      refine ⟨[.isBlocked ip, .readClock s.queries.length, .scan s.queries.length], ?_⟩
      simp [run, blacklistStep, hempty, isBlocked, hip, BlacklistState.last]

/-- The answer is right for a reload that was the last one at some point of the call, and for
the later of the times that the two read. -/
def AnswerFits (completed : List (Time × List IpBlacklistDto)) (q : BlacklistQuery)
    (blocked : Bool) (now : Time) (last : Nat) : Prop :=
  ∃ n t dtos, q.first ≤ n ∧ n ≤ last ∧ completed[n]? = some (t, dtos) ∧
    (n = q.first → t ≤ now) ∧
    (blocked = true ↔ ∃ a, parseIpAddr (trim q.ip.toList) = some a ∧
      Blacklists net dtos (max now t) a)

/-- What holds of a query while the given reloads are completed. -/
def QueryFits (completed : List (Time × List IpBlacklistDto)) (q : BlacklistQuery) : Prop :=
  q.first < completed.length ∧
    match q.stage with
    | .checked => True
    | .timed a now => parseIpAddr (trim q.ip.toList) = some a ∧
        ∀ t dtos, completed[q.first]? = some (t, dtos) → t ≤ now
    | .answered blocked now last => AnswerFits net completed q blocked now last

structure BlacklistInv (s : BlacklistState Net) : Prop where
  current : ∃ t dtos, s.completed[s.last]? = some (t, dtos) ∧ s.entries = reload net t dtos
  times : ∀ r ∈ s.completed ++ s.pending, r.1 ≤ s.clock
  queries : ∀ q ∈ s.queries, QueryFits net s.completed q

section

variable {net} {s : BlacklistState Net} {q : BlacklistQuery}

lemma QueryFits.concat {completed : List (Time × List IpBlacklistDto)}
    (h : QueryFits net completed q) (r : Time × List IpBlacklistDto) :
    QueryFits net (completed ++ [r]) q := by
  obtain ⟨hfirst, hstage⟩ := h
  refine ⟨by rw [length_append]; omega, ?_⟩
  split at hstage
  · trivial
  · rwa [getElem?_append_left hfirst]
  · obtain ⟨n, t, dtos, hn, hlast, hget, hrest⟩ := hstage
    obtain ⟨hlt, -⟩ := List.getElem?_eq_some_iff.mp hget
    exact ⟨n, t, dtos, hn, hlast, by rwa [getElem?_append_left hlt], hrest⟩

section

variable (h : BlacklistInv net s)
include h

lemma BlacklistInv.time_le {n : Nat} {t : Time} {dtos : List IpBlacklistDto}
    (hn : s.completed[n]? = some (t, dtos)) : t ≤ s.clock :=
  h.times _ (mem_append_left _ (mem_of_getElem? hn))

lemma BlacklistInv.answerFits (hfirst : q.first < s.completed.length) {blocked : Bool} {now : Time}
    (hnow : ∀ t dtos, s.completed[q.first]? = some (t, dtos) → t ≤ now)
    (hblocked : blocked = true ↔ ∃ a, parseIpAddr (trim q.ip.toList) = some a ∧
      scan net s.entries a now = true) : AnswerFits net s.completed q blocked now s.last := by
  obtain ⟨t, dtos, hlast, hentries⟩ := h.current
  refine ⟨s.last, t, dtos, Nat.le_sub_one_of_lt hfirst, le_rfl, hlast, ?_, ?_⟩
  · rintro heq
    exact hnow t dtos (heq ▸ hlast)
  · simp only [hblocked, hentries, scan_reload_iff]

lemma BlacklistInv.set {i : Nat} {stage : QueryStage}
    (hq : QueryFits net s.completed { q with stage }) :
    BlacklistInv net { s with queries := s.queries.set i { q with stage } } :=
  ⟨h.current, h.times, Calls.forall_mem_set h.queries hq⟩

lemma BlacklistInv.step {s' : BlacklistState Net} {e : BlacklistEvent}
    (hstep : blacklistStep net s e = some s') : BlacklistInv net s' := by
  cases e with
  | tick now =>
    obtain ⟨hnow, rfl⟩ : s.clock ≤ now ∧ { s with clock := now } = s' := by
      simpa [blacklistStep] using hstep
    exact ⟨h.current, fun r hr => (h.times r hr).trans hnow, h.queries⟩
  | reload dtos =>
    obtain rfl := Option.some.inj hstep
    refine ⟨h.current, fun r hr => ?_, h.queries⟩
    rw [← append_assoc] at hr
    obtain hr | hr := mem_append.mp hr
    · exact h.times r hr
    · exact (congrArg Prod.fst (mem_singleton.mp hr)).le
  | install i =>
    obtain ⟨⟨t, dtos⟩, hi, rfl⟩ := Option.map_eq_some_iff.mp hstep
    refine ⟨⟨t, dtos, by simp [BlacklistState.last], rfl⟩, fun r hr => h.times r ?_, ?_⟩
    · obtain hr | hr := mem_append.mp hr
      · obtain hr | hr := mem_append.mp hr
        · exact mem_append_left _ hr
        · rw [mem_singleton.mp hr]
          exact mem_append_right _ (mem_of_getElem? hi)
      · exact mem_append_right _ (mem_of_mem_eraseIdx hr)
    · exact fun q hq => (h.queries q hq).concat _
  | isBlocked ip =>
    obtain rfl := Option.some.inj hstep
    have hlast : s.last < s.completed.length := by
      obtain ⟨t, dtos, hget, -⟩ := h.current
      exact (List.getElem?_eq_some_iff.mp hget).1
    refine ⟨h.current, h.times, fun q hq => ?_⟩
    obtain hq | hq := mem_append.mp hq
    · exact h.queries q hq
    · rw [mem_singleton.mp hq]
      refine ⟨hlast, ?_⟩
      split_ifs with hempty
      · refine h.answerFits hlast (fun t dtos => h.time_le) ?_
        simp [List.isEmpty_iff.mp hempty, scan]
      · trivial
  | readClock i =>
    obtain ⟨q, hq, -, rfl⟩ := Calls.guarded_eq_some.mp hstep
    obtain ⟨hfirst, -⟩ := h.queries q (mem_of_getElem? hq)
    refine h.set ⟨hfirst, ?_⟩
    cases hip : parseIpAddr (trim q.ip.toList) with
    | none => exact h.answerFits hfirst (fun t dtos => h.time_le) (by simp [hip])
    | some a => exact ⟨rfl, fun t dtos => h.time_le⟩
  | scan i =>
    obtain ⟨q, hq, hstep⟩ := Option.bind_eq_some_iff.mp hstep
    obtain ⟨hfirst, hstage⟩ := h.queries q (mem_of_getElem? hq)
    split at hstep
    · rename_i a now htimed
      obtain rfl := Option.some.inj hstep
      rw [htimed] at hstage
      exact h.set ⟨hfirst, h.answerFits hfirst hstage.2 (by simp [hstage.1])⟩
    · cases hstep

end

end

/-- Take any interleaving of reloads and queries. The answer of a query is the one that a list
gives which was current at some point of the call. The time of the query decides, unless the list
came in during the call and its reload read the clock later. -/
theorem isBlocked_iff_blacklists (events : List BlacklistEvent) (s : BlacklistState Net)
    (hrun : run (blacklistStep net) .init events = some s) (q : BlacklistQuery)
    (hq : q ∈ s.queries) (blocked : Bool) (now : Time) (last : Nat)
    (hanswer : q.stage = .answered blocked now last) :
    ∃ n t dtos, q.first ≤ n ∧ n ≤ last ∧ s.completed[n]? = some (t, dtos) ∧
      (n = q.first → t ≤ now) ∧
      (blocked = true ↔ ∃ a, parseIpAddr (trim q.ip.toList) = some a ∧
        Blacklists net dtos (max now t) a) := by
  have hinv : BlacklistInv net s := by
    refine invariant (fun s e t h hstep => h.step hstep) ?_ hrun
    exact ⟨⟨0, [], rfl, rfl⟩, by simp [BlacklistState.init], by simp [BlacklistState.init]⟩
  obtain ⟨-, hstage⟩ := hinv.queries q hq
  rw [hanswer] at hstage
  exact hstage

def permanentEntry : IpBlacklistDto := ⟨1, "10.0.0.1", none, none, none, 0⟩

def entryUntil11 : IpBlacklistDto := ⟨2, "10.0.0.1", none, some 11, none, 0⟩

theorem isBlocked_iff_blacklists_alone :
    let events : List BlacklistEvent :=
      [.reload [permanentEntry], .install 0, .isBlocked "10.0.0.1", .readClock 0, .scan 0]
    ∃ s q, run (blacklistStep ipNetCrate) .init events = some s ∧ q ∈ s.queries ∧
      q.stage = .answered true 0 1 ∧
      ∃ n t dtos, q.first ≤ n ∧ n ≤ 1 ∧ s.completed[n]? = some (t, dtos) ∧
        (n = q.first → t ≤ 0) ∧
        (true = true ↔ ∃ a, parseIpAddr (trim q.ip.toList) = some a ∧
          Blacklists ipNetCrate dtos (max 0 t) a) := by
  intro events
  exact ⟨_, _, rfl, mem_singleton.mpr rfl, rfl, isBlocked_iff_blacklists ipNetCrate events _
    rfl _ (mem_singleton.mpr rfl) true 0 1 rfl⟩

/-- The query reads the clock at 10. An entry that is in force until 11 replaces a permanent one
by a reload that reads 12: both lists have the client at 10, and it is not blocked. -/
theorem isBlocked_misses_dropped_entry :
    (∃ s, run (blacklistStep ipNetCrate) .init
        [.reload [permanentEntry], .install 0, .tick 10, .isBlocked "10.0.0.1", .readClock 0,
          .tick 12, .reload [entryUntil11], .install 0, .scan 0] = some s ∧
      s.queries = [⟨"10.0.0.1", 1, .answered false 10 2⟩] ∧
      s.completed = [(0, []), (0, [permanentEntry]), (12, [entryUntil11])]) ∧
    ∃ a, parseIpAddr (trim "10.0.0.1".toList) = some a ∧
      Blacklists ipNetCrate [permanentEntry] 10 a ∧ Blacklists ipNetCrate [entryUntil11] 10 a := by
  refine ⟨⟨_, rfl, by decide +kernel, rfl⟩, .v4 0x0A000001#32, by decide +kernel,
    ⟨_, mem_singleton.mpr rfl, .ofAddr (.v4 0x0A000001#32), rfl, nofun, by decide +kernel⟩,
    ⟨_, mem_singleton.mpr rfl, .ofAddr (.v4 0x0A000001#32), rfl, ?_, by decide +kernel⟩⟩
  rintro _ ⟨⟩
  decide

/-! ### Two forms of one client -/

/-- The IPv4-mapped form `::ffff:a`. -/
def mapped (a : BitVec 32) : BitVec 128 := 0xffff#96 ++ a

/-- The networks of the entries in force. -/
def netsInForce (entries : List (BlacklistEntry Net)) (now : Time) : List Net :=
  (entries.filter fun e => !expired now e.expiresAt).map (·.net)

/-- The list has a network for each of the two forms of the client, or none for either. -/
def NamesBothOrNone (nets : List Net) (a : BitVec 32) : Prop :=
  (∃ n ∈ nets, ∃ m ∈ nets, n ≠ m ∧ net.containsAddr n (.v4 a) = true ∧
    net.containsAddr m (.v6 (mapped a)) = true) ∨
  ∀ n ∈ nets, net.containsAddr n (.v4 a) = false ∧ net.containsAddr n (.v6 (mapped a)) = false

variable {net}

lemma any_containsAddr_eq_iff (hfamily : net.OneFamily) (nets : List Net) (a : BitVec 32) :
    ((nets.any fun n => net.containsAddr n (.v4 a)) =
      nets.any fun n => net.containsAddr n (.v6 (mapped a))) ↔ NamesBothOrNone net nets a := by
  constructor
  · intro heq
    cases hv6 : nets.any fun n => net.containsAddr n (.v6 (mapped a)) with
    | false =>
      rw [hv6] at heq
      refine .inr fun n hn => ⟨?_, ?_⟩
      · exact Bool.eq_false_iff.mpr (any_eq_false.mp heq n hn)
      · exact Bool.eq_false_iff.mpr (any_eq_false.mp hv6 n hn)
    | true =>
      rw [hv6] at heq
      obtain ⟨n, hn, hcontains⟩ := any_eq_true.mp heq
      obtain ⟨m, hm, hcontains'⟩ := any_eq_true.mp hv6
      refine .inl ⟨n, hn, m, hm, ?_, hcontains, hcontains'⟩
      rintro rfl
      rw [hfamily.not_v6_of_v4 n a _ hcontains] at hcontains'
      cases hcontains'
  · rintro (⟨n, hn, m, hm, -, hcontains, hcontains'⟩ | hnone)
    · rw [any_eq_true.mpr ⟨n, hn, hcontains⟩, any_eq_true.mpr ⟨m, hm, hcontains'⟩]
    · rw [any_eq_false.mpr fun n hn => Bool.eq_false_iff.mp (hnone n hn).1,
        any_eq_false.mpr fun n hn => Bool.eq_false_iff.mp (hnone n hn).2]

section

variable {s : String} {ip : IpAddr} (hs : parseIpAddr s.toList = some ip)
include hs

lemma isBlocked_eq_any (entries : List (BlacklistEntry Net)) (now : Time) :
    isBlocked net entries s now =
      (netsInForce entries now).any fun n => net.containsAddr n ip := by
  rw [isBlocked, trim_of_parseIpAddr hs, hs, Option.any_some, scan, netsInForce, any_map,
    any_filter]
  split_ifs with hempty
  · simp [List.isEmpty_iff.mp hempty]
  · congr 1
    funext e
    cases expired now e.expiresAt <;> rfl

lemma decide_eq (hlawful : net.Lawful) (plugin : IpAllowDenyPlugin Net) (traceId : String) :
    plugin.decide net s traceId =
      if ((plugin.deny.any fun n => net.containsAddr n ip) || (!plugin.allow.isEmpty &&
        !(plugin.allow.any fun n => net.containsAddr n ip))) = true then
        some (errorBodyWithTrace traceId forbidden.code "forbidden: ip not allowed")
      else none := by
  have hip : parseIpAddr (trim s.toList) = some ip := by rw [trim_of_parseIpAddr hs, hs]
  simp only [IpAllowDenyPlugin.decide, parseIpOrCidr_of_addr hlawful hip,
    hlawful.containsNet_ofAddr, Option.bind_eq_bind, Option.bind_some]

end

def bothForms : List IpNet :=
  ["10.0.0.0/8", "::ffff:10.0.0.0/104"].filterMap fun s => parseIpOrCidr ipNetCrate s.toList

end Conrogate
