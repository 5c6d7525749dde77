import Conrogate.Lib.Transition

/-!
# The idle timeout of HTTP connections

The timer is set once, when a connection is first served: what it limits is the lifetime of the
connection. Times are in nanoseconds.
-/

namespace Conrogate

open Option Transition

structure RequestProgress where
  received : Bool
  sent : Bool
deriving DecidableEq

def RequestProgress.inProgress (x : RequestProgress) : Bool := !(x.received && x.sent)

inductive HttpEnd where
  | served
  | idleTimeout
deriving DecidableEq

inductive HttpEvent where
  | request
  | bytes (i : Nat)
  | received (i : Nat)
  | sent (i : Nat)
  | served
  | elapsed
deriving DecidableEq

/-- `bytes` are the times at which bytes moved. -/
structure HttpConnection where
  start : Nat
  now : Nat
  exchanges : List RequestProgress
  bytes : List Nat
  ended : Option HttpEnd
deriving DecidableEq

namespace HttpConnection

def accepted (start : Nat) : HttpConnection := ⟨start, start, [], [], none⟩

variable (idleTimeout : Nat) (c : HttpConnection)

def exchange (time : Nat) (exchanges : List RequestProgress) : Option HttpConnection :=
  if c.start < time then
    some { c with now := time, exchanges := exchanges, bytes := c.bytes ++ [time] }
  else none

def step : Nat × HttpEvent → Option HttpConnection
  | (time, event) =>
    if c.ended = none ∧ c.now ≤ time then
      match event with
      | .request => c.exchange time (c.exchanges ++ [⟨false, false⟩])
      | .bytes i => do
        let x ← c.exchanges[i]?
        if x.inProgress then c.exchange time c.exchanges else none
      | .received i => do
        let x ← c.exchanges[i]?
        if x.received then none else c.exchange time (c.exchanges.set i { x with received := true })
      | .sent i => do
        let x ← c.exchanges[i]?
        if x.sent then none else c.exchange time (c.exchanges.set i { x with sent := true })
      | .served => some { c with now := time, ended := some .served }
      | .elapsed =>
        if c.start + idleTimeout ≤ time then
          some { c with now := time, ended := some .idleTimeout }
        else none
    else none

/-- An end by the timer spares what is in use: no request is in progress, and no byte has been
exchanged in the `idle_timeout` before. -/
def sparesActive : Nat × HttpEvent → Bool
  | (time, .elapsed) => c.exchanges.all (!·.inProgress) && c.bytes.all (· + idleTimeout ≤ time)
  | _ => true

def unused : Nat × HttpEvent → Bool
  | (_, .elapsed) => c.bytes.isEmpty
  | _ => true

variable {idleTimeout : Nat} {c d : HttpConnection} {time start : Nat} {event : HttpEvent}
  {events : List (Nat × HttpEvent)}

structure Inv (start : Nat) (c : HttpConnection) : Prop where
  started : c.start = start
  bytes : ∀ b ∈ c.bytes, start < b
  exchanges : c.bytes = [] → c.exchanges = []

lemma Inv.exchange {exchanges : List RequestProgress} (hc : c.Inv start)
    (h : c.exchange time exchanges = some d) : d.Inv start := by
  simp only [HttpConnection.exchange, ite_none_right_eq_some, some.injEq] at h
  obtain ⟨htime, rfl⟩ := h
  refine ⟨hc.started, fun b hb => ?_, fun hnil => by simp at hnil⟩
  rcases List.mem_append.mp hb with hb | hb
  · exact hc.bytes b hb
  · rw [List.mem_singleton.mp hb, ← hc.started]
    exact htime

lemma Inv.step (hc : c.Inv start) (h : c.step idleTimeout (time, event) = some d) :
    d.Inv start := by
  simp only [HttpConnection.step, ite_none_right_eq_some] at h
  obtain ⟨-, h⟩ := h
  cases event with
  | request => exact hc.exchange h
  | bytes i =>
    simp only [bind_eq_bind, bind_eq_some_iff, ite_none_right_eq_some] at h
    obtain ⟨x, -, -, h⟩ := h
    exact hc.exchange h
  | received i | sent i =>
    simp only [bind_eq_bind, bind_eq_some_iff, ite_none_left_eq_some] at h
    obtain ⟨x, -, -, h⟩ := h
    exact hc.exchange h
  | served =>
    cases h
    exact ⟨hc.started, hc.bytes, hc.exchanges⟩
  | elapsed =>
    simp only [ite_none_right_eq_some, some.injEq] at h
    obtain ⟨-, rfl⟩ := h
    exact ⟨hc.started, hc.bytes, hc.exchanges⟩

lemma sparesActive_of_unused (hc : c.Inv start) (h : c.unused (time, event) = true) :
    c.sparesActive idleTimeout (time, event) = true := by
  cases event with
  | elapsed =>
    have hbytes : c.bytes = [] := List.isEmpty_iff.mp h
    rw [sparesActive, hbytes, hc.exchanges hbytes]
    rfl
  | _ => rfl

lemma unused_of_sparesActive (hc : c.Inv start)
    (htime : event = .elapsed → time = start + idleTimeout)
    (h : c.sparesActive idleTimeout (time, event) = true) : c.unused (time, event) = true := by
  cases event with
  | elapsed =>
    simp only [sparesActive, Bool.and_eq_true, List.all_eq_true, decide_eq_true_eq] at h
    refine List.isEmpty_iff.mpr (List.eq_nil_iff_forall_not_mem.mpr fun b hb => ?_)
    have hafter := hc.bytes b hb
    have hbefore := h.2 b hb
    have htime := htime rfl
    omega
  | _ => rfl

/-- The timer spares the connections in use if it only ends those that were never used; if it is on
time, then only if it does. -/
theorem sparesActive_iff_unused (idleTimeout start : Nat)
    (hrun : run (step idleTimeout) (accepted start) events = some d) :
    (Meets (step idleTimeout) (fun c e => c.unused e = true) (accepted start) events →
      Meets (step idleTimeout) (fun c e => c.sparesActive idleTimeout e = true)
        (accepted start) events) ∧
    ((∀ time, (time, .elapsed) ∈ events → time = start + idleTimeout) →
      (Meets (step idleTimeout) (fun c e => c.sparesActive idleTimeout e = true)
          (accepted start) events ↔
        Meets (step idleTimeout) (fun c e => c.unused e = true)
          (accepted start) events)) := by
  have hstart : (accepted start).Inv start := ⟨rfl, nofun, fun _ => rfl⟩
  have hinv : ∀ c e d, c.Inv start → step idleTimeout c e = some d → d.Inv start :=
    fun c e d hc h => hc.step h
  refine ⟨fun hunused before e after c heq hc => ?_, fun hontime => ?_⟩
  · exact sparesActive_of_unused (invariant hinv hstart hc)
      (hunused before e after c heq hc)
  · refine meets_congr hinv ?_ hstart hrun
    rintro c ⟨time, event⟩ d hmem hc -
    refine ⟨unused_of_sparesActive hc ?_, sparesActive_of_unused hc⟩
    rintro rfl
    exact hontime time hmem

theorem sparesActive_iff_unused_closed :
    Meets (step 30) (fun c e => c.sparesActive 30 e = true) (accepted 5)
      [(35, .elapsed)] ∧
    Meets (step 30) (fun c e => c.sparesActive 30 e = true) (accepted 5)
      [(6, .request), (7, .received 0), (20, .bytes 0), (21, .sent 0), (22, .served)] := by
  have hidle : run (step 30) (accepted 5) [(35, .elapsed)] =
      some ⟨5, 35, [], [], some .idleTimeout⟩ := rfl
  have hclosed : run (step 30) (accepted 5)
      [(6, .request), (7, .received 0), (20, .bytes 0), (21, .sent 0), (22, .served)] =
      some ⟨5, 22, [⟨true, true⟩], [6, 7, 20, 21], some .served⟩ := rfl
  exact ⟨(sparesActive_iff_unused 30 5 hidle).1 (by decide),
    (sparesActive_iff_unused 30 5 hclosed).1 (by decide)⟩

/-- A response that is being sent, with a byte in each unit of time, is cut. -/
theorem idleTimeout_cuts_response :
    run (step 4) (accepted 0)
      [(1, .request), (1, .received 0), (2, .bytes 0), (3, .bytes 0), (4, .bytes 0),
        (4, .elapsed)] =
      some ⟨0, 4, [⟨true, false⟩], [1, 1, 2, 3, 4], some .idleTimeout⟩ ∧
    ¬ Meets (step 4) (fun c e => c.sparesActive 4 e = true) (accepted 0)
      [(1, .request), (1, .received 0), (2, .bytes 0), (3, .bytes 0), (4, .bytes 0),
        (4, .elapsed)] := by
  decide

end HttpConnection

end Conrogate
