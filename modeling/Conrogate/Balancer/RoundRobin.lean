import Conrogate.Core.Dto
import Conrogate.Core.Error
import Conrogate.Lib.Windows
import Mathlib.Data.List.Count

/-!
# Round robin

`RoundRobin`, whose one counter all upstreams with this algorithm share. A select that has a node
to choose takes the counter with one atomic step, so that concurrent selects are ordered by it.
-/

namespace Conrogate

open List

structure RoundRobin where
  counter : Nat

namespace RoundRobin

def new : RoundRobin := ⟨0⟩

def bound : Nat := 0x10000000000000000

def select (lb : RoundRobin) (nodes : List UpstreamNodeDto) :
    RoundRobin × Result UpstreamNodeDto :=
  if nodes = [] then (lb, .error (.upstreamNotFound "no nodes available"))
  else if h : nodes.filter (·.enabled) = [] then (lb, .error (.upstreamNotFound "no enabled nodes"))
  else
    have hidx := Nat.mod_lt lb.counter (List.length_pos_iff.mpr h)
    (⟨(lb.counter + 1) % bound⟩,
      .ok (nodes.filter (·.enabled))[lb.counter % (nodes.filter (·.enabled)).length])

end RoundRobin

structure RoundRobinCall where
  upstream : Nat
  nodes : List UpstreamNodeDto

namespace RoundRobin

def selects : RoundRobin → List RoundRobinCall →
    List (RoundRobinCall × Result UpstreamNodeDto)
  | _, [] => []
  | lb, c :: cs => (c, (lb.select c.nodes).2) :: selects (lb.select c.nodes).1 cs

def served (upstream : Nat)
    (results : List (RoundRobinCall × Result UpstreamNodeDto)) :
    List (Result UpstreamNodeDto) :=
  (results.filter (·.1.upstream = upstream)).map (·.2)

def turns (upstream : Nat) : Nat → List RoundRobinCall → List Nat
  | _, [] => []
  | n, c :: cs =>
    if c.nodes.filter (·.enabled) = [] then turns upstream n cs
    else if c.upstream = upstream then n :: turns upstream (n + 1) cs
    else turns upstream (n + 1) cs

variable {lb : RoundRobin} {nodes ns : List UpstreamNodeDto} {upstream : Nat}
  {cs : List RoundRobinCall}

lemma select_of_none (h : nodes.filter (·.enabled) = []) : (lb.select nodes).1 = lb := by
  rw [select]
  split
  · rfl
  · rfl

lemma select_of_some (h : nodes.filter (·.enabled) = ns) (hne : ns ≠ []) :
    lb.select nodes = (⟨(lb.counter + 1) % bound⟩,
      .ok (ns.get ⟨lb.counter % ns.length, Nat.mod_lt _ (length_pos_iff.mpr hne)⟩)) := by
  subst h
  have hnodes : nodes ≠ [] := by
    rintro rfl
    exact hne rfl
  rw [select, if_neg hnodes, dif_neg hne]
  rfl

lemma mem_of_select_eq_ok {n : UpstreamNodeDto} (h : (lb.select nodes).2 = .ok n) :
    n ∈ nodes ∧ n.enabled = true := by
  rw [select] at h
  split at h
  · cases h
  · split at h
    · cases h
    · obtain rfl := Except.ok.inj h
      exact mem_filter.mp (getElem_mem _)

def position (hne : ns ≠ []) (turn : Nat) : Fin ns.length :=
  ⟨turn % bound % ns.length, Nat.mod_lt _ (List.length_pos_iff.mpr hne)⟩

lemma served_selects (hne : ns ≠ [])
    (hcs : ∀ c ∈ cs, c.upstream = upstream → c.nodes.filter (·.enabled) = ns) (n : Nat) :
    served upstream (selects ⟨n % bound⟩ cs) =
      (turns upstream n cs).map fun turn => .ok (ns.get (position hne turn)) := by
  induction cs generalizing n with
  | nil => rfl
  | cons c cs ih =>
    have hrest := ih fun c hc => hcs c (mem_cons_of_mem _ hc)
    by_cases hnone : c.nodes.filter (·.enabled) = []
    · have hother : c.upstream ≠ upstream := by
        intro heq
        exact hne (hcs c mem_cons_self heq ▸ hnone)
      rw [turns, if_pos hnone, selects, select_of_none hnone, ← hrest n]
      simp [served, hother]
    · have hnext : (n % bound + 1) % bound = (n + 1) % bound := by simp [Nat.add_mod]
      rw [turns, if_neg hnone, selects, select_of_some rfl hnone, hnext]
      by_cases heq : c.upstream = upstream
      · have hns := hcs c mem_cons_self heq
        subst hns
        rw [if_pos heq, map_cons, ← hrest (n + 1)]
        simp [served, heq, position]
      · rw [if_neg heq, ← hrest (n + 1)]
        simp [served, heq]

end RoundRobin

open RoundRobin Windows

/-- An upstream gets each of its `n` nodes `k` times in any `n * k` consecutive selects, exactly if
no two of `n` consecutive turns of it fall on the same position of its node list. -/
theorem roundRobin_fair_iff (upstream : Nat) (ns : List UpstreamNodeDto) (hne : ns ≠ [])
    (hnodup : ns.Nodup) (cs : List RoundRobinCall)
    (hcs : ∀ c ∈ cs, c.upstream = upstream → c.nodes.filter (·.enabled) = ns) :
    (∀ i k, i + ns.length * k ≤ (served upstream (new.selects cs)).length →
      ∀ node ∈ ns, (window (served upstream (new.selects cs)) i
        (ns.length * k)).count (.ok node) = k) ↔
    ∀ i, i + ns.length ≤ (turns upstream 0 cs).length →
      ((window (turns upstream 0 cs) i ns.length).map
        fun turn => turn % bound % ns.length).Nodup := by
  have hserved : served upstream (new.selects cs) =
      ((turns upstream 0 cs).map (position hne)).map fun p => .ok (ns.get p) := by
    rw [map_map]
    exact served_selects hne hcs 0
  have hinj : Function.Injective fun p : Fin ns.length =>
      (.ok (ns.get p) : Result UpstreamNodeDto) := by
    intro p q hpq
    exact nodup_iff_injective_get.mp hnodup (Except.ok.inj hpq)
  have hcount : ∀ i m (p : Fin ns.length),
      (window (served upstream (new.selects cs)) i m).count (.ok (ns.get p)) =
        (window ((turns upstream 0 cs).map (position hne)) i m).count p := by
    intro i m p
    rw [hserved, map_window]
    exact count_map_of_injective _ _ hinj p
  have hpositions : ∀ i, ((window (turns upstream 0 cs) i ns.length).map
      fun turn => turn % bound % ns.length).Nodup ↔
        (window ((turns upstream 0 cs).map (position hne)) i ns.length).Nodup := by
    intro i
    rw [map_window, ← nodup_map_iff Fin.val_injective, map_map]
    rfl
  simp only [hpositions]
  have hfair := fair_iff (l := (turns upstream 0 cs).map (position hne))
  rw [length_map] at hfair
  rw [← hfair, hserved, length_map, length_map, ← hserved]
  constructor
  · intro h i k hk p
    rw [← hcount]
    exact h i k hk (ns.get p) (get_mem _ _)
  · intro h i k hk node hnode
    obtain ⟨p, rfl⟩ := mem_iff_get.mp hnode
    rw [hcount]
    exact h i k hk p

theorem roundRobin_fair_beside_pairs : ∃ (ns : List UpstreamNodeDto) (cs : List RoundRobinCall),
    ns.length = 2 ∧ (turns 1 0 cs).length = 2 ∧
    ∀ i k, i + ns.length * k ≤ (served 1 (new.selects cs)).length →
      ∀ node ∈ ns, (window (served 1 (new.selects cs)) i
        (ns.length * k)).count (.ok node) = k := by
  refine ⟨[⟨1, 1, "a", 1, true⟩, ⟨2, 1, "b", 1, true⟩],
    [⟨1, [⟨1, 1, "a", 1, true⟩, ⟨2, 1, "b", 1, true⟩]⟩, ⟨2, [⟨3, 2, "c", 1, true⟩]⟩,
      ⟨2, [⟨3, 2, "c", 1, true⟩]⟩, ⟨1, [⟨1, 1, "a", 1, true⟩, ⟨2, 1, "b", 1, true⟩]⟩], rfl, rfl,
    (roundRobin_fair_iff 1 _ (by simp) (by decide) _ (by decide)).mpr ?_⟩
  intro i hi
  obtain rfl : i = 0 := by
    have hlen : i + 2 ≤ 2 := hi
    omega
  decide

/-- An upstream whose selects alternate with those of another gets the same node again and
again. -/
theorem roundRobin_unfair :
    (window (served 1 (new.selects
      [⟨1, [⟨1, 1, "a", 1, true⟩, ⟨2, 1, "b", 1, true⟩]⟩, ⟨2, [⟨3, 2, "c", 1, true⟩]⟩,
        ⟨1, [⟨1, 1, "a", 1, true⟩, ⟨2, 1, "b", 1, true⟩]⟩])) 0 (2 * 1)) =
      [.ok ⟨1, 1, "a", 1, true⟩, .ok ⟨1, 1, "a", 1, true⟩] := by
  decide

end Conrogate
