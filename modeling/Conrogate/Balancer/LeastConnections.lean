import Conrogate.Core.Dto
import Conrogate.Core.Error

/-!
# Least connections

`LeastConnections`, which counts for each upstream and address the selects that have not been
released. A count that is missing in the table stands for zero, and the table holds no zeros.
-/

namespace Conrogate

open List

/-- The counts are `u64`; no overflow is modelled. -/
structure LeastConnections where
  connections : (upstream : Nat) → (address : String) → Nat

namespace LeastConnections

def new : LeastConnections := ⟨fun _ _ => 0⟩

def counts (lb : LeastConnections) (upstream : Nat) (enabled : List UpstreamNodeDto)
    (address : String) : Nat :=
  if address ∈ enabled.map (·.address) then lb.connections upstream address else 0

def leastBusy (counts : String → Nat) (first : UpstreamNodeDto) (rest : List UpstreamNodeDto) :
    UpstreamNodeDto :=
  rest.foldl (fun best n => if counts n.address < counts best.address then n else best) first

def select (lb : LeastConnections) (nodes : List UpstreamNodeDto) :
    LeastConnections × Result UpstreamNodeDto :=
  match nodes.filter (·.enabled) with
  | [] => (lb, .error (.upstreamNotFound "no enabled nodes"))
  | first :: rest =>
    let counts := lb.counts first.upstreamId (first :: rest)
    let selected := leastBusy counts first rest
    (⟨Function.update lb.connections first.upstreamId
      (Function.update counts selected.address (counts selected.address + 1))⟩, .ok selected)

def release (lb : LeastConnections) (node : UpstreamNodeDto) : LeastConnections :=
  ⟨Function.update lb.connections node.upstreamId
    (Function.update (lb.connections node.upstreamId) node.address
      (lb.connections node.upstreamId node.address - 1))⟩

variable {lb : LeastConnections} {counts : String → Nat} {first : UpstreamNodeDto}
  {rest nodes : List UpstreamNodeDto}

lemma leastBusy_mem : leastBusy counts first rest ∈ first :: rest := by
  induction rest generalizing first with
  | nil => exact mem_cons_self
  | cons n rest ih =>
    rw [leastBusy, foldl_cons, ← leastBusy]
    refine cons_subset.mpr ⟨?_, ?_⟩ ih
    · split <;> simp
    · intro m hm
      simp [hm]

lemma mem_of_select_eq_ok {n : UpstreamNodeDto} (h : (lb.select nodes).2 = .ok n) :
    n ∈ nodes ∧ n.enabled = true := by
  rw [← mem_filter, select] at *
  split at h
  · cases h
  · next first rest heq =>
    obtain rfl := Except.ok.inj h
    rw [heq]
    exact leastBusy_mem

end LeastConnections

end Conrogate
