import Conrogate.Server.ChainSafety
import Conrogate.Server.Integrity
import Conrogate.Storage.Rollback

/-!
# Rolling back to the version just published

With no edit in between, a rollback to the version that a publish has created should change
nothing.
-/

namespace Conrogate

open ControlService

variable {env : ControlEnv} {now : Time} {s s₁ : ControlState}

/-- The rollback succeeds, and changes nothing exactly when the tables are settled. -/
theorem rollback_published_iff {baseVersion : Nat} {operator remark : Option String}
    {row : ConfigVersionRow} (h : s.tables.WellFormed)
    (hpublish : publishConfig env now baseVersion operator remark s = .ok (row, s₁))
    (later : Time) (operator' : Option String) :
    ∃ row' s₂, rollbackConfig env later row.version operator' s₁ = .ok (row', s₂) ∧
      (s₂.tables.content = s.tables.content ↔ s.tables.Settled) := by
  obtain ⟨hrow, htables, -, hfind⟩ := of_publishConfig hpublish
  obtain ⟨row', s₂, hrollback⟩ := rollbackConfig_ok env later (htables ▸ h)
    (hrow ▸ h.collect_coherent) hfind operator'
  refine ⟨row', s₂, hrollback, ?_⟩
  obtain ⟨target, htarget, happly, -, -⟩ := of_rollbackConfig hrollback
  obtain rfl : row = target := Option.some.inj (hfind.symm.trans htarget)
  rw [hrow, htables] at happly
  exact applySnapshot_collect_iff later h happly

def betaRoute : CreateRouteDto :=
  { usersRoute with name := "beta", upstreamId := some 1, enabled := some false }

def settledTables : Tables :=
  { publishedTables with
    routes := publishedTables.routes ++ [betaRoute.toRow 0 2]
    bindings := [BindPluginDto.toRow ⟨"cors", .obj [], none, none, none⟩ 0 1 1,
      BindPluginDto.toRow ⟨"cors", .obj [], none, none, some false⟩ 0 2 2] }

theorem rollback_published_settled :
    settledTables.WellFormed ∧ ∃ row s₁ row' s₂,
      publishConfig plainEnv 1 0 none none ⟨settledTables, []⟩ = .ok (row, s₁) ∧
      rollbackConfig plainEnv 2 row.version none s₁ = .ok (row', s₂) ∧
      s₂.tables.content = settledTables.content := by
  have h : settledTables.WellFormed := by decide
  obtain ⟨row, s₁, hpublish⟩ : ∃ row s₁,
      publishConfig plainEnv 1 0 none none ⟨settledTables, []⟩ = .ok (row, s₁) := ⟨_, _, rfl⟩
  obtain ⟨row', s₂, hrollback, hiff⟩ := rollback_published_iff h hpublish 2 none
  exact ⟨h, row, s₁, row', s₂, hpublish, hrollback, hiff.mpr (by decide)⟩

/-- A disabled binding of an enabled route is lost. -/
theorem rollback_published_deletes_binding :
    ∃ s s₁ s₂,
      Transition.run (controlStep plainEnv) ControlState.init
        [(0, .createRoute usersRoute),
          (1, .bindPlugin 1 ⟨"cors", .obj [], none, none, some false⟩)] = some s ∧
      controlStep plainEnv s (2, .publishConfig 0 none none) = some s₁ ∧
      controlStep plainEnv s₁ (3, .rollbackConfig 1 none) = some s₂ ∧
      s₂.tables.content ≠ s.tables.content := by
  refine ⟨_, _, _, rfl, rfl, rfl, ?_⟩
  intro heq
  have hcounts : 0 = 1 := congrArg (fun c : Content => Multiset.card c.bindings) heq
  exact absurd hcounts (by decide)

end Conrogate
