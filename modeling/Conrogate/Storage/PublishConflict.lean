import Conrogate.Storage.ConfigVersion

/-!
# Publishes that lose

A late publish fails at the check of `base_version`, which reports a conflict, or at the unique
index, whose error is passed on as `DataMapping`.
-/

namespace Conrogate

open VersionEvent Transition

def VersionEvent.undisturbed : VersionEvent → Bool
  | .publishRead _ _ _ dbFails => !dbFails
  | .rollbackTarget _ _ dbFails => !dbFails
  | .rollbackRead _ _ dbFails => !dbFails
  | .insert _ outcome _ _ => outcome = .answered

def VersionCall.ReportsConflict (c : VersionCall) : Prop :=
  ∀ base err, c = .published base (.error err) → err = .configConcurrencyConflict

namespace VersionState

def ConflictsReported (s : VersionState) : Prop := ∀ call, (s.calls call).ReportsConflict

def unraced (s : VersionState) : VersionEvent → Bool
  | .insert call _ _ _ => match s.calls call with
    | .publishing base _ => latestVersion s.rows = base
    | _ => true
  | _ => true

variable {hash : ConfigSnapshot → String} {s t : VersionState} {e : VersionEvent}
  {events : List VersionEvent} {new : NewConfigVersion}

section

variable {rows : List ConfigVersionRow}

lemma ConflictsReported.setCall_iff (hs : s.ConflictsReported) {call : Nat} {c : VersionCall} :
    ({ s with rows := rows }.setCall call c).ConflictsReported ↔ c.ReportsConflict := by
  rw [ConflictsReported, setCall, Function.forall_update_iff s.calls fun _ c => c.ReportsConflict]
  exact and_iff_left fun other _ => hs other

lemma insertStep_of_latest (h : new.version = latestVersion rows + 1) (id : Nat) (dbError : String)
    :
    insertStep rows new .answered id dbError = (rows ++ [new.toRow id], .ok (new.toRow id)) := by
  simp only [insertStep, insertVersion_latest h]

lemma insertStep_of_taken (h : new.version ∈ rows.map (·.version)) (outcome : Database.Outcome)
    (id : Nat) (dbError : String) :
    insertStep rows new outcome id dbError = (rows, .error (.dataMapping dbError)) := by
  rcases insertStep_cases rows new outcome id dbError with heq | ⟨hfresh, -, -⟩
  · exact heq
  · obtain ⟨r, hr, hversion⟩ := List.mem_map.mp h
    exact absurd hversion (hfresh r hr)

end

lemma publishing_reports_iff (hs : VersionInv s) {call base : Nat}
    (hcall : s.calls call = .publishing base new) (id : Nat) (dbError : String) :
    (VersionCall.published base (insertStep s.rows new .answered id dbError).2).ReportsConflict ↔
      latestVersion s.rows = base := by
  have hsound := hs.calls call
  rw [hcall] at hsound
  obtain ⟨rfl, hversion, hle⟩ := hsound
  have hlatest := latestVersion_eq hs.versions
  by_cases heq : latestVersion s.rows = new.baseVersion
  · refine iff_of_true ?_ heq
    rw [insertStep_of_latest (by rw [heq, hversion])]
    rintro base err ⟨⟩
  · refine iff_of_false (fun hreports => ?_) heq
    have htaken : new.version ∈ s.rows.map (·.version) := by
      rw [hs.versions, List.mem_range'_1]
      omega
    rw [insertStep_of_taken htaken] at hreports
    cases hreports _ _ rfl

lemma conflictsReported_step (hinv : VersionInv s) (hs : s.ConflictsReported)
    (he : e.undisturbed = true) (h : versionStep hash s e = some t) :
    t.ConflictsReported ↔ s.unraced e = true := by
  cases e with
  | publishRead call req now dbFails =>
    obtain rfl : dbFails = false := by simpa [undisturbed] using he
    simp only [versionStep] at h
    split at h
    · cases h
      refine iff_of_true (hs.setCall_iff.mpr ?_) rfl
      by_cases hbase : req.baseVersion = latestVersion s.rows
      · simp [publishRead, hbase, VersionCall.ReportsConflict]
      · -- the check finds the conflict
        rintro base err heq
        simp only [publishRead, hbase, ne_eq, not_false_eq_true, if_true, Bool.false_eq_true,
          if_false] at heq
        cases heq
        rfl
    · cases h
  | rollbackTarget call req dbFails =>
    obtain rfl : dbFails = false := by simpa [undisturbed] using he
    simp only [versionStep] at h
    split at h
    · cases h
      refine iff_of_true (hs.setCall_iff.mpr ?_) rfl
      cases rollbackTarget s.rows req <;> simp [VersionCall.ReportsConflict]
    · cases h
  | rollbackRead call now dbFails =>
    obtain rfl : dbFails = false := by simpa [undisturbed] using he
    simp only [versionStep] at h
    split at h
    · cases h
      exact iff_of_true (hs.setCall_iff.mpr (by simp [VersionCall.ReportsConflict])) rfl
    · cases h
  | insert call outcome id dbError =>
    obtain rfl : outcome = .answered := by simpa [undisturbed] using he
    simp only [versionStep] at h
    split at h
    · rename_i new finish hpending
      cases h
      rw [hs.setCall_iff, unraced]
      cases hcall : s.calls call with
      | publishing base new' =>
        rw [hcall] at hpending
        cases hpending
        rw [publishing_reports_iff hinv hcall, decide_eq_true_eq]
      | rollingBack new' =>
        rw [hcall] at hpending
        cases hpending
        exact iff_of_true (by simp [VersionCall.ReportsConflict]) rfl
      | idle | targeted | published | rolledBack =>
        rw [hcall] at hpending
        cases hpending
    · cases h

/-- If the database only fails by the unique index, all publishes that fail report the conflict
exactly if none inserts after another call has inserted since its read. -/
theorem conflictsReported_iff (hash : ConfigSnapshot → String) (hs : VersionInv s)
    (hidle : ∀ call, s.calls call = .idle) (hdb : ∀ e ∈ events, e.undisturbed = true)
    (hrun : run (versionStep hash) s events = some t) :
    Always (versionStep hash) (fun u => ∀ call base err,
        u.calls call = .published base (.error err) →
          err = .configConcurrencyConflict ∧ err.code = 20007 ∧ err.isInternal = false) s events ↔
      Meets (versionStep hash) (fun u e => u.unraced e = true) s events := by
  have hreports : ∀ u : VersionState, u.ConflictsReported ↔ ∀ call base err,
      u.calls call = .published base (.error err) →
        err = .configConcurrencyConflict ∧ err.code = 20007 ∧ err.isInternal = false := by
    refine fun u => ⟨fun hu call base err hcall => ?_, fun hu call base err hcall => ?_⟩
    · obtain rfl := hu call base err hcall
      exact ⟨rfl, rfl, rfl⟩
    · exact (hu call base err hcall).1
  have hstart : s.ConflictsReported := by
    intro call base err hcall
    rw [hidle call] at hcall
    cases hcall
  simp only [← hreports]
  refine always_iff_meets (fun u e v hu hstep => hu.step hstep) ?_ hs hstart hrun
  exact fun u e v hmem hinv hu hstep => conflictsReported_step hinv hu (hdb e hmem) hstep

theorem conflictsReported_late_read :
    let snapshot : ConfigSnapshot := ⟨[], [], []⟩
    let events : List VersionEvent := [.publishRead 1 ⟨0, snapshot, none, none⟩ 0 false,
      .insert 1 .answered 7 "", .publishRead 2 ⟨0, snapshot, none, none⟩ 0 false]
    ∃ t, run (versionStep fun _ => "") .init events = some t ∧
      t.calls 2 = .published 0 (.error .configConcurrencyConflict) ∧
      Always (versionStep fun _ => "") (fun u => ∀ call base err,
        u.calls call = .published base (.error err) →
          err = .configConcurrencyConflict ∧ err.code = 20007 ∧ err.isInternal = false)
        .init events := by
  intro snapshot events
  refine ⟨_, rfl, rfl, ?_⟩
  exact (conflictsReported_iff (fun _ => "") .init (fun _ => rfl) (by decide) rfl).mpr (by decide)

/-- Both read version 0; the second insert is refused, and its caller gets an internal error. -/
theorem publish_race_internal_error :
    let snapshot : ConfigSnapshot := ⟨[], [], []⟩
    let violation := "UNIQUE constraint failed: config_versions.version"
    ∃ t, run (versionStep fun _ => "") .init
        [.publishRead 1 ⟨0, snapshot, none, none⟩ 0 false,
          .publishRead 2 ⟨0, snapshot, none, none⟩ 0 false, .insert 1 .answered 7 "",
          .insert 2 .answered 8 violation] = some t ∧
      t.rows.map (·.version) = [1] ∧
      t.calls 2 = .published 0 (.error (.dataMapping violation)) ∧
      (ConrogateError.dataMapping violation).code = 30002 ∧
      (ConrogateError.dataMapping violation).isInternal = true :=
  ⟨_, rfl, rfl, rfl, rfl, rfl⟩

end VersionState

end Conrogate
