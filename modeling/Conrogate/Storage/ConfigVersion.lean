import Conrogate.Core.Dto
import Conrogate.Core.Error
import Conrogate.Lib.Database
import Mathlib.Data.List.MinMax
import Mathlib.Order.Interval.Finset.Nat

/-!
# Configuration versions

`publish` and `rollback` read the latest version and insert a row. Only the unique index on
`version` stands between two callers that read the same one.
-/

namespace Conrogate

open List Function Transition

inductive PublishType where
  | publish
  | rollback
deriving DecidableEq, Repr

structure ConfigVersionRow where
  id : Nat
  version : Nat
  baseVersion : Nat
  publishType : PublishType
  contentHash : String
  snapshotContent : ConfigSnapshot
  createdBy : Option String
  remark : Option String
  createdAt : Time

structure NewConfigVersion where
  version : Nat
  baseVersion : Nat
  publishType : PublishType
  contentHash : String
  snapshotContent : ConfigSnapshot
  createdBy : Option String
  remark : Option String
  createdAt : Time

def NewConfigVersion.toRow (new : NewConfigVersion) (id : Nat) : ConfigVersionRow where
  id := id
  version := new.version
  baseVersion := new.baseVersion
  publishType := new.publishType
  contentHash := new.contentHash
  snapshotContent := new.snapshotContent
  createdBy := new.createdBy
  remark := new.remark
  createdAt := new.createdAt

def latestRow (rows : List ConfigVersionRow) : Option ConfigVersionRow :=
  rows.argmax (·.version)

def latestVersion (rows : List ConfigVersionRow) : Nat :=
  ((latestRow rows).map (·.version)).getD 0

def findVersion (rows : List ConfigVersionRow) (version : Nat) : Option ConfigVersionRow :=
  rows.find? fun r => r.version == version

/-! ### The two calls, statement by statement -/

structure PublishRequest where
  baseVersion : Nat
  snapshot : ConfigSnapshot
  createdBy : Option String
  remark : Option String

structure RollbackRequest where
  targetVersion : Nat
  createdBy : Option String

def publishRead (hash : ConfigSnapshot → String) (rows : List ConfigVersionRow)
    (req : PublishRequest) (now : Time) : Result NewConfigVersion :=
  let currentLatest := latestVersion rows
  if req.baseVersion ≠ currentLatest then
    .error .configConcurrencyConflict
  else
    .ok { version := currentLatest + 1
          baseVersion := req.baseVersion
          publishType := .publish
          contentHash := "sha256:" ++ hash req.snapshot
          snapshotContent := req.snapshot
          createdBy := req.createdBy
          remark := req.remark
          createdAt := now }

def rollbackTarget (rows : List ConfigVersionRow) (req : RollbackRequest) :
    Result ConfigVersionRow :=
  match findVersion rows req.targetVersion with
  | some target => .ok target
  | none => .error (.notFound s!"version {req.targetVersion}")

def rollbackRead (rows : List ConfigVersionRow) (req : RollbackRequest)
    (target : ConfigVersionRow) (now : Time) : NewConfigVersion :=
  let currentLatest := latestVersion rows
  { version := currentLatest + 1
    baseVersion := currentLatest
    publishType := .rollback
    contentHash := target.contentHash
    snapshotContent := target.snapshotContent
    createdBy := req.createdBy
    remark := some s!"rollback to v{req.targetVersion}"
    createdAt := now }

def insertVersion (rows : List ConfigVersionRow) (new : NewConfigVersion) (id : Nat) :
    Option (List ConfigVersionRow) :=
  if rows.any fun r => r.version == new.version then none
  else some (rows ++ [new.toRow id])

variable {new : NewConfigVersion} {rows : List ConfigVersionRow}

lemma insertVersion_latest (h : new.version = latestVersion rows + 1) (id : Nat) :
    insertVersion rows new id = some (rows ++ [new.toRow id]) := by
  rw [insertVersion, if_neg]
  rw [any_eq_true]
  rintro ⟨r, hr, heq⟩
  have hle : r.version ≤ latestVersion rows := by
    cases hlatest : latestRow rows with
    | none =>
      rw [argmax_eq_none.mp hlatest] at hr
      cases hr
    | some m =>
      rw [latestVersion, hlatest]
      exact le_of_mem_argmax hr hlatest
  rw [beq_iff_eq.mp heq, h] at hle
  exact Nat.not_succ_le_self _ hle

/-! ### Interleavings -/

/-- A call between its read of the latest version and its insert. -/
inductive VersionCall where
  | idle
  | publishing (base : Nat) (new : NewConfigVersion)
  | targeted (req : RollbackRequest) (target : ConfigVersionRow)
  | rollingBack (new : NewConfigVersion)
  | published (base : Nat) (result : Result ConfigVersionRow)
  | rolledBack (result : Result ConfigVersionRow)

def VersionCall.pending : VersionCall →
    Option (NewConfigVersion × (Result ConfigVersionRow → VersionCall))
  | .publishing base new => some (new, .published base)
  | .rollingBack new => some (new, .rolledBack)
  | _ => none

inductive VersionEvent where
  | publishRead (call : Nat) (req : PublishRequest) (now : Time) (dbFails : Bool)
  | rollbackTarget (call : Nat) (req : RollbackRequest) (dbFails : Bool)
  | rollbackRead (call : Nat) (now : Time) (dbFails : Bool)
  | insert (call : Nat) (outcome : Database.Outcome) (id : Nat) (dbError : String)

structure VersionState where
  rows : List ConfigVersionRow
  calls : Nat → VersionCall

open VersionState

def VersionState.init : VersionState := ⟨[], fun _ => .idle⟩

def VersionState.setCall (s : VersionState) (call : Nat) (c : VersionCall) : VersionState :=
  { s with calls := Function.update s.calls call c }

def insertStep (rows : List ConfigVersionRow) (new : NewConfigVersion) (outcome : Database.Outcome)
    (id : Nat) (dbError : String) :
    List ConfigVersionRow × Result ConfigVersionRow :=
  match outcome, insertVersion rows new id with
  | .notExecuted, _ => (rows, .error (.dataMapping dbError))
  | _, none => (rows, .error (.dataMapping dbError))
  | .answerLost, some rows' => (rows', .error (.dataMapping dbError))
  | .answered, some rows' => (rows', .ok (new.toRow id))

/-- One statement of one call; `none` if the call is not at that statement. -/
def versionStep (hash : ConfigSnapshot → String) (s : VersionState) :
    VersionEvent → Option VersionState
  | .publishRead call req now dbFails => match s.calls call with
    | .idle => some <| s.setCall call <|
      if dbFails then .published req.baseVersion (.error .databaseInternal)
      else match publishRead hash s.rows req now with
        | .ok new  => .publishing req.baseVersion new
        | .error e => .published req.baseVersion (.error e)
    | _ => none
  | .rollbackTarget call req dbFails => match s.calls call with
    | .idle => some <| s.setCall call <|
      if dbFails then .rolledBack (.error .databaseInternal)
      else match rollbackTarget s.rows req with
        | .ok target => .targeted req target
        | .error e   => .rolledBack (.error e)
    | _ => none
  | .rollbackRead call now dbFails => match s.calls call with
    | .targeted req target => some <| s.setCall call <|
      if dbFails then .rolledBack (.error .databaseInternal)
      else .rollingBack (rollbackRead s.rows req target now)
    | _ => none
  | .insert call outcome id dbError => match (s.calls call).pending with
    | some (new, finish) =>
      let (rows', result) := insertStep s.rows new outcome id dbError
      some ({ s with rows := rows' }.setCall call (finish result))
    | none => none

/-! ### What one statement can do -/

/-- What a call may assume in a table whose versions are 1 to `n`. -/
def VersionCall.Sound (n : Nat) : VersionCall → Prop
  | .publishing base new =>
    new.baseVersion = base ∧ new.version = new.baseVersion + 1 ∧ new.baseVersion ≤ n
  | .rollingBack new => new.version = new.baseVersion + 1 ∧ new.baseVersion ≤ n
  | .published base (.ok r) => r.version = base + 1 ∧ r.version ≤ n
  | _ => True

def VersionCall.Won (base : Nat) (c : VersionCall) : Prop := ∃ r, c = .published base (.ok r)

variable {c : VersionCall}

lemma VersionCall.Sound.mono {n m : Nat} (h : n ≤ m) (hc : c.Sound n) :
    c.Sound m := by
  cases c with
  | publishing base new =>
    obtain ⟨h₁, h₂, h₃⟩ := hc
    exact ⟨h₁, h₂, h₃.trans h⟩
  | rollingBack new => exact ⟨hc.1, hc.2.trans h⟩
  | published base result =>
    cases result with
    | ok r => exact ⟨hc.1, hc.2.trans h⟩
    | error e => trivial
  | idle => trivial
  | targeted req target => trivial
  | rolledBack result => trivial

variable {hash : ConfigSnapshot → String} {s t : VersionState} {e : VersionEvent}

lemma versionStep_cases (h : versionStep hash s e = some t) :
    (∃ call c, t = s.setCall call c ∧ c.Sound (latestVersion s.rows) ∧ ∀ base, ¬ c.Won base) ∨
    (∃ call new finish outcome id dbError, (s.calls call).pending = some (new, finish) ∧
      t = { s with rows := (insertStep s.rows new outcome id dbError).1 }.setCall call
        (finish (insertStep s.rows new outcome id dbError).2)) := by
  cases e with
  | publishRead call req now dbFails =>
    left
    simp only [versionStep] at h
    split at h
    · refine ⟨call, _, (Option.some.inj h).symm, ?_⟩
      cases dbFails with
      | true => simp [VersionCall.Sound, VersionCall.Won]
      | false =>
        by_cases hb : req.baseVersion = latestVersion s.rows
        · simp [publishRead, hb, VersionCall.Sound, VersionCall.Won]
        · simp [publishRead, hb, VersionCall.Sound, VersionCall.Won]
    · cases h
  | rollbackTarget call req dbFails =>
    left
    simp only [versionStep] at h
    split at h
    · refine ⟨call, _, (Option.some.inj h).symm, ?_⟩
      cases dbFails with
      | true => simp [VersionCall.Sound, VersionCall.Won]
      | false =>
        cases rollbackTarget s.rows req <;> simp [VersionCall.Sound, VersionCall.Won]
    · cases h
  | rollbackRead call now dbFails =>
    left
    simp only [versionStep] at h
    split at h
    · refine ⟨call, _, (Option.some.inj h).symm, ?_⟩
      cases dbFails <;> simp [VersionCall.Sound, VersionCall.Won, rollbackRead]
    · cases h
  | insert call outcome id dbError =>
    right
    simp only [versionStep] at h
    split at h
    · rename_i new finish hpending
      exact ⟨call, new, finish, outcome, id, dbError, hpending, (Option.some.inj h).symm⟩
    · cases h

section

variable (rows : List ConfigVersionRow) (new : NewConfigVersion)

lemma insertStep_cases (outcome : Database.Outcome) (id : Nat) (dbError : String) :
    insertStep rows new outcome id dbError = (rows, .error (.dataMapping dbError)) ∨
    ((∀ r ∈ rows, r.version ≠ new.version) ∧
      (insertStep rows new outcome id dbError).1 = rows ++ [new.toRow id] ∧
      ((insertStep rows new outcome id dbError).2 = .ok (new.toRow id) ∨
        (insertStep rows new outcome id dbError).2 = .error (.dataMapping dbError))) := by
  by_cases hdup : (rows.any fun r => r.version == new.version) = true
  · left
    cases outcome <;> simp [insertStep, insertVersion, hdup]
  · have hfresh : ∀ r ∈ rows, r.version ≠ new.version := by simpa using hdup
    cases outcome with
    | notExecuted => exact .inl rfl
    | answered => exact .inr ⟨hfresh, by simp [insertStep, insertVersion, hdup]⟩
    | answerLost => exact .inr ⟨hfresh, by simp [insertStep, insertVersion, hdup]⟩

lemma insertStep_answered (id : Nat) (dbError : String) {outcome : Database.Outcome}
    (h : outcome ≠ .answerLost) :
    insertStep rows new outcome id dbError = (rows, .error (.dataMapping dbError)) ∨
    ((∀ r ∈ rows, r.version ≠ new.version) ∧
      insertStep rows new outcome id dbError = (rows ++ [new.toRow id], .ok (new.toRow id))) := by
  rcases insertStep_cases rows new outcome id dbError with heq | ⟨hfresh, -, -⟩
  · exact .inl heq
  · have hnone : ¬ (rows.any fun r => r.version == new.version) = true := by simpa using hfresh
    cases outcome with
    | notExecuted => exact .inl rfl
    | answerLost => exact absurd rfl h
    | answered => exact .inr ⟨hfresh, by simp [insertStep, insertVersion, hnone]⟩

end

lemma versionStep_rows (h : versionStep hash s e = some t) : s.rows <+: t.rows := by
  rcases versionStep_cases h with ⟨call, c, rfl, -⟩ | ⟨call, new, finish, o, id, err, -, rfl⟩
  · exact prefix_refl s.rows
  · rcases insertStep_cases s.rows new o id err with heq | ⟨-, heq, -⟩
    · simp [setCall, heq]
    · simp [setCall, heq]

/-! ### The invariant -/

/-- Versions are consecutive and each base has one winner. -/
structure VersionInv (s : VersionState) : Prop where
  versions : s.rows.map (·.version) = List.range' 1 s.rows.length
  bases : ∀ r ∈ s.rows, r.version = r.baseVersion + 1
  calls : ∀ call, (s.calls call).Sound s.rows.length
  winner : ∀ call call' base, (s.calls call).Won base → (s.calls call').Won base → call = call'

lemma VersionInv.init : VersionInv init := by
  refine ⟨rfl, ?_, ?_, ?_⟩
  · intro r hr
    cases hr
  · intro call
    trivial
  · rintro call call' base ⟨r, hr⟩
    cases hr

lemma latestVersion_eq (h : rows.map (·.version) = List.range' 1 rows.length) :
    latestVersion rows = rows.length := by
  have hmem : ∀ v, (∃ r ∈ rows, r.version = v) ↔ 1 ≤ v ∧ v < 1 + rows.length := by
    intro v
    rw [← mem_map (f := fun r : ConfigVersionRow => r.version), h, mem_range'_1]
  rw [latestVersion, latestRow]
  cases hmax : rows.argmax (·.version) with
  | none =>
    obtain rfl : rows = [] := argmax_eq_none.mp hmax
    rfl
  | some m =>
    have hm : m ∈ rows := argmax_mem hmax
    have hub := (hmem m.version).mp ⟨m, hm, rfl⟩
    obtain ⟨r, hr, hlast⟩ := (hmem rows.length).mpr ⟨by omega, by omega⟩
    have hle : r.version ≤ m.version := le_of_mem_argmax hr hmax
    simp only [Option.map_some, Option.getD_some]
    omega

variable {call : Nat}

lemma VersionInv.setCall (hs : VersionInv s) (hc : c.Sound s.rows.length)
    (hno : ∀ base, ¬ c.Won base) : VersionInv (s.setCall call c) := by
  have hwon : ∀ other base, ((s.setCall call c).calls other).Won base →
      other ≠ call ∧ (s.calls other).Won base := by
    intro other base h
    by_cases heq : other = call
    · subst heq
      simp only [VersionState.setCall, update_self] at h
      exact absurd h (hno base)
    · simp only [VersionState.setCall, update_of_ne heq] at h
      exact ⟨heq, h⟩
  refine ⟨hs.versions, hs.bases, ?_, ?_⟩
  · intro other
    by_cases heq : other = call
    · subst heq
      simpa [VersionState.setCall] using hc
    · simpa [VersionState.setCall, update_of_ne heq] using hs.calls other
  · intro call₁ call₂ base h₁ h₂
    exact hs.winner call₁ call₂ base (hwon _ _ h₁).2 (hwon _ _ h₂).2

lemma VersionCall.Sound.pending {n : Nat} (hc : c.Sound n)
    {finish : Result ConfigVersionRow → VersionCall} (hp : c.pending = some (new, finish)) :
    new.version = new.baseVersion + 1 ∧ new.baseVersion ≤ n ∧
      (∀ err base, ¬ (finish (.error err)).Won base) ∧
      (∀ err m, (finish (.error err)).Sound m) ∧
      ∀ id, (finish (.ok (new.toRow id))).Sound new.version ∧
        ∀ base, (finish (.ok (new.toRow id))).Won base → new.version = base + 1 := by
  cases c with
  | publishing base new' =>
    obtain ⟨rfl, h₂, h₃⟩ := hc
    simp only [VersionCall.pending, Option.some.injEq, Prod.mk.injEq] at hp
    obtain ⟨rfl, rfl⟩ := hp
    refine ⟨h₂, h₃, by simp [VersionCall.Won], by simp [VersionCall.Sound], ?_⟩
    intro id
    refine ⟨⟨h₂, le_rfl⟩, ?_⟩
    rintro b ⟨r, hr⟩
    cases hr
    exact h₂
  | rollingBack new' =>
    obtain ⟨h₂, h₃⟩ := hc
    simp only [VersionCall.pending, Option.some.injEq, Prod.mk.injEq] at hp
    obtain ⟨rfl, rfl⟩ := hp
    exact ⟨h₂, h₃, by simp [VersionCall.Won], by simp [VersionCall.Sound], by
      simp [VersionCall.Won, VersionCall.Sound]⟩
  | idle => cases hp
  | targeted req target => cases hp
  | published base result => cases hp
  | rolledBack result => cases hp

lemma VersionInv.grow (hs : VersionInv s) (hversion : new.version = s.rows.length + 1)
    (hbase : new.version = new.baseVersion + 1) (id : Nat) :
    VersionInv { s with rows := s.rows ++ [new.toRow id] } := by
  refine ⟨?_, ?_, ?_, hs.winner⟩
  · rw [map_append, hs.versions, length_append, length_singleton, List.range'_concat]
    simp [NewConfigVersion.toRow, hversion, Nat.add_comm]
  · intro r hr
    rcases mem_append.mp hr with hr | hr
    · exact hs.bases r hr
    · obtain rfl := mem_singleton.mp hr
      exact hbase
  · intro other
    exact (hs.calls other).mono (by simp)

lemma VersionInv.won_le (hs : VersionInv s) {base : Nat} (h : (s.calls call).Won base) :
    base + 1 ≤ s.rows.length := by
  obtain ⟨r, hr⟩ := h
  have hcall := hs.calls call
  rw [hr] at hcall
  obtain ⟨h₁, h₂⟩ := hcall
  omega

lemma VersionInv.insert (hs : VersionInv s) {finish : Result ConfigVersionRow → VersionCall}
    (hp : (s.calls call).pending = some (new, finish)) (outcome : Database.Outcome) (id : Nat)
    (dbError : String) :
    VersionInv ({ s with rows := (insertStep s.rows new outcome id dbError).1 }.setCall call
      (finish (insertStep s.rows new outcome id dbError).2)) := by
  obtain ⟨hbase, hle, hnowin, hsound, hwin⟩ := (hs.calls call).pending hp
  rcases insertStep_cases s.rows new outcome id dbError with heq | ⟨hfresh, hrows, hresult⟩
  · rw [heq]
    exact hs.setCall (hsound _ _) (hnowin _)
  · -- a version that is not in the table and at most `n + 1` is `n + 1`
    have hversion : new.version = s.rows.length + 1 := by
      by_contra hne
      have hin : new.version ∈ s.rows.map (·.version) := by
        rw [hs.versions, mem_range'_1]
        omega
      obtain ⟨r, hr, hrv⟩ := mem_map.mp hin
      exact hfresh r hr hrv
    have hgrown := hs.grow hversion hbase id
    rw [hrows]
    rcases hresult with hok | herr
    · rw [hok]
      obtain ⟨hok_sound, hok_won⟩ := hwin id
      refine ⟨hgrown.versions, hgrown.bases, ?_, ?_⟩
      · intro other
        by_cases heq : other = call
        · subst heq
          simp only [VersionState.setCall, update_self]
          exact hok_sound.mono (by simp [hversion])
        · simp only [VersionState.setCall, update_of_ne heq]
          exact hgrown.calls other
      · -- earlier winners have a version in the old table, so the new one has no rival
        intro call₁ call₂ base h₁ h₂
        by_cases e₁ : call₁ = call <;> by_cases e₂ : call₂ = call
        · rw [e₁, e₂]
        · subst e₁
          simp only [VersionState.setCall, update_self, update_of_ne e₂] at h₁ h₂
          have := hok_won base h₁
          have := hs.won_le h₂
          omega
        · subst e₂
          simp only [VersionState.setCall, update_self, update_of_ne e₁] at h₁ h₂
          have := hok_won base h₂
          have := hs.won_le h₁
          omega
        · simp only [VersionState.setCall, update_of_ne e₁, update_of_ne e₂]
            at h₁ h₂
          exact hs.winner call₁ call₂ base h₁ h₂
    · rw [herr]
      exact hgrown.setCall (hsound _ _) (hnowin _)

lemma VersionInv.step (hs : VersionInv s) (h : versionStep hash s e = some t) :
    VersionInv t := by
  rcases versionStep_cases h with ⟨call, c, rfl, hc, hno⟩ | ⟨call, new, finish, o, id, err, hp, rfl⟩
  · rw [latestVersion_eq hs.versions] at hc
    exact hs.setCall hc hno
  · exact hs.insert hp o id err

/-- The versions are exactly 1 to `n`, each row is based on the version before it, rows are only
ever added, and of the publishes on one base version at most one succeeds. -/
theorem config_versions_consistent (hash : ConfigSnapshot → String) (events : List VersionEvent)
    (s : VersionState)
    (h : run (versionStep hash) init events = some s) :
    (s.rows.map (·.version)).toFinset = Finset.Icc 1 s.rows.length ∧
    (∀ r ∈ s.rows, r.version = r.baseVersion + 1) ∧
    (∀ later t, run (versionStep hash) s later = some t → s.rows <+: t.rows) ∧
    (∀ call call' base r r', s.calls call = .published base (.ok r) →
      s.calls call' = .published base (.ok r') → call = call') := by
  have hinv : VersionInv s := invariant (fun _ _ _ => VersionInv.step) .init h
  refine ⟨?_, hinv.bases, ?_, ?_⟩
  · ext v
    rw [mem_toFinset, hinv.versions, mem_range'_1, Finset.mem_Icc]
    omega
  · intro later t hrun
    exact related (R := fun s t => s.rows <+: t.rows)
      (fun s => prefix_refl s.rows) (fun _ _ _ => List.IsPrefix.trans)
      (fun _ _ _ => versionStep_rows) hrun
  · intro call call' base r r' hcall hcall'
    exact hinv.winner call call' base ⟨r, hcall⟩ ⟨r', hcall'⟩

theorem config_versions_consistent_race :
    let snapshot : ConfigSnapshot := ⟨[], [], []⟩
    let publish : VersionEvent := .publishRead 1 ⟨0, snapshot, none, none⟩ 0 false
    let rival : VersionEvent := .publishRead 2 ⟨0, snapshot, none, none⟩ 0 false
    ∃ s, run (versionStep fun _ => "") .init
        [publish, rival, .insert 2 .answered 7 "", .insert 1 .answered 8 "duplicate key",
          .rollbackTarget 3 ⟨1, none⟩ false, .rollbackRead 3 5 false,
          .insert 3 .answered 9 ""] = some s ∧
      s.rows.length = 2 ∧ (s.rows.map (·.version)).toFinset = Finset.Icc 1 2 := by
  intro snapshot publish rival
  refine ⟨_, rfl, rfl, ?_⟩
  exact (config_versions_consistent (fun _ => "")
    [publish, rival, .insert 2 .answered 7 "", .insert 1 .answered 8 "duplicate key",
      .rollbackTarget 3 ⟨1, none⟩ false, .rollbackRead 3 5 false, .insert 3 .answered 9 ""]
    _ rfl).1

end Conrogate
