import Conrogate.Cli.HttpConfigLoader
import Mathlib.Data.List.ReduceOption

/-!
# What the loader gets of a table

The pages, while rows are deleted between the statements of the requests. A row that cannot be
turned into an entry is counted and missing from its page. Then the loop does not find its end, or
ends too early.
-/

namespace Conrogate

open Paging HttpConfigLoader List Option IpBlacklistRow RouteRow

/-! ### The tables -/

/-- The rows of a list at the two statements of each request, while their number does not grow.
Rows can be deleted and changed. Each statement can fail. -/
structure TableCourse (ρ : Type) (key : ρ → Nat) where
  counted : Nat → List ρ
  selected : Nat → List ρ
  answers : Nat → List ρ
  answers_spec : ∀ i, Answers key (selected i) (answers i)
  nodup : ∀ i, ((selected i).map key).Nodup
  shrinking : Shrinking (fun i => (counted i).length) (fun i => (selected i).length)
  countOk : Nat → Bool
  selectOk : Nat → Bool

open TableCourse

namespace TableCourse

variable {ρ : Type} {key : ρ → Nat} (c : TableCourse ρ key)

def count (i : Nat) : Option (List ρ) := if c.countOk i then some (c.counted i) else none

def select (i : Nat) : Option (List ρ) := if c.selectOk i then some (c.answers i) else none

def size : Nat := (c.counted 0).length

/-- Nobody writes during the load and every query is answered. -/
structure Unchanged (rows : List ρ) : Prop where
  counted : ∀ i, c.counted i = rows
  selected : ∀ i, c.selected i = rows
  countOk : ∀ i, c.countOk i = true
  selectOk : ∀ i, c.selectOk i = true

def ofRows (rows : Nat → List ρ) (hsorted : ∀ i, (rows i).Pairwise fun a b => key b ≤ key a)
    (hnodup : ∀ i, ((rows i).map key).Nodup)
    (hle : ∀ i, (rows (i + 1)).length ≤ (rows i).length) : TableCourse ρ key where
  counted := rows
  selected := rows
  answers := rows
  answers_spec i := ⟨.refl _, hsorted i⟩
  nodup := hnodup
  shrinking := ⟨fun _ => le_rfl, hle⟩
  countOk _ := true
  selectOk _ := true

def still (rows : List ρ) (hsorted : rows.Pairwise fun a b => key b ≤ key a)
    (hnodup : (rows.map key).Nodup) : TableCourse ρ key :=
  ofRows (fun _ => rows) (fun _ => hsorted) (fun _ => hnodup) fun _ => le_rfl

variable {c} {rows : List ρ}

lemma unchanged_still (hsorted : rows.Pairwise fun a b => key b ≤ key a)
    (hnodup : (rows.map key).Nodup) : (still rows hsorted hnodup).Unchanged rows :=
  ⟨fun _ => rfl, fun _ => rfl, fun _ => rfl, fun _ => rfl⟩

section

variable (h : c.Unchanged rows)
include h

lemma Unchanged.answers_eq (i : Nat) : c.answers i = c.answers 0 := by
  have hi := c.answers_spec i
  have hzero := c.answers_spec 0
  have hkeys := c.nodup 0
  rw [h.selected] at hi hzero hkeys
  exact hi.eq_of_nodup hzero hkeys

lemma Unchanged.perm : (c.answers 0).Perm rows := by
  have hperm := (c.answers_spec 0).perm
  rwa [h.selected] at hperm

lemma Unchanged.count_eq (i : Nat) : c.count i = some rows := by
  rw [count, if_pos (h.countOk i), h.counted]

lemma Unchanged.select_eq (i : Nat) :
    c.select i = some (c.answers 0) := by
  rw [select, if_pos (h.selectOk i), h.answers_eq]

end

end TableCourse

section Served

variable (server : BuildProfile)

def ServesRoutes (c : TableCourse RouteRow (·.id)) (control : Nat → UInt32 → PageReply RouteDto) :
    Prop :=
  ∀ i page, Answered (RouteRepoImpl.listPaginated server (c.count i) (c.select i) page 200)
    (control i page)

def ServesUpstreams (c : TableCourse UpstreamRow (·.id))
    (loadNodes : Nat → Nat → Option (List NodeRow))
    (control : Nat → UInt32 → PageReply UpstreamDto) : Prop :=
  ∀ i page, Answered
    (UpstreamRepoImpl.listPaginated server (loadNodes i) (c.count i) (c.select i) page 200)
    (control i page)

def ServesBlacklist (c : TableCourse IpBlacklistRow (·.id))
    (control : Nat → UInt32 → PageReply IpBlacklistDto) : Prop :=
  ∀ i page, Answered (some (IpBlacklistRepoImpl.listPaginated (c.count i) (c.select i) page 200))
    (control i page)

end Served

/-! ### Pages of the control plane -/

namespace TableCourse

variable {ρ : Type} {key : ρ → Nat} {c : TableCourse ρ key} {i : Nat} {all answer : List ρ}

lemma eq_of_count (h : c.count i = some all) : all = c.counted i :=
  (some.inj (ite_none_right_eq_some.mp h).2).symm

lemma eq_of_select (h : c.select i = some answer) : answer = c.answers i :=
  (some.inj (ite_none_right_eq_some.mp h).2).symm

variable (c i) in
lemma length_window_answers :
    (window 200 i (c.answers i)).length = min 200 ((c.selected i).length - i * 200) := by
  rw [length_window, (c.answers_spec i).length_eq]

lemma length_filterMap_window {δ : Type} {f : ρ → Option δ}
    (hconv : ∀ m ∈ c.selected i, (f m).isSome) :
    ((window 200 i (c.answers i)).filterMap f).length =
      min 200 ((c.selected i).length - i * 200) := by
  rw [← c.length_window_answers i]
  refine filterMap_length_eq_length.mpr fun m hm => hconv m ?_
  exact (c.answers_spec i).perm.mem_iff.mp (window_subset 200 i _ hm)

end TableCourse

section Pages

variable {server : BuildProfile} {i : Nat}

lemma listPaginated_window {ρ δ : Type} (f : ρ → Option δ) (all answer : List ρ)
    (hi : i * 200 < 2 ^ 32) :
    listPaginated server (fun m => .ok (f m)) (some all) (some answer) (.ofNat (i + 1)) 200 =
      some (.ok ⟨(window 200 i answer).filterMap f, all.length, .ofNat (i + 1), 200⟩) := by
  have hpage : selectPage server answer (.ofNat (i + 1)) (clampPageSize 200) =
      some (window 200 i answer) :=
    selectPage_eq (by omega) hi answer
  rw [listPaginated_eq, hpage]
  rfl

section Routes

variable {c : TableCourse RouteRow (·.id)} {control : Nat → UInt32 → PageReply RouteDto}

section

variable (h : ServesRoutes server c control)
include h

lemma ServesRoutes.refused_or (hi : i * 200 < 2 ^ 32) :
    (control i (.ofNat (i + 1))).Refused ∨ (control i (.ofNat (i + 1))).Shows
      ((window 200 i (c.answers i)).filterMap toDto) (c.counted i).length := by
  obtain hrefused | ⟨r, hr, hshows⟩ := (h i (.ofNat (i + 1))).refused_or
  · exact .inl hrefused
  · obtain ⟨all, answer, models, list, hcount, hselect, -⟩ := listPaginated_eq_ok hr
    rw [hcount, hselect, RouteRepoImpl.listPaginated, listPaginated_window _ _ _ hi] at hr
    cases hr
    rw [eq_of_count hcount, eq_of_select hselect] at hshows
    exact .inr hshows

lemma ServesRoutes.shows {rows : List RouteRow} (hc : c.Unchanged rows) (hi : i * 200 < 2 ^ 32) :
    (control i (.ofNat (i + 1))).Shows
      ((window 200 i (c.answers 0)).filterMap toDto) rows.length := by
  have hanswered := h i (.ofNat (i + 1))
  rw [hc.count_eq, hc.select_eq, RouteRepoImpl.listPaginated, listPaginated_window _ _ _ hi]
    at hanswered
  exact hanswered.shows

lemma ServesRoutes.total_eq {rows : List RouteRow} {page : UInt32} (hc : c.Unchanged rows) :
    (control i page).Refused ∨ ∃ list, (control i page).Shows list rows.length := by
  obtain hrefused | ⟨r, hr, hshows⟩ := (h i page).refused_or
  · exact .inl hrefused
  · obtain ⟨all, -, -, list, hcount, -, -, -, rfl⟩ := listPaginated_eq_ok hr
    obtain rfl : rows = all := some.inj ((hc.count_eq i).symm.trans hcount)
    exact .inr ⟨_, hshows⟩

end

end Routes

lemma length_reduceOption_of_mapM {ρ δ ε : Type} {toDto : ρ → Except ε (Option δ)}
    (hsome : ∀ m dto, toDto m = .ok dto → dto.isSome) {models : List ρ} {list : List (Option δ)}
    (h : models.mapM toDto = .ok list) : list.reduceOption.length = models.length := by
  induction models generalizing list with
  | nil =>
    cases h
    rfl
  | cons m models ih =>
    rw [mapM_cons] at h
    cases hm : toDto m with
    | error e =>
      rw [hm] at h
      cases h
    | ok dto =>
      cases hrest : models.mapM toDto with
      | error e =>
        rw [hm, hrest] at h
        cases h
      | ok rest =>
        rw [hm, hrest] at h
        cases h
        obtain ⟨d, rfl⟩ := isSome_iff_exists.mp (hsome m dto hm)
        rw [reduceOption_cons_of_some, length_cons, length_cons, ih hrest]

section

variable {c : TableCourse UpstreamRow (·.id)} {control : Nat → UInt32 → PageReply UpstreamDto}

lemma ServesUpstreams.refused_or {loadNodes : Nat → Nat → Option (List NodeRow)}
    (h : ServesUpstreams server c loadNodes control) (hi : i * 200 < 2 ^ 32) :
    (control i (.ofNat (i + 1))).Refused ∨
      ∃ list, (control i (.ofNat (i + 1))).Shows list (c.counted i).length ∧
        list.length = min 200 ((c.selected i).length - i * 200) := by
  obtain hrefused | ⟨r, hr, hshows⟩ := (h i (.ofNat (i + 1))).refused_or
  · exact .inl hrefused
  · obtain ⟨all, answer, models, list, hcount, hselect, hmodels, hlist, rfl⟩ :=
      listPaginated_eq_ok hr
    have hpage : selectPage server answer (.ofNat (i + 1)) (clampPageSize 200) =
        some (window 200 i answer) :=
      selectPage_eq (by omega) hi answer
    obtain rfl : window 200 i answer = models := some.inj (hpage.symm.trans hmodels)
    rw [eq_of_count hcount] at hshows
    refine .inr ⟨_, hshows, ?_⟩
    rw [← c.length_window_answers, ← eq_of_select hselect]
    refine length_reduceOption_of_mapM ?_ hlist
    intro m dto hdto
    split at hdto
    · cases hdto
    · cases hdto
      rfl

lemma ServesUpstreams.shows {rows : List UpstreamRow} {nodes : Nat → List NodeRow}
    (h : ServesUpstreams server c (fun _ id => some (nodes id)) control) (hc : c.Unchanged rows)
    (hi : i * 200 < 2 ^ 32) :
    (control i (.ofNat (i + 1))).Shows
      ((window 200 i (c.answers 0)).filterMap fun m => some (m.toDto (nodes m.id)))
      rows.length := by
  have hanswered := h i (.ofNat (i + 1))
  rw [hc.count_eq, hc.select_eq, UpstreamRepoImpl.listPaginated, listPaginated_window _ _ _ hi]
    at hanswered
  exact hanswered.shows

end

lemma toNat_saturatingOffset (hi : i + 1 < 2 ^ 32) :
    (saturatingOffset (.ofNat (i + 1)) (clampPageSize 200)).toNat = i * 200 := by
  have hpage : (UInt32.ofNat (i + 1)).toNat = i + 1 := UInt32.toNat_ofNat_of_lt' hi
  have hone : 1 ≤ UInt32.ofNat (i + 1) := by
    rw [UInt32.le_iff_toNat_le, hpage]
    exact Nat.le_add_left 1 i
  have hbefore : (UInt32.ofNat (i + 1) - 1).toNat = i := by
    rw [UInt32.toNat_sub_of_le _ _ hone, hpage]
    rfl
  have hsize : (clampPageSize 200).toUInt64.toNat = 200 := rfl
  rw [saturatingOffset, if_neg (UInt32.not_lt.mpr hone), UInt64.toNat_mul, UInt32.toNat_toUInt64,
    hbefore, hsize]
  omega

section Blacklist

variable {c : TableCourse IpBlacklistRow (·.id)} {control : Nat → UInt32 → PageReply IpBlacklistDto}

lemma blacklist_window (all answer : List IpBlacklistRow) (hi : i + 1 < 2 ^ 32) :
    IpBlacklistRepoImpl.listPaginated (some all) (some answer) (.ofNat (i + 1)) 200 =
      .ok ⟨(window 200 i answer).filterMap toDto, all.length, .ofNat (i + 1), 200⟩ := by
  rw [IpBlacklistRepoImpl.listPaginated, toNat_saturatingOffset hi]
  rfl

lemma ServesBlacklist.refused_or (h : ServesBlacklist c control) (hi : i + 1 < 2 ^ 32) :
    (control i (.ofNat (i + 1))).Refused ∨ (control i (.ofNat (i + 1))).Shows
      ((window 200 i (c.answers i)).filterMap toDto) (c.counted i).length := by
  obtain hrefused | ⟨r, hr, hshows⟩ := (h i (.ofNat (i + 1))).refused_or
  · exact .inl hrefused
  · have hr := some.inj hr
    cases hcount : c.count i with
    | none =>
      rw [hcount] at hr
      cases hr
    | some all =>
      cases hselect : c.select i with
      | none =>
        rw [hcount, hselect] at hr
        cases hr
      | some answer =>
        rw [hcount, hselect, blacklist_window _ _ hi] at hr
        cases hr
        rw [eq_of_count hcount, eq_of_select hselect] at hshows
        exact .inr hshows

lemma ServesBlacklist.shows {rows : List IpBlacklistRow} (h : ServesBlacklist c control)
    (hc : c.Unchanged rows) (hi : i + 1 < 2 ^ 32) :
    (control i (.ofNat (i + 1))).Shows
      ((window 200 i (c.answers 0)).filterMap toDto) rows.length := by
  have hanswered := h i (.ofNat (i + 1))
  rw [hc.count_eq, hc.select_eq, blacklist_window _ _ hi] at hanswered
  exact hanswered.shows

end Blacklist

end Pages

/-! ### Loads -/

def LoadsAll {δ : Type} (load : Nat → Option (LoadEnd δ)) (listed : List δ) : Prop :=
  ∃ turns result, load turns = some (.returned (.ok result)) ∧ result.Perm listed

namespace HttpConfigLoader

variable {ρ δ : Type} {key : ρ → Nat} {c : TableCourse ρ key} {f : ρ → Option δ}
  {build : BuildProfile} {what : String} {control : Nat → UInt32 → PageReply δ} {rows : List ρ}

lemma loadsAll_of_full (hc : c.Unchanged rows) (hconv : ∀ m ∈ rows, (f m).isSome)
    (hfew : c.size / 200 + 3 < 2 ^ 32)
    (hpages : ∀ i < c.size / 200 + 2, (control i (.ofNat (i + 1))).Shows
      ((window 200 i (c.answers 0)).filterMap f) rows.length) :
    LoadsAll (fun turns => loadPages build what control turns 0 [] 1) (rows.filterMap f) := by
  have hsize : c.size = (c.answers 0).length := by
    rw [size, hc.counted, hc.perm.length_eq]
  rw [hsize] at hfew hpages
  rw [← hc.perm.length_eq] at hpages
  refine ⟨(c.answers 0).length / 200 + 2, (c.answers 0).filterMap f, ?_, hc.perm.filterMap f⟩
  refine loadPages_eq_of_full ?_ hfew hpages (by simp) (Nat.zero_add _) (by simp)
  exact fun m hm => hconv m (hc.perm.mem_iff.mp hm)

lemma le_length_of_returned {result : List δ} {total turns : Nat}
    (htotal : ∀ i page, (control i page).Refused ∨ ∃ list, (control i page).Shows list total)
    (h : loadPages build what control turns 0 [] 1 = some (.returned (.ok result))) :
    total ≤ result.length ∨ result = [] := by
  obtain ⟨j, page, all, hlast⟩ := exists_last_turn h
  obtain hrefused | ⟨list, hshows⟩ := htotal j page
  · obtain ⟨e, he⟩ := hrefused what all
    cases he.symm.trans hlast
  · have heq := Except.ok.inj ((hshows.loadPage_eq what all).symm.trans hlast)
    obtain ⟨rfl, hbreak⟩ := Prod.mk.inj heq
    simpa using hbreak

end HttpConfigLoader

section Loaders

variable {server client : BuildProfile}

section Routes

variable {c : TableCourse RouteRow (·.id)} {control : Nat → UInt32 → PageReply RouteDto}
  {rows : List RouteRow}

section

variable (h : ServesRoutes server c control)
include h

lemma ServesRoutes.stops (hfits : c.size + 200 < 2 ^ 32)
    (hconv : ∀ i, ∀ m ∈ c.selected i, m.toDto.isSome) :
    (loadRoutes client control (c.size / 200 + 2)).isSome := by
  have hfew : c.size / 200 + 3 < 2 ^ 32 := by omega
  refine isSome_loadPages c.shrinking hfew ?_ progress_start (Nat.zero_add _)
  intro i (hi : i < c.size / 200 + 2)
  exact (h.refused_or (by omega)).imp_right fun hshows =>
    ⟨_, hshows, length_filterMap_window (hconv i)⟩

lemma ServesRoutes.of_loadsAll (hc : c.Unchanged rows)
    (hloads :
      LoadsAll (loadRoutes client control) (rows.filterMap toDto)) :
    (∀ m ∈ rows, m.toDto = none) ∨ ∀ m ∈ rows, m.toDto.isSome := by
  obtain ⟨turns, result, hload, hperm⟩ := hloads
  obtain hle | rfl := le_length_of_returned (fun _ _ => h.total_eq hc) hload
  · rw [hperm.length_eq] at hle
    exact .inr (filterMap_length_eq_length.mp (le_antisymm (length_filterMap_le _ _) hle))
  · exact .inl (filterMap_eq_nil_iff.mp hperm.symm.eq_nil)

lemma ServesRoutes.loadsAll_of_none (hc : c.Unchanged rows) (hnone : ∀ m ∈ rows, m.toDto = none) :
    LoadsAll (loadRoutes client control) (rows.filterMap RouteRow.toDto) := by
  have hpage : (window 200 0 (c.answers 0)).filterMap RouteRow.toDto = [] := by
    refine filterMap_eq_nil_iff.mpr fun m hm => hnone m ?_
    exact hc.perm.mem_iff.mp (window_subset 200 0 _ hm)
  have hfirst : (control 0 1).Shows
      ((window 200 0 (c.answers 0)).filterMap RouteRow.toDto) rows.length :=
    h.shows hc (by decide)
  rw [hpage] at hfirst
  refine ⟨1, [], loadPages_eq_of_empty hfirst 0, ?_⟩
  rw [filterMap_eq_nil_iff.mpr hnone]

lemma ServesRoutes.loadsAll_iff (hfits : c.size + 200 < 2 ^ 32) (hc : c.Unchanged rows) :
    LoadsAll (loadRoutes client control) (rows.filterMap toDto) ↔
      (∀ m ∈ rows, m.toDto = none) ∨ ∀ m ∈ rows, m.toDto.isSome := by
  refine ⟨h.of_loadsAll hc, ?_⟩
  rintro (hnone | hall)
  · exact h.loadsAll_of_none hc hnone
  · exact loadsAll_of_full hc hall (by omega) fun i hi => h.shows hc (by omega)

end

end Routes

section Upstreams

variable {c : TableCourse UpstreamRow (·.id)} {control : Nat → UInt32 → PageReply UpstreamDto}

lemma ServesUpstreams.stops {loadNodes : Nat → Nat → Option (List NodeRow)}
    (h : ServesUpstreams server c loadNodes control) (hfits : c.size + 200 < 2 ^ 32) :
    (HttpConfigLoader.loadUpstreams client control (c.size / 200 + 2)).isSome := by
  have hfew : c.size / 200 + 3 < 2 ^ 32 := by omega
  refine isSome_loadPages c.shrinking hfew ?_ progress_start (Nat.zero_add _)
  intro i (hi : i < c.size / 200 + 2)
  exact h.refused_or (by omega)

lemma ServesUpstreams.loadsAll {rows : List UpstreamRow} {nodes : Nat → List NodeRow}
    (h : ServesUpstreams server c (fun _ id => some (nodes id)) control)
    (hfits : c.size + 200 < 2 ^ 32) (hc : c.Unchanged rows) :
    LoadsAll (HttpConfigLoader.loadUpstreams client control)
      (rows.map fun m => m.toDto (nodes m.id)) := by
  rw [← filterMap_eq_map]
  exact loadsAll_of_full hc (fun _ _ => rfl) (by omega) fun i hi => h.shows hc (by omega)

end Upstreams

section Blacklist

variable {c : TableCourse IpBlacklistRow (·.id)} {control : Nat → UInt32 → PageReply IpBlacklistDto}

section

variable (h : ServesBlacklist c control) (hfew : c.size / 200 + 3 < 2 ^ 32)
include h hfew

lemma ServesBlacklist.stops :
    (loadBlacklist client control (c.size / 200 + 2)).isSome := by
  refine isSome_loadPages c.shrinking hfew ?_ progress_start (Nat.zero_add _)
  intro i (hi : i < c.size / 200 + 2)
  exact (h.refused_or (by omega)).imp_right fun hshows =>
    ⟨_, hshows, length_filterMap_window fun _ _ => rfl⟩

lemma ServesBlacklist.loadsAll {rows : List IpBlacklistRow} (hc : c.Unchanged rows) :
    LoadsAll (loadBlacklist client control)
      (rows.filterMap toDto) :=
  loadsAll_of_full hc (fun _ _ => rfl) hfew fun i hi => h.shows hc (by omega)

end

end Blacklist

end Loaders

/-- Upstreams and the blacklist are loaded with a request for each page and one more at most, while
their number does not grow; if they do not change, each is returned once. The same is true of the
routes exactly if the match conditions of all of them can be read, or of none. -/
theorem httpLoader_loads (server client : BuildProfile) :
    (∀ (c : TableCourse RouteRow (·.id)) (control : Nat → UInt32 → PageReply RouteDto),
      ServesRoutes server c control → c.size + 200 < 2 ^ 32 →
      ((∀ i, ∀ m ∈ c.selected i, m.toDto.isSome) →
        (loadRoutes client control (c.size / 200 + 2)).isSome) ∧
      ∀ rows, c.Unchanged rows →
        (LoadsAll (loadRoutes client control) (rows.filterMap toDto) ↔
          (∀ m ∈ rows, m.toDto = none) ∨ ∀ m ∈ rows, m.toDto.isSome)) ∧
    (∀ (c : TableCourse UpstreamRow (·.id)) (loadNodes : Nat → Nat → Option (List NodeRow))
      (control : Nat → UInt32 → PageReply UpstreamDto),
      ServesUpstreams server c loadNodes control → c.size + 200 < 2 ^ 32 →
      (HttpConfigLoader.loadUpstreams client control (c.size / 200 + 2)).isSome ∧
      ∀ (rows : List UpstreamRow) (nodes : Nat → List NodeRow), c.Unchanged rows →
        (loadNodes = fun _ id => some (nodes id)) →
        LoadsAll (HttpConfigLoader.loadUpstreams client control)
          (rows.map fun m => m.toDto (nodes m.id))) ∧
    ∀ (c : TableCourse IpBlacklistRow (·.id)) (control : Nat → UInt32 → PageReply IpBlacklistDto),
      ServesBlacklist c control → c.size / 200 + 3 < 2 ^ 32 →
      (loadBlacklist client control (c.size / 200 + 2)).isSome ∧
      ∀ rows, c.Unchanged rows →
        LoadsAll (loadBlacklist client control)
          (rows.filterMap IpBlacklistRow.toDto) := by
  refine ⟨?_, ?_, ?_⟩
  · intro c control h hfits
    exact ⟨h.stops hfits, fun rows hc => h.loadsAll_iff hfits hc⟩
  · intro c loadNodes control h hfits
    refine ⟨h.stops hfits, ?_⟩
    rintro rows nodes hc rfl
    exact h.loadsAll hfits hc
  · intro c control h hfew
    exact ⟨h.stops hfew, fun rows hc => h.loadsAll hfew hc⟩

def routeWith (id : Nat) (conditions : Option RouteMatchConditions) : RouteRow where
  id := id
  name := "route"
  protocol := 1
  matchConditions := conditions
  priority := 0
  upstreamId := none
  hostHeader := none
  allowRetryNonIdempotent := false
  wsStripSensitiveHeaders := false
  enabled := true
  createdAt := 0
  updatedAt := 0
  deletedAt := none

def readableRoute (id : Nat) : RouteRow := routeWith id (some ⟨.exact "/", none, none, [], []⟩)

def servedRoutes (server : BuildProfile) (c : TableCourse RouteRow (·.id)) (i : Nat)
    (page : UInt32) : PageReply RouteDto :=
  replyTo (RouteRepoImpl.listPaginated server (c.count i) (c.select i) page 200)

lemma serves_servedRoutes (server : BuildProfile) (c : TableCourse RouteRow (·.id)) :
    ServesRoutes server c (servedRoutes server c) := fun _ _ => answered_replyTo _

theorem httpLoader_loads_two_routes :
    let c : TableCourse RouteRow (·.id) :=
      .still [readableRoute 2, readableRoute 1] (by decide) (by decide)
    c.Unchanged [readableRoute 2, readableRoute 1] ∧
      LoadsAll (loadRoutes .debug (servedRoutes .debug c))
        ([readableRoute 2, readableRoute 1].filterMap toDto) := by
  intro c
  have hc : c.Unchanged [readableRoute 2, readableRoute 1] := unchanged_still _ _
  refine ⟨hc, ?_⟩
  exact (((httpLoader_loads .debug .debug).1 c _ (serves_servedRoutes _ _) (by decide)).2 _
    hc).mpr (.inr (by decide))

def remainingRoutes : Nat → List RouteRow
  | 0 => [readableRoute 3, routeWith 2 none, routeWith 1 none]
  | _ + 1 => [routeWith 2 none, routeWith 1 none]

def deletedRoute : TableCourse RouteRow (·.id) :=
  .ofRows remainingRoutes
    (by rintro (_ | _) <;> simp [remainingRoutes, readableRoute, routeWith])
    (by rintro (_ | _) <;> simp [remainingRoutes, readableRoute, routeWith])
    (by rintro (_ | _) <;> simp [remainingRoutes])

lemma deletedRoute_shows (i : Nat) (page : UInt32) :
    (servedRoutes .release deletedRoute (i + 1) page).Shows [] 2 := by
  let rows : List RouteRow := [routeWith 2 none, routeWith 1 none]
  have hempty : ∀ models : List RouteRow, models ⊆ rows → models.filterMap RouteRow.toDto = [] := by
    intro models hsubset
    refine filterMap_eq_nil_iff.mpr fun m hm => ?_
    have hnone : ∀ m ∈ rows, m.toDto = none := by decide
    exact hnone m (hsubset hm)
  have hlist : RouteRepoImpl.listPaginated .release (some rows) (some rows) page 200 =
      some (.ok ⟨[], 2, page, 200⟩) := by
    rw [RouteRepoImpl.listPaginated, listPaginated_eq]
    have hpage : selectPage .release rows page (clampPageSize 200) =
        some ((rows.drop ((page - 1) * 200).toUInt64.toNat).take 200) := rfl
    rw [hpage, map_some, hempty]
    · rfl
    · exact fun m hm => mem_of_mem_drop (mem_of_mem_take hm)
  refine ⟨page, 200, ?_⟩
  exact congrArg replyTo hlist

lemma deletedRoute_goes_on (turns i : Nat) (r : RouteDto) (page : UInt32) :
    loadPages .release "route" (servedRoutes .release deletedRoute) turns (i + 1) [r] page =
      none := by
  induction turns generalizing i page with
  | zero => rfl
  | succ turns ih =>
    rw [loadPages, (deletedRoute_shows i page).loadPage_eq]
    exact ih (i + 1) _

/-- The load does not end after the route is deleted. Of two routes, one of which cannot be read,
the other one is not returned as the only one. -/
theorem httpLoader_never_stops :
    ((∀ i, (deletedRoute.selected (i + 1)).Sublist (deletedRoute.selected i)) ∧
      ServesRoutes .release deletedRoute (servedRoutes .release deletedRoute) ∧
      ∀ turns, loadRoutes .release (servedRoutes .release deletedRoute) turns =
        none) ∧
    let c : TableCourse RouteRow (·.id) :=
      .still [readableRoute 2, routeWith 1 none] (by decide) (by decide)
    ServesRoutes .release c (servedRoutes .release c) ∧
      c.Unchanged [readableRoute 2, routeWith 1 none] ∧
      ¬ LoadsAll (loadRoutes .release (servedRoutes .release c))
        ([readableRoute 2, routeWith 1 none].filterMap toDto) := by
  refine ⟨⟨?_, serves_servedRoutes _ _, ?_⟩, ?_⟩
  · intro i
    cases i with
    | zero => exact sublist_cons_self _ _
    | succ i => exact .refl _
  · intro turns
    cases turns with
    | zero => rfl
    | succ turns => exact deletedRoute_goes_on turns 0 _ _
  · have hserves := serves_servedRoutes .release (.still [readableRoute 2, routeWith 1 none]
      (by decide) (by decide))
    refine ⟨hserves, unchanged_still _ _, fun hloads => ?_⟩
    have hmixed := hserves.of_loadsAll (unchanged_still _ _) hloads
    exact absurd hmixed (by decide)

end Conrogate
