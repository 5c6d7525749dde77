import Conrogate.Core.Telemetry
import Conrogate.Lib.Paging
import Conrogate.Storage.Programs
import Conrogate.Storage.ConfigVersion

/-!
# Lists, page by page

The offset of a page is `(page - 1) * page_size` in `u32`, which panics or wraps around. The list of
the blacklist saturates. Events are sorted by a time that several can have.
-/

namespace Conrogate

open SoftTable Paging List Option

inductive BuildProfile where
  | debug
  | release
deriving DecidableEq

namespace BuildProfile

def sub : BuildProfile → UInt32 → UInt32 → Option UInt32
  | .debug, a, b   => if b ≤ a then some (a - b) else none
  | .release, a, b => some (a - b)

def mul : BuildProfile → UInt32 → UInt32 → Option UInt32
  | .debug, a, b   => if a.toNat * b.toNat < 2 ^ 32 then some (a * b) else none
  | .release, a, b => some (a * b)

end BuildProfile

def clampPageSize (pageSize : UInt32) : UInt32 :=
  if pageSize < 1 then 1 else if 200 < pageSize then 200 else pageSize

def pageOffset (build : BuildProfile) (page pageSize : UInt32) : Option UInt64 := do
  let before ← build.sub page 1
  let offset ← build.mul before pageSize
  some offset.toUInt64

/-! ### The lists -/

structure PaginationQuery where
  page : Option UInt32
  pageSize : Option UInt32

structure PaginatedResult (δ : Type) where
  list : List δ
  total : Nat
  page : UInt32
  pageSize : UInt32

section Lists

variable {ρ δ : Type} (build : BuildProfile)

def selectPage (answer : List ρ) (page pageSize : UInt32) : Option (List ρ) := do
  let offset ← pageOffset build page pageSize
  some ((answer.drop offset.toNat).take pageSize.toNat)

def listPaginated (toDto : ρ → Result (Option δ))
    (counted selected : Option (List ρ)) (page pageSize : UInt32) :
    Option (Result (PaginatedResult δ)) :=
  let pageSize := clampPageSize pageSize
  match counted with
  | none => some (.error .databaseInternal)
  | some all => match selected with
    | none => (pageOffset build page pageSize).map fun _ => .error .databaseInternal
    | some answer => (selectPage build answer page pageSize).map fun models => do
      let list ← models.mapM toDto
      .ok ⟨list.reduceOption, all.length, page, pageSize⟩

def RouteRepoImpl.listPaginated :=
  Conrogate.listPaginated build fun m : RouteRow => .ok m.toDto

def UpstreamRepoImpl.listPaginated (loadNodes : Nat → Option (List NodeRow)) :=
  Conrogate.listPaginated build fun m : UpstreamRow => match loadNodes m.id with
    | none => .error .databaseInternal
    | some nodes => .ok (some (m.toDto nodes))

structure ConfigVersionDto where
  version : Nat
  baseVersion : Nat
  publishType : PublishType
  contentHash : String
  createdBy : Option String
  remark : Option String
  appliedCount : Nat
  createdAt : Time

def ConfigVersionRow.toDto (m : ConfigVersionRow) : ConfigVersionDto where
  version := m.version
  baseVersion := m.baseVersion
  publishType := m.publishType
  contentHash := m.contentHash
  createdBy := m.createdBy
  remark := m.remark
  appliedCount := 0
  createdAt := m.createdAt

def ConfigVersionRepoImpl.listVersions :=
  Conrogate.listPaginated build fun m : ConfigVersionRow => .ok (some m.toDto)

structure StoredEvent where
  id : Nat
  event : EventRow

def EventRepoImpl.query :=
  Conrogate.listPaginated build fun m : StoredEvent => .ok (some m.event)

end Lists

structure EventQuery where
  eventType : Option String
  routeId : Option Nat
  tsFrom : Option Time
  tsTo : Option Time

def EventQuery.selects (filter : EventQuery) (m : StoredEvent) : Bool :=
  filter.eventType.all (m.event.eventType == ·) &&
  filter.routeId.all (m.event.routeId == some ·) &&
  filter.tsFrom.all (· ≤ m.event.ts) &&
  filter.tsTo.all (m.event.ts ≤ ·)

/-- What a list selects, the column by which it is sorted, and the DTO of a row. -/
structure ListQuery (ρ δ : Type) where
  rows : List ρ
  key : ρ → Nat
  toDto : ρ → Option δ

def routesQuery (t : Tables) : ListQuery RouteRow RouteDto :=
  ⟨live t.routes, (·.id), RouteRow.toDto⟩

def upstreamsQuery (t : Tables) (nodes : Nat → List NodeRow) : ListQuery UpstreamRow UpstreamDto :=
  ⟨live t.upstreams, (·.id), fun m => some (m.toDto (nodes m.id))⟩

def versionsQuery (versions : List ConfigVersionRow) :
    ListQuery ConfigVersionRow ConfigVersionDto :=
  ⟨versions, (·.version), fun m => some m.toDto⟩

def eventsQuery (filter : EventQuery) (events : List StoredEvent) :
    ListQuery StoredEvent EventRow :=
  ⟨events.filter filter.selects, (·.event.ts), fun m => some m.event⟩

def ExactOffset (build : BuildProfile) (page pageSize : UInt32) : Prop :=
  ∃ offset, pageOffset build page (clampPageSize pageSize) = some offset ∧
    (offset.toNat : Int) = ((page.toNat : Int) - 1) * (clampPageSize pageSize).toNat

lemma clampPageSize_pos (pageSize : UInt32) : 0 < (clampPageSize pageSize).toNat := by
  rw [clampPageSize]
  split_ifs with hlow hhigh
  · decide
  · decide
  · rw [UInt32.lt_iff_toNat_lt, Nat.not_lt] at hlow
    exact hlow

variable {build : BuildProfile} {page pageSize : UInt32} {a b : UInt32}

lemma BuildProfile.sub_of_le (h : b ≤ a) : build.sub a b = some (a - b) := by
  cases build with
  | debug => rw [sub, if_pos h]
  | release => rfl

lemma BuildProfile.mul_of_lt (h : a.toNat * b.toNat < 2 ^ 32) :
    build.mul a b = some (a * b) := by
  cases build with
  | debug => rw [mul, if_pos h]
  | release => rfl

lemma pageOffset_eq (build : BuildProfile) (hpage : 1 ≤ page)
    (hfits : (page.toNat - 1) * pageSize.toNat < 2 ^ 32) :
    ∃ offset, pageOffset build page pageSize = some offset ∧
      offset.toNat = (page.toNat - 1) * pageSize.toNat := by
  have hbefore : (page - 1).toNat = page.toNat - 1 := UInt32.toNat_sub_of_le _ _ hpage
  rw [← hbefore] at hfits
  refine ⟨((page - 1) * pageSize).toUInt64, ?_, ?_⟩
  · rw [pageOffset, BuildProfile.sub_of_le hpage, bind_eq_bind, bind_some,
      BuildProfile.mul_of_lt hfits]
    rfl
  · rw [UInt32.toNat_toUInt64, UInt32.toNat_mul, Nat.mod_eq_of_lt hfits, hbefore]

lemma toNat_pageOffset {offset : UInt64} (h : pageOffset build page pageSize = some offset) :
    offset.toNat = (page - 1).toNat * pageSize.toNat % 2 ^ 32 := by
  simp only [pageOffset, bind_eq_bind, bind_eq_some_iff, some.injEq] at h
  obtain ⟨before, hsub, product, hmul, rfl⟩ := h
  have hbefore : before = page - 1 := by
    cases build with
    | debug => exact (ite_none_right_eq_some.mp hsub).2 |> some.inj |>.symm
    | release => exact (some.inj hsub).symm
  have hproduct : product = before * pageSize := by
    cases build with
    | debug => exact (ite_none_right_eq_some.mp hmul).2 |> some.inj |>.symm
    | release => exact (some.inj hmul).symm
  rw [UInt32.toNat_toUInt64, hproduct, UInt32.toNat_mul, hbefore]

lemma cast_before (hpage : 1 ≤ page) : (page.toNat : Int) - 1 = (page.toNat - 1 : Nat) := by
  have hone : 1 ≤ page.toNat := UInt32.le_iff_toNat_le.mp hpage
  omega

lemma exactOffset_iff : ExactOffset build page pageSize ↔
    1 ≤ page ∧ (page.toNat - 1) * (clampPageSize pageSize).toNat < 2 ^ 32 := by
  have hpos := clampPageSize_pos pageSize
  constructor
  · rintro ⟨offset, hoffset, hexact⟩
    have hwrapped := toNat_pageOffset hoffset
    have hpage : 1 ≤ page := by
      rw [UInt32.le_iff_toNat_le]
      by_contra hzero
      -- the offset of page 0 would be negative
      have hzero : page.toNat = 0 := by simpa using hzero
      rw [hzero] at hexact
      omega
    have hbefore : (page - 1).toNat = page.toNat - 1 := UInt32.toNat_sub_of_le _ _ hpage
    have hproduct : offset.toNat = (page.toNat - 1) * (clampPageSize pageSize).toNat := by
      rw [cast_before hpage] at hexact
      exact_mod_cast hexact
    refine ⟨hpage, ?_⟩
    rw [← hproduct, hwrapped]
    exact Nat.mod_lt _ (by decide)
  · rintro ⟨hpage, hfits⟩
    obtain ⟨offset, hoffset, hexact⟩ := pageOffset_eq build hpage hfits
    refine ⟨offset, hoffset, ?_⟩
    rw [cast_before hpage, hexact, Int.natCast_mul]

/-! ### Pages -/

def readPages {ρ : Type} (build : BuildProfile) (answers : Nat → List ρ) (pageSize : UInt32)
    (k : Nat) : Option (List ρ) := do
  let pages ← (List.range k).mapM fun i =>
    selectPage build (answers i) (.ofNat (i + 1)) (clampPageSize pageSize)
  some pages.flatten

section Requests

variable {ρ δ : Type} (f : ρ → Option δ) (all : List ρ)

lemma listPaginated_eq (answer : List ρ) :
    listPaginated build (fun m => .ok (f m)) (some all) (some answer) page pageSize =
      (selectPage build answer page (clampPageSize pageSize)).map fun models =>
        .ok ⟨models.filterMap f, all.length, page, clampPageSize pageSize⟩ := by
  have hmap : ∀ models : List ρ, models.mapM (fun m => Except.ok (ε := ConrogateError) (f m)) =
      .ok (models.map f) := fun _ => mapM_pure
  have hlist : ∀ models : List ρ, (models.map f).reduceOption = models.filterMap f := by
    intro models
    exact filterMap_map
  simp only [listPaginated, hmap, ← hlist]
  rfl

lemma listPaginated_eq_ok {toDto : ρ → Result (Option δ)}
    {counted selected : Option (List ρ)} {r : PaginatedResult δ}
    (h : listPaginated build toDto counted selected page pageSize = some (.ok r)) :
    ∃ all answer models list, counted = some all ∧ selected = some answer ∧
      selectPage build answer page (clampPageSize pageSize) = some models ∧
      models.mapM toDto = .ok list ∧
      r = ⟨list.reduceOption, all.length, page, clampPageSize pageSize⟩ := by
  cases counted with
  | none => cases h
  | some all =>
    cases selected with
    | none =>
      obtain ⟨_, _, hr⟩ := map_eq_some_iff.mp h
      cases hr
    | some answer =>
      obtain ⟨models, hmodels, hr⟩ := map_eq_some_iff.mp h
      cases hlist : models.mapM toDto with
      | error e =>
        rw [hlist] at hr
        cases hr
      | ok list =>
        rw [hlist] at hr
        cases hr
        exact ⟨all, answer, models, list, rfl, rfl, hmodels, hlist, rfl⟩

end Requests

/-- The lists of the first `k` pages, one request for each. -/
def readLists {ρ δ : Type}
    (request : List ρ → UInt32 → Option (Result (PaginatedResult δ)))
    (answers : Nat → List ρ) (k : Nat) : Option (List δ) := do
  let lists ← (List.range k).mapM fun i => match request (answers i) (.ofNat (i + 1)) with
    | some (.ok r) => some r.list
    | _ => none
  some lists.flatten

/-- Whatever order the database chooses for each page among rows with the same key, the pages
select the rows in one order, each once, and the requests return the DTO of each of them. -/
def ListQuery.PagesFit {ρ δ : Type} (build : BuildProfile) (q : ListQuery ρ δ)
    (request : Option (List ρ) → Option (List ρ) → UInt32 → UInt32 →
      Option (Result (PaginatedResult δ)))
    (pageSize : UInt32) (k : Nat) : Prop :=
  ∀ answers : Nat → List ρ, (∀ i, Answers q.key q.rows (answers i)) →
    ∃ answer list, Answers q.key q.rows answer ∧
      readPages build answers pageSize k =
        some (answer.take (k * (clampPageSize pageSize).toNat)) ∧
      readLists (fun selected page => request (some q.rows) (some selected) page pageSize) answers
        k = some list ∧
      list.map some = (answer.take (k * (clampPageSize pageSize).toNat)).map q.toDto

lemma mapM_eq_some_map {α β : Type} {l : List α} {f : α → Option β} {g : α → β}
    (h : ∀ a ∈ l, f a = some (g a)) : l.mapM f = some (l.map g) := by
  induction l with
  | nil => rfl
  | cons a l ih =>
    have ih := ih fun b hb => h b (mem_cons_of_mem a hb)
    simp [mapM_cons, h a mem_cons_self, ih]

lemma selectPage_eq {ρ : Type} {i : Nat} (hi : i + 1 < 2 ^ 32)
    (hfits : i * pageSize.toNat < 2 ^ 32) (answer : List ρ) :
    selectPage build answer (.ofNat (i + 1)) pageSize =
      some (window pageSize.toNat i answer) := by
  have hpage : (UInt32.ofNat (i + 1)).toNat = i + 1 := UInt32.toNat_ofNat_of_lt' hi
  have hfit : ((UInt32.ofNat (i + 1)).toNat - 1) * pageSize.toNat < 2 ^ 32 := by
    rw [hpage]
    exact hfits
  obtain ⟨offset, hoffset, hexact⟩ := pageOffset_eq build
    (UInt32.le_iff_toNat_le.mpr (by rw [hpage]; exact Nat.le_add_left 1 i)) hfit
  rw [hpage, Nat.add_sub_cancel] at hexact
  rw [selectPage, hoffset, bind_eq_bind, bind_some, hexact]
  rfl

section

variable {k : Nat} (hk : k < 2 ^ 32) (hfits : (k - 1) * (clampPageSize pageSize).toNat < 2 ^ 32)
include hk hfits

lemma readPages_eq {ρ : Type} (answers : Nat → List ρ) :
    readPages build answers pageSize k =
      some (pages (clampPageSize pageSize).toNat k answers) := by
  have hselect : ∀ i ∈ List.range k,
      selectPage build (answers i) (.ofNat (i + 1)) (clampPageSize pageSize) =
        some (window (clampPageSize pageSize).toNat i (answers i)) := by
    intro i hi
    have hi : i < k := mem_range.mp hi
    exact selectPage_eq (by omega) ((Nat.mul_le_mul_right _ (by omega)).trans_lt hfits) _
  rw [readPages, mapM_eq_some_map hselect]
  rfl

lemma readLists_eq {ρ δ : Type} (f : ρ → Option δ) (all : List ρ) (answers : Nat → List ρ) :
    readLists (fun selected page =>
        listPaginated build (fun m => .ok (f m)) (some all) (some selected) page pageSize)
      answers k = some ((pages (clampPageSize pageSize).toNat k answers).filterMap f) := by
  have hselect : ∀ i ∈ List.range k, (match listPaginated build (fun m => .ok (f m)) (some all)
      (some (answers i)) (.ofNat (i + 1)) pageSize with
      | some (.ok r) => some r.list
      | _ => none) =
        some ((window (clampPageSize pageSize).toNat i (answers i)).filterMap f) := by
    intro i hi
    have hi : i < k := mem_range.mp hi
    rw [listPaginated_eq, selectPage_eq (by omega)
      ((Nat.mul_le_mul_right _ (by omega)).trans_lt hfits)]
    rfl
  rw [readLists, mapM_eq_some_map hselect]
  simp [pages, flatMap, filterMap_flatten, Function.comp_def]

end

lemma map_some_filterMap_iff {ρ δ : Type} {f : ρ → Option δ} {l : List ρ} :
    (l.filterMap f).map some = l.map f ↔ ∀ m ∈ l, (f m).isSome := by
  induction l with
  | nil => simp
  | cons m l ih =>
    cases hm : f m with
    | none =>
      have hlength := length_filterMap_le f l
      simp only [filterMap_cons, hm, map_cons, forall_mem_cons, isSome_none, Bool.false_eq_true,
        false_and, iff_false]
      intro heq
      have hlength' := congrArg length heq
      simp at hlength'
      omega
    | some d => simp [hm, ih]

namespace ListQuery

variable {ρ δ : Type} {q : ListQuery ρ δ} {k : Nat}

/-- Pages fit exactly if no page ends between rows with the same key and every row on them has a
DTO. -/
lemma pagesFit_iff (hrows : q.rows.Nodup) (hk : k < 2 ^ 32)
    (hfits : (k - 1) * (clampPageSize pageSize).toNat < 2 ^ 32) :
    q.PagesFit build (listPaginated build fun m => .ok (q.toDto m)) pageSize k ↔
      Separated q.key (clampPageSize pageSize).toNat k q.rows ∧
      ∀ answer, Answers q.key q.rows answer →
        ∀ m ∈ answer.take (k * (clampPageSize pageSize).toNat), (q.toDto m).isSome := by
  have hpos := clampPageSize_pos pageSize
  simp only [PagesFit, readPages_eq hk hfits, readLists_eq hk hfits, some.injEq]
  constructor
  · intro h
    have hseparated : Separated q.key (clampPageSize pageSize).toNat k q.rows := by
      refine (forall_pages_iff_separated hpos hrows).mp fun answers hanswers => ?_
      obtain ⟨answer, -, hanswer, hpages, -⟩ := h answers hanswers
      exact ⟨answer, hanswer, hpages⟩
    refine ⟨hseparated, fun answer hanswer => ?_⟩
    -- every page from the same answer
    obtain ⟨answer', list, -, hpages, hlist, hsome⟩ := h (fun _ => answer) fun _ => hanswer
    rw [pages_const] at hpages hlist
    rw [← hpages, ← hlist] at hsome
    exact map_some_filterMap_iff.mp hsome
  · rintro ⟨hseparated, hsome⟩ answers hanswers
    obtain ⟨answer, hanswer, hpages⟩ := hseparated.exists_answers_pages hpos hanswers
    refine ⟨answer, _, hanswer, hpages, rfl, ?_⟩
    rw [hpages]
    exact map_some_filterMap_iff.mpr (hsome answer hanswer)

lemma pagesFit_iff_of_nodup (hkeys : (q.rows.map q.key).Nodup) (hk : k < 2 ^ 32)
    (hfits : (k - 1) * (clampPageSize pageSize).toNat < 2 ^ 32) :
    q.PagesFit build (listPaginated build fun m => .ok (q.toDto m)) pageSize k ↔
      ∀ answer, Answers q.key q.rows answer →
        ∀ m ∈ answer.take (k * (clampPageSize pageSize).toNat), (q.toDto m).isSome := by
  rw [pagesFit_iff hkeys.of_map hk hfits, and_iff_right]
  exact separated_of_nodup hkeys (clampPageSize_pos pageSize)

end ListQuery

/-- The offset is the one that is meant exactly if the page is not 0 and the product fits. Then the
pages of upstreams and versions have each row once; those of routes do exactly if the conditions of
every route on them can be read, and those of events exactly if no two events with the same time are
on both sides of the end of a page. -/
theorem pagination_iff (build : BuildProfile) (backend : DatabaseBackend) {t : Tables}
    (ht : t.Admitted backend) (nodes : Nat → List NodeRow) {versions : List ConfigVersionRow}
    (hversions : (versions.map (·.version)).Nodup) {events : List StoredEvent}
    (hevents : (events.map (·.id)).Nodup) (filter : EventQuery) :
    (∀ query : PaginationQuery,
      ExactOffset build (query.page.getD 1) (query.pageSize.getD 20) ↔
        1 ≤ query.page.getD 1 ∧ ((query.page.getD 1).toNat - 1) *
          (clampPageSize (query.pageSize.getD 20)).toNat < 2 ^ 32) ∧
    ∀ (pageSize : UInt32) (k : Nat), k < 2 ^ 32 →
      (k - 1) * (clampPageSize pageSize).toNat < 2 ^ 32 →
      ((routesQuery t).PagesFit build (RouteRepoImpl.listPaginated build) pageSize k ↔
        ∀ answer, Answers RouteRow.id (live t.routes) answer →
          ∀ m ∈ answer.take (k * (clampPageSize pageSize).toNat), m.toDto.isSome) ∧
      (upstreamsQuery t nodes).PagesFit build
        (UpstreamRepoImpl.listPaginated build fun id => some (nodes id)) pageSize k ∧
      (versionsQuery versions).PagesFit build (ConfigVersionRepoImpl.listVersions build)
        pageSize k ∧
      ((eventsQuery filter events).PagesFit build (EventRepoImpl.query build) pageSize k ↔
        Separated (fun m : StoredEvent => m.event.ts) (clampPageSize pageSize).toNat k
          (events.filter filter.selects)) := by
  refine ⟨fun _ => exactOffset_iff, fun pageSize k hk hfits => ⟨?_, ?_, ?_, ?_⟩⟩
  · refine ListQuery.pagesFit_iff_of_nodup (q := routesQuery t) ?_ hk hfits
    exact ht.routeIds.sublist (filter_sublist.map _)
  · refine (ListQuery.pagesFit_iff_of_nodup (q := upstreamsQuery t nodes) ?_ hk hfits).mpr ?_
    · exact ht.upstreamIds.sublist (filter_sublist.map _)
    · exact fun _ _ _ _ => rfl
  · exact (ListQuery.pagesFit_iff_of_nodup (q := versionsQuery versions) hversions hk hfits).mpr
      fun _ _ _ _ => rfl
  · refine (ListQuery.pagesFit_iff (q := eventsQuery filter events) ?_ hk hfits).trans ?_
    · exact hevents.of_map.filter _
    · exact and_iff_left fun _ _ _ _ => rfl

def eventAt (id : Nat) (ts : Time) : StoredEvent := ⟨id, ⟨ts, "reload", none, none, none, .null⟩⟩

def threeRoutes : Tables :=
  let row (name : String) : Nat → RouteRow := CreateRouteDto.toRow
    ⟨name, .http, ⟨.exact "/", none, none, [], []⟩, none, none, none, none, none, none⟩ 0
  { Tables.empty with routes := [row "a" 1, row "b" 2, row "c" 3] }

theorem pagination_two_pages :
    let events := [eventAt 1 10, eventAt 2 20, eventAt 3 20]
    let filter : EventQuery := ⟨none, none, none, none⟩
    ExactOffset .release 2 2 ∧
      (routesQuery threeRoutes).PagesFit .release (RouteRepoImpl.listPaginated .release) 2 2 ∧
      (eventsQuery filter events).PagesFit .release (EventRepoImpl.query .release) 2 2 := by
  intro events filter
  have htables : threeRoutes.Admitted .sqlite := by decide
  have hdto : ∀ m ∈ live threeRoutes.routes, m.toDto.isSome := by decide
  have hversions : (([] : List ConfigVersionRow).map (·.version)).Nodup := nodup_nil
  have hevents : (events.map (·.id)).Nodup := by decide
  obtain ⟨hoffset, hpages⟩ :=
    pagination_iff .release .sqlite htables (fun _ => []) hversions hevents filter
  obtain ⟨hroutes, -, -, hfit⟩ := hpages 2 2 (by decide) (by decide)
  refine ⟨(hoffset ⟨some 2, some 2⟩).mpr (by decide), hroutes.mpr ?_, hfit.mpr (by decide)⟩
  intro answer hanswer m hm
  exact hdto m (hanswer.perm.mem_iff.mp (mem_of_mem_take hm))

/-- Page 0 panics or asks for rows that are far away. A large page asks for the first rows again. Of
two events with the same time, one is on both pages and the other on none. -/
theorem pagination_repeats_rows :
    let a := eventAt 1 10
    let b := eventAt 2 10
    pageOffset .debug 0 20 = none ∧ pageOffset .release 0 20 = some 4294967276 ∧
    pageOffset .debug 2147483649 2 = none ∧
    selectPage .release [30, 20, 10] 2147483649 2 = selectPage .release [30, 20, 10] 1 2 ∧
    Answers (·.event.ts) [a, b] [a, b] ∧ Answers (·.event.ts) [a, b] [b, a] ∧
    selectPage .release [a, b] 1 1 = some [a] ∧ selectPage .release [b, a] 2 1 = some [a] := by
  intro a b
  exact ⟨rfl, rfl, rfl, rfl, ⟨.refl _, by decide⟩, ⟨.swap _ _ _, by decide⟩, rfl, rfl⟩

end Conrogate
