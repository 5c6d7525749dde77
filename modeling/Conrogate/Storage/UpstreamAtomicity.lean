import Conrogate.Storage.UpdateFrame

/-!
# Calls on upstreams that fail

`create`, `update` and `soft_delete` write to two tables without a transaction. A call that fails
after its first write leaves what it has written.
-/

namespace Conrogate

open SoftTable Database List SoftRow DatabaseBackend

structure Tables.SameUpstreams (t u : Tables) : Prop where
  upstreams : ∀ m, m ∈ live u.upstreams ↔ m ∈ live t.upstreams
  nodes : ∀ m ∈ live t.upstreams, ∀ n, n ∈ u.loadNodes m.id ↔ n ∈ t.loadNodes m.id

lemma Tables.SameUpstreams.refl {t : Tables} : t.SameUpstreams t :=
  ⟨fun _ => Iff.rfl, fun _ _ _ => Iff.rfl⟩

def UpdateUpstreamDto.RowUnchanged (dto : UpdateUpstreamDto) (t : Tables) (now : Time) : Prop :=
  ∀ m, selectOne (·.id == dto.id) t.upstreams = some m → dto.writeTo now m = m

def UpdateUpstreamDto.Unchanging (dto : UpdateUpstreamDto) (t : Tables) : List Stamp → Prop
  | [] => True
  | [x] => dto.RowUnchanged t x.now
  | [x, _] => dto.RowUnchanged t x.now ∧ t.loadNodes dto.id = []
  | _ => False

def Tables.NodesOnly (t u : Tables) : Prop := u.upstreams = t.upstreams

instance : Std.Refl Tables.NodesOnly := ⟨fun _ => rfl⟩

instance : IsTrans Tables Tables.NodesOnly := ⟨fun _ _ _ h h' => Eq.trans h' h⟩

variable {backend : DatabaseBackend} {s t : Tables} {xs : List Stamp}

section Statements

variable {α β : Type} {q : Tables → β} {failed : String → ConrogateError}
  {w : Stamp → Tables → TableWrite} {r : Result α}

lemma executes_ask_bind {f : β → TableProgram α}
    (h : backend.database.Executes (ask q >>= f) s xs r t) :
    (xs = [] ∧ t = s) ∨ backend.database.Executes (f (q s)) s xs r t := by
  obtain h | ⟨rfl, -, rfl⟩ := h
  · exact .inr h
  · exact .inl ⟨rfl, rfl⟩

lemma executes_exec_bind {f : Stamp × Tables → TableProgram α}
    (h : backend.database.Executes (exec failed w >>= f) s xs r t) :
    (xs = [] ∧ t = s) ∨ ∃ x ys, xs = x :: ys ∧ ((w x s).apply s).Admitted backend ∧
      ((ys = [] ∧ t = (w x s).apply s) ∨
        backend.database.Executes (f (x, (w x s).apply s)) ((w x s).apply s) ys r t) := by
  obtain ⟨x, u, ys, rfl, hwrite, h⟩ | ⟨m, rfl, -, rfl⟩ := h
  · obtain ⟨hadmits, rfl⟩ := write_eq_some.mp hwrite
    refine .inr ⟨x, ys, rfl, admits_iff.mp hadmits, ?_⟩
    obtain h | ⟨m, rfl, -, rfl⟩ := h
    · exact .inr h
    · exact .inl ⟨rfl, rfl⟩
  · exact .inl ⟨rfl, rfl⟩

end Statements

namespace UpstreamRepoImpl

/-! ### Nodes -/

lemma insertNodes_nodesOnly (failed : String → ConrogateError) (upstreamId : Nat)
    (nodes : List CreateUpstreamNodeDto) :
    (insertNodes failed upstreamId nodes).Within backend.database Tables.NodesOnly := by
  refine .forM (fun n => ?_) nodes
  exact within_exec (fun x t _ => show t.upstreams = _ from rfl) fun _ => trivial

lemma insertNodes_nodes {failed : String → ConrogateError} {upstreamId : Nat}
    {nodes : List CreateUpstreamNodeDto} {r : Result Unit}
    (h : backend.database.Executes (insertNodes failed upstreamId nodes) s xs r t) :
    s.nodes <+: t.nodes ∧
      (xs ≠ [] → ∃ n ∈ t.loadNodes upstreamId, n.id ∉ s.nodes.map (·.id)) := by
  induction nodes generalizing s xs with
  | nil =>
    obtain ⟨rfl, -, rfl⟩ := h
    exact ⟨prefix_refl _, fun hxs => absurd rfl hxs⟩
  | cons dto nodes ih =>
    change backend.database.Executes
      (exec failed (fun x _ => .nodes (.insert (dto.toRow x.now upstreamId x.id))) >>= fun _ =>
        insertNodes failed upstreamId nodes) s xs r t at h
    obtain ⟨rfl, rfl⟩ | ⟨x, ys, rfl, hadmitted, h⟩ := executes_exec_bind h
    · exact ⟨prefix_refl _, fun hxs => absurd rfl hxs⟩
    · have hnew : x.id ∉ s.nodes.map (·.id) := rowId_notMem_of_insert hadmitted.nodeIds
      have hrest : s.nodes ++ [dto.toRow x.now upstreamId x.id] <+: t.nodes := by
        obtain ⟨rfl, rfl⟩ | h := h
        · exact prefix_refl _
        · exact (ih h).1
      refine ⟨(prefix_append _ _).trans hrest, fun _ =>
        ⟨dto.toRow x.now upstreamId x.id, ?_, hnew⟩⟩
      refine mem_filter.mpr ⟨mem_live.mpr ⟨hrest.subset ?_, rfl⟩, beq_self_eq_true _⟩
      exact mem_append_right _ (mem_singleton.mpr rfl)

/-! ### The three calls -/

variable {α : Type} {r : Result α}

lemma create_sameUpstreams_iff {dto : CreateUpstreamDto} {r : Result UpstreamDto}
    (h : backend.database.Executes (create dto) s xs r t) : s.SameUpstreams t ↔ xs = [] := by
  obtain ⟨rfl, rfl⟩ | ⟨x, ys, rfl, hadmitted, h⟩ := executes_exec_bind h
  · exact iff_of_true .refl rfl
  · refine iff_of_false (fun hsame => ?_) (cons_ne_nil x ys)
    have hkept : t.upstreams = s.upstreams ++ [dto.toRow x.now x.id] := by
      obtain ⟨-, rfl⟩ | h := h
      · rfl
      · refine h.within (R := Tables.NodesOnly) ?_
        exact (insertNodes_nodesOnly _ _ _).bind fun _ => within_ask fun _ => trivial
    have hlive : dto.toRow x.now x.id ∈ live t.upstreams := by
      rw [mem_live, hkept]
      exact ⟨mem_append_right _ (mem_singleton.mpr rfl), rfl⟩
    have hnew : x.id ∉ s.upstreams.map (·.id) := rowId_notMem_of_insert hadmitted.upstreamIds
    exact hnew (mem_map_of_mem (mem_live.mp ((hsame.upstreams _).mp hlive)).1)

def deleteNodes (upstreamId : Nat) (t : Tables) (x : Stamp) : Tables :=
  { t with nodes := (deleteWhere x.now (·.upstreamId == upstreamId) t.nodes).apply t.nodes }

lemma map_id_deleteNodes (id : Nat) (x : Stamp) :
    (deleteNodes id s x).nodes.map rowId = s.nodes.map rowId := by
  rw [deleteNodes, deleteWhere, RowWrite.apply, map_id_softDelete]

lemma loadNodes_deleteNodes_of_ne {id other : Nat} {x : Stamp} (hne : other ≠ id)
    (hadmitted : (deleteNodes id s x).Admitted backend) :
    (deleteNodes id s x).loadNodes other = s.loadNodes other := by
  have hids : (s.nodes.map rowId).Nodup := map_id_deleteNodes id x ▸ hadmitted.nodeIds
  refine SameExcept.select_eq (SameExcept.deleteWhere x.now hids fun _ => rfl) fun n hn => ?_
  rw [beq_iff_eq.mp hn]
  exact beq_false_of_ne hne

lemma softDelete_sameUpstreams_iff {id : Nat} {r : Result Unit}
    (h : backend.database.Executes (softDelete id) s xs r t) :
    s.SameUpstreams t ↔ xs = [] ∨ ∀ m ∈ live s.upstreams, m.id ≠ id := by
  obtain ⟨rfl, rfl⟩ | ⟨x, ys, rfl, hadmitted, h⟩ := executes_exec_bind h
  · exact iff_of_true .refl (.inl rfl)
  · have hselect : select (·.id == id) s.upstreams = [] ↔ ∀ m ∈ live s.upstreams, m.id ≠ id := by
      simp [select, filter_eq_nil_iff]
    have hkept : t.upstreams =
        (deleteWhere x.now (·.id == id) s.upstreams).apply s.upstreams := by
      obtain ⟨-, rfl⟩ | h := h
      · rfl
      · refine h.within (R := Tables.NodesOnly) ?_
        exact within_exec (fun _ t _ => show t.upstreams = _ from rfl) fun _ => trivial
    rw [or_iff_right (cons_ne_nil x ys), ← hselect]
    constructor
    · intro hsame
      refine (live_deleteWhere_iff x.now).mp fun m => ?_
      rw [← hkept]
      exact hsame.upstreams m
    · intro hnone
      have hfirst := deleteWhere_of_select_eq_nil hnone x.now
      refine ⟨fun m => by rw [hkept, hfirst], fun m hm n => ?_⟩
      -- there are no upstreams with this id, so its nodes do not count
      have hne := hselect.mp hnone m hm
      have hsame : t = { s with upstreams := t.upstreams } ∨ ∃ y,
          t = deleteNodes id { s with upstreams := t.upstreams } y ∧ t.Admitted backend := by
        obtain ⟨-, rfl⟩ | h := h
        · exact .inl rfl
        · obtain ⟨-, rfl⟩ | ⟨y, zs, -, hadmitted, ⟨-, rfl⟩ | ⟨-, -, rfl⟩⟩ := executes_exec_bind h
          · exact .inl rfl
          · exact .inr ⟨y, rfl, hadmitted⟩
          · exact .inr ⟨y, rfl, hadmitted⟩
      obtain heq | ⟨y, heq, hadmitted⟩ := hsame
      · rw [heq]
        rfl
      · rw [heq] at hadmitted ⊢
        rw [loadNodes_deleteNodes_of_ne hne hadmitted]
        rfl

lemma replaceNodes_cases {failed : String → ConrogateError} {id : Nat}
    {nodes : List CreateUpstreamNodeDto} {f : Unit → TableProgram α} (hf : ∀ a, (f a).ReadOnly)
    (h : backend.database.Executes (replaceNodes failed id nodes >>= f) s xs r t) :
    t.upstreams = s.upstreams ∧ ((xs = [] ∧ t.nodes = s.nodes) ∨ ∃ x ys, xs = x :: ys ∧
      ((ys = [] ∧ t.nodes = (deleteNodes id s x).nodes) ∨
        ys ≠ [] ∧ ∃ n ∈ t.loadNodes id, n ∉ s.nodes)) := by
  rw [replaceNodes, Program.bind_assoc] at h
  obtain ⟨rfl, rfl⟩ | ⟨x, ys, rfl, hadmitted, h⟩ := executes_exec_bind h
  · exact ⟨rfl, .inl ⟨rfl, rfl⟩⟩
  · obtain ⟨rfl, rfl⟩ | h := h
    · exact ⟨rfl, .inr ⟨x, [], rfl, .inl ⟨rfl, rfl⟩⟩⟩
    · -- what is inserted, whether or not `f` comes after it
      obtain ⟨r', hinsert⟩ : ∃ r', backend.database.Executes (insertNodes failed id nodes)
          (deleteNodes id s x) ys r' t := by
        obtain ⟨e, -, h⟩ | ⟨a, u, zs, zs', rfl, h, hlast⟩ := executes_bind_cases h
        · exact ⟨_, h⟩
        · obtain rfl := hlast.eq_nil_of_readOnly (hf a)
          obtain rfl := hlast.eq_of_nil
          rw [append_nil]
          exact ⟨_, h⟩
      refine ⟨hinsert.within (insertNodes_nodesOnly _ _ _), .inr ⟨x, ys, rfl, ?_⟩⟩
      by_cases hys : ys = []
      · subst hys
        exact .inl ⟨rfl, by rw [hinsert.eq_of_nil]⟩
      · obtain ⟨n, hn, hid⟩ := (insertNodes_nodes hinsert).2 hys
        refine .inr ⟨hys, n, hn, fun hmem => hid ?_⟩
        exact (map_id_deleteNodes id x).symm ▸ mem_map_of_mem hmem

section

variable {dto : UpdateUpstreamDto} {r : Result UpstreamDto}
  (h : backend.database.Executes (update dto) s xs r t)
include h

lemma update_cases :
    (xs = [] ∧ t = s) ∨ ∃ m x ys, selectOne (·.id == dto.id) s.upstreams = some m ∧
      xs = x :: ys ∧ (s.upstreams.map rowId).Nodup ∧
      t.upstreams = SoftTable.update m.id (dto.writeTo x.now) s.upstreams ∧
      ((ys = [] ∧ t.nodes = s.nodes) ∨ ∃ y zs, ys = y :: zs ∧
        ((zs = [] ∧ t.nodes = (deleteNodes m.id s y).nodes) ∨
          zs ≠ [] ∧ ∃ n ∈ t.loadNodes m.id, n ∉ s.nodes)) := by
  obtain h | h := executes_ask_bind h
  · exact .inl h
  · cases hm : selectOne (·.id == dto.id) s.upstreams with
    | none =>
      rw [hm] at h
      obtain ⟨rfl, -, rfl⟩ := h
      exact .inl ⟨rfl, rfl⟩
    | some m =>
      rw [hm] at h
      obtain h | ⟨x, ys, rfl, hadmitted, h⟩ := executes_exec_bind h
      · exact .inl h
      · have hids : (s.upstreams.map rowId).Nodup := by
          have hids : ((SoftTable.update m.id (dto.writeTo x.now) s.upstreams).map
            rowId).Nodup := hadmitted.upstreamIds
          rwa [map_update] at hids
          exact fun _ => rfl
        refine .inr ⟨m, x, ys, rfl, rfl, hids, ?_⟩
        obtain ⟨rfl, rfl⟩ | h := h
        · exact ⟨rfl, .inl ⟨rfl, rfl⟩⟩
        · cases hnodes : dto.nodes with
          | none =>
            simp only [hnodes] at h
            obtain rfl := h.eq_nil_of_readOnly (updated_readOnly _ _)
            obtain rfl := h.eq_of_nil
            exact ⟨rfl, .inl ⟨rfl, rfl⟩⟩
          | some nodes =>
            simp only [hnodes] at h
            exact replaceNodes_cases (fun _ => updated_readOnly _ _) h

lemma update_sameUpstreams_iff :
    s.SameUpstreams t ↔ dto.Unchanging s xs := by
  obtain ⟨rfl, rfl⟩ | ⟨m, x, ys, hm, rfl, hids, hupstreams, hnodes⟩ := update_cases h
  · exact iff_of_true .refl trivial
  · obtain ⟨hlive, hid⟩ := mem_of_selectOne hm
    have hid : m.id = dto.id := beq_iff_eq.mp hid
    have hrow : (∀ m', m' ∈ live t.upstreams ↔ m' ∈ live s.upstreams) ↔
        dto.RowUnchanged s x.now := by
      rw [hupstreams, UpdateUpstreamDto.RowUnchanged, hm]
      refine (live_update_iff hids hlive).trans ⟨?_, fun h => h m rfl⟩
      rintro h m' ⟨⟩
      exact h
    obtain ⟨rfl, hsame⟩ | ⟨y, zs, rfl, ⟨rfl, hdeleted⟩ | ⟨hzs, n, hn, hnew⟩⟩ := hnodes
    · -- only the row was written
      refine ⟨fun h => hrow.mp h.upstreams, fun h => ⟨hrow.mpr h, fun m' _ n => ?_⟩⟩
      rw [Tables.loadNodes, hsame]
      rfl
    · -- the nodes were deleted
      have hgone : t.loadNodes m.id = [] := by
        rw [Tables.loadNodes, hdeleted]
        exact select_deleteWhere y.now (·.upstreamId == m.id) s.nodes
      constructor
      · intro h
        refine ⟨hrow.mp h.upstreams, eq_nil_iff_forall_not_mem.mpr fun n hn => ?_⟩
        rw [← hid, ← h.nodes m hlive, hgone] at hn
        cases hn
      · rintro ⟨hunchanged, hnone⟩
        refine ⟨hrow.mpr hunchanged, fun m' _ n => ?_⟩
        rw [← hid] at hnone
        have hsame : t.nodes = s.nodes := hdeleted.trans (deleteWhere_of_select_eq_nil hnone y.now)
        rw [Tables.loadNodes, hsame]
        rfl
    · -- a node was inserted
      have hnot : ¬ dto.Unchanging s (x :: y :: zs) := by
        cases zs with
        | nil => exact absurd rfl hzs
        | cons z zs => exact id
      refine iff_of_false (fun h => hnew ?_) hnot
      exact (mem_live.mp (mem_filter.mp ((h.nodes m hlive n).mp hn)).1).1

end

/-- When a call has failed, the upstreams and nodes are as before exactly if it has not come to its
first write, or its writes have had nothing to change. -/
theorem failed_sameUpstreams_iff (backend : DatabaseBackend) (s t : Tables) (xs : List Stamp)
    (e : ConrogateError) :
    (∀ dto, backend.database.Executes (create dto) s xs (.error e) t →
      (s.SameUpstreams t ↔ xs = [])) ∧
    (∀ dto, backend.database.Executes (update dto) s xs (.error e) t →
      (s.SameUpstreams t ↔ dto.Unchanging s xs)) ∧
    ∀ id, backend.database.Executes (softDelete id) s xs (.error e) t →
      (s.SameUpstreams t ↔ xs = [] ∨ ∀ m ∈ live s.upstreams, m.id ≠ id) :=
  ⟨fun _ => create_sameUpstreams_iff, fun _ => update_sameUpstreams_iff,
    fun _ => softDelete_sameUpstreams_iff⟩

def users : CreateUpstreamDto := ⟨"users", .roundRobin, none, [⟨"10.0.0.1:80", none, none⟩]⟩

def usersTables : Tables :=
  ⟨[], [users.toRow 0 1], users.nodes.map fun n => n.toRow 0 1 1, []⟩

theorem failed_sameUpstreams_early :
    let database := sqlite.database
    let s := usersTables
    database.Executes (create users) s [] (.error (.dataMapping "reset")) s ∧
    database.Executes (update ⟨1, none, none, none, some []⟩) s [⟨0, 0⟩]
      (.error .databaseInternal) s ∧
    database.Executes (softDelete 2) s [⟨5, 0⟩] (.error .databaseInternal) s ∧
    (s.SameUpstreams s ∧ s.SameUpstreams s ∧ s.SameUpstreams s) := by
  intro database s
  have hcreate : database.Executes (create users) s [] (.error (.dataMapping "reset")) s :=
    .inr ⟨"reset", rfl, rfl, rfl⟩
  have hupdate : database.Executes (update ⟨1, none, none, none, some []⟩) s [⟨0, 0⟩]
      (.error .databaseInternal) s :=
    .inl (.inl ⟨_, _, [], rfl, write_eq_some.mpr ⟨by decide, rfl⟩, .inl (.inr ⟨"", rfl, rfl, rfl⟩)⟩)
  have hdelete : database.Executes (softDelete 2) s [⟨5, 0⟩] (.error .databaseInternal) s :=
    .inl ⟨_, _, [], rfl, write_eq_some.mpr ⟨by decide, rfl⟩, .inl (.inr ⟨"", rfl, rfl, rfl⟩)⟩
  refine ⟨hcreate, hupdate, hdelete, ?_, ?_, ?_⟩
  · exact ((failed_sameUpstreams_iff .sqlite _ _ _ _).1 _ hcreate).mpr rfl
  · refine ((failed_sameUpstreams_iff .sqlite _ _ _ _).2.1 _ hupdate).mpr ?_
    rintro m ⟨⟩
    rfl
  · exact ((failed_sameUpstreams_iff .sqlite _ _ _ _).2.2 2 hdelete).mpr (.inr (by decide))

/-- The insert of the node fails: the upstream is there without it, and a delete whose second
statement fails leaves the node without the upstream. -/
theorem failed_create_leaves_upstream :
    let database := sqlite.database
    (∃ t, database.Runs (create users) .empty (.error (.dataMapping "reset")) t ∧
      live t.upstreams = [users.toRow 5 1] ∧ t.nodes = []) ∧
    ∃ t, database.Runs (softDelete 1) usersTables (.error .databaseInternal) t ∧
      live usersTables.upstreams = [users.toRow 0 1] ∧ live t.upstreams = [] ∧
      t.nodes = usersTables.nodes := by
  constructor
  · exact ⟨{ Tables.empty with upstreams := [users.toRow 5 1] },
      ⟨[⟨5, 1⟩], .inl ⟨_, _, [], rfl, write_eq_some.mpr ⟨by decide, rfl⟩,
        .inl (.inr ⟨"reset", rfl, rfl, rfl⟩)⟩⟩, rfl, rfl⟩
  · exact ⟨{ usersTables with upstreams := [{ users.toRow 0 1 with deletedAt := some 5 }] },
      ⟨[⟨5, 0⟩], .inl ⟨_, _, [], rfl, write_eq_some.mpr ⟨by decide, rfl⟩,
        .inl (.inr ⟨"reset", rfl, rfl, rfl⟩)⟩⟩, rfl, rfl, rfl⟩

end UpstreamRepoImpl

end Conrogate
