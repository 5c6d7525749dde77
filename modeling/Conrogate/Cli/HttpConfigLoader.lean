import Conrogate.Server.ControlPlane
import Conrogate.Storage.Pagination

/-!
# Loading the configuration over HTTP

`HttpConfigLoader` asks for one page of a list after the other, until it has as many entries as the
control plane has counted, or gets none.
-/

namespace Conrogate

open Paging List

/-! ### The list of the blacklist -/

structure IpBlacklistDto where
  id : Nat
  ipOrCidr : String
  reason : Option String
  expiresAt : Option Time
  createdBy : Option String
  createdAt : Time

def IpBlacklistRow.toDto (m : IpBlacklistRow) : Option IpBlacklistDto :=
  some
    { id := m.id
      ipOrCidr := m.ipOrCidr
      reason := m.reason
      expiresAt := m.expiresAt
      createdBy := m.createdBy
      createdAt := m.createdAt }

def saturatingOffset (page pageSize : UInt32) : UInt64 :=
  (if page < 1 then 0 else page - 1).toUInt64 * pageSize.toUInt64

def IpBlacklistRepoImpl.listPaginated (counted selected : Option (List IpBlacklistRow))
    (page pageSize : UInt32) : Result (PaginatedResult IpBlacklistDto) :=
  let pageSize := clampPageSize pageSize
  match counted, selected with
  | some all, some answer =>
    let models := (answer.drop (saturatingOffset page pageSize).toNat).take pageSize.toNat
    .ok ⟨models.filterMap IpBlacklistRow.toDto, all.length, page, pageSize⟩
  | _, _ => .error .databaseInternal

inductive PageData (δ : Type) where
  | object (list : Option (Except String (List δ))) (total : Option Nat)
  | array (items : Except String (List δ))
  | other

namespace PageData

variable {δ : Type}

def list : PageData δ → Option (Except String (List δ))
  | .object list _ => list
  | .array items => some items
  | .other => none

def total : PageData δ → Nat
  | .object _ total => total.getD 0
  | .array _ => 0
  | .other => 0

end PageData

structure PageJson (δ : Type) where
  msg : Option String
  data : Option (PageData δ)

/-- What the loader gets for the request of a page. -/
inductive PageReply (δ : Type) where
  | requestFailed (e : String)
  | bodyFailed (e : String)
  | notJson (e : String)
  | json (status : Nat) (reason : String) (body : PageJson δ)

section Response

variable {δ : Type}

def respond : Result (PaginatedResult δ) → PageReply δ
  | .ok r    => .json 200 "OK" ⟨some "success", some (.object (some (.ok r.list)) (some r.total))⟩
  | .error e =>
    let body := ⟨some (if e.isInternal then "internal error" else e.display), some .other⟩
    if e = .unauthorized then .json 401 "Unauthorized" body
    else if e.isInternal then .json 500 "Internal Server Error" body
    else .json 200 "OK" body

inductive Answered : Option (Result (PaginatedResult δ)) → PageReply δ → Prop
  | responded (r : Result (PaginatedResult δ)) : Answered (some r) (respond r)
  | panicked (e : String) : Answered none (.requestFailed e)

def replyTo : Option (Result (PaginatedResult δ)) → PageReply δ
  | some r => respond r
  | none   => .requestFailed "connection closed before message completed"

lemma answered_replyTo (result : Option (Result (PaginatedResult δ))) :
    Answered result (replyTo result) := by
  cases result with
  | none => exact .panicked _
  | some r => exact .responded r

end Response

def BuildProfile.add : BuildProfile → UInt32 → UInt32 → Option UInt32
  | .debug, a, b   => if a.toNat + b.toNat < 2 ^ 32 then some (a + b) else none
  | .release, a, b => some (a + b)

inductive LoadEnd (δ : Type) where
  | returned (result : Result (List δ))
  | panicked

namespace HttpConfigLoader

section Loop

variable {δ : Type}

def getJson : PageReply δ → Result (PageJson δ)
  | .requestFailed e => .error (.configLoad s!"HTTP request failed: {e}")
  | .bodyFailed e => .error (.configLoad s!"body read failed: {e}")
  | .notJson e => .error (.configLoad s!"JSON parse failed: {e}")
  | .json status reason body =>
    if 200 ≤ status ∧ status < 300 then .ok body
    else
      let msg := body.msg.getD "unknown"
      .error (.configLoad s!"control API returned {status} {reason}: {msg}")

def loadPage (what : String) (all : List δ) (reply : PageReply δ) :
    Result (List δ × Bool) := do
  let json ← getJson reply
  match json.data with
  | none => .error (.configLoad "missing data field")
  | some data => match data.list with
    | none => .error (.configLoad "missing list field")
    | some (.error e) => .error (.configLoad s!"{what} deserialize failed: {e}")
    | some (.ok batch) =>
      let all := all ++ batch
      .ok (all, decide (data.total ≤ all.length) || all.isEmpty)

def loadPages (build : BuildProfile) (what : String) (control : Nat → UInt32 → PageReply δ) :
    Nat → Nat → List δ → UInt32 → Option (LoadEnd δ)
  | 0, _, _, _ => none
  | turns + 1, i, all, page => match loadPage what all (control i page) with
    | .error e => some (.returned (.error e))
    | .ok (all, true) => some (.returned (.ok all))
    | .ok (all, false) => match build.add page 1 with
      | none => some .panicked
      | some page => loadPages build what control turns (i + 1) all page

end Loop

variable (build : BuildProfile)

def loadRoutes (control : Nat → UInt32 → PageReply RouteDto) (turns : Nat) :
    Option (LoadEnd RouteDto) :=
  loadPages build "route" control turns 0 [] 1

def loadUpstreams (control : Nat → UInt32 → PageReply UpstreamDto) (turns : Nat) :
    Option (LoadEnd UpstreamDto) :=
  loadPages build "upstream" control turns 0 [] 1

def loadBlacklist (control : Nat → UInt32 → PageReply IpBlacklistDto) (turns : Nat) :
    Option (LoadEnd IpBlacklistDto) :=
  loadPages build "ip_blacklist" control turns 0 [] 1

end HttpConfigLoader

open HttpConfigLoader

namespace PageReply

variable {δ : Type} {reply : PageReply δ} {what : String} {all list : List δ} {total : Nat}

def Refused (reply : PageReply δ) : Prop :=
  ∀ what all, ∃ e, loadPage what all reply = .error e

def Shows (reply : PageReply δ) (list : List δ) (total : Nat) : Prop :=
  ∃ page pageSize, reply = respond (.ok ⟨list, total, page, pageSize⟩)

lemma refused_of_error (e : ConrogateError) : (respond (δ := δ) (.error e)).Refused := by
  intro what all
  rw [respond]
  split_ifs <;> exact ⟨_, rfl⟩

lemma Shows.loadPage_eq (h : reply.Shows list total) (what : String) (all : List δ) :
    loadPage what all reply =
      .ok (all ++ list, decide (total ≤ (all ++ list).length) || (all ++ list).isEmpty) := by
  obtain ⟨page, pageSize, rfl⟩ := h
  rfl

end PageReply

lemma Answered.refused_or {δ : Type} {reply : PageReply δ}
    {result : Option (Result (PaginatedResult δ))} (h : Answered result reply) :
    reply.Refused ∨ ∃ r, result = some (.ok r) ∧ reply.Shows r.list r.total := by
  cases h with
  | responded r =>
    cases r with
    | error e => exact .inl (PageReply.refused_of_error e)
    | ok r => exact .inr ⟨r, rfl, r.page, r.pageSize, rfl⟩
  | panicked e => exact .inl fun _ _ => ⟨_, rfl⟩

lemma Answered.shows {δ : Type} {reply : PageReply δ} {r : PaginatedResult δ}
    (h : Answered (some (.ok r)) reply) : reply.Shows r.list r.total := by
  cases h with
  | responded => exact ⟨r.page, r.pageSize, rfl⟩

namespace HttpConfigLoader

variable {δ : Type} {build : BuildProfile} {what : String} {control : Nat → UInt32 → PageReply δ}
  {i turns : Nat} {all list : List δ} {page : UInt32}

lemma add_one_of_lt (hi : i + 2 < 2 ^ 32) :
    build.add (.ofNat (i + 1)) 1 = some (.ofNat (i + 2)) := by
  have hnext : UInt32.ofNat (i + 1) + 1 = .ofNat (i + 2) := (UInt32.ofNat_add (i + 1) 1).symm
  cases build with
  | debug =>
    have hlt : i + 1 < 2 ^ 32 := by omega
    have hpage : (UInt32.ofNat (i + 1)).toNat = i + 1 := UInt32.toNat_ofNat_of_lt' hlt
    have hsum : i + 1 + (1 : UInt32).toNat < 2 ^ 32 := hi
    rw [BuildProfile.add, hpage, if_pos hsum, hnext]
  | release => rw [BuildProfile.add, hnext]

lemma isSome_of_refused (h : (control i page).Refused) :
    (loadPages build what control (turns + 1) i all page).isSome := by
  obtain ⟨e, he⟩ := h what all
  rw [loadPages, he]
  rfl

lemma loadPages_of_shows {total : Nat} (h : (control i (.ofNat (i + 1))).Shows list total)
    (hi : i + 2 < 2 ^ 32) :
    loadPages build what control (turns + 1) i all (.ofNat (i + 1)) =
      if total ≤ (all ++ list).length ∨ all ++ list = [] then some (.returned (.ok (all ++ list)))
      else loadPages build what control turns (i + 1) (all ++ list) (.ofNat (i + 2)) := by
  rw [loadPages, h.loadPage_eq]
  by_cases hbreak : total ≤ (all ++ list).length ∨ all ++ list = []
  · have hbool : (decide (total ≤ (all ++ list).length) || (all ++ list).isEmpty) = true := by
      simpa using hbreak
    rw [if_pos hbreak, hbool]
  · have hbool : (decide (total ≤ (all ++ list).length) || (all ++ list).isEmpty) = false := by
      simpa using hbreak
    rw [if_neg hbreak, hbool]
    simp only [add_one_of_lt hi]

lemma exists_last_turn {result : List δ}
    (h : loadPages build what control turns i all page = some (.returned (.ok result))) :
    ∃ j page' all', loadPage what all' (control j page') = .ok (result, true) := by
  induction turns generalizing i all page with
  | zero => cases h
  | succ turns ih =>
    rw [loadPages] at h
    split at h
    · cases h
    · next all' hpage =>
      cases h
      exact ⟨i, page, all, hpage⟩
    · split at h
      · cases h
      · exact ih h

/-- Rows only leave between the count and the select and between pages. -/
structure Shrinking (counted selected : Nat → Nat) : Prop where
  selected_le : ∀ i, selected i ≤ counted i
  counted_le : ∀ i, counted (i + 1) ≤ selected i

lemma Shrinking.le_start {counted selected : Nat → Nat} (h : Shrinking counted selected) (i : Nat) :
    counted i ≤ counted 0 := by
  induction i with
  | zero => exact le_rfl
  | succ i ih => exact ((h.counted_le i).trans (h.selected_le i)).trans ih

def Progress (counted : Nat → Nat) (i : Nat) (all : List δ) : Prop :=
  all.length = i * 200 ∧ i * 200 ≤ counted 0 ∨
  counted i ≤ all.length ∧ i * 200 ≤ counted 0 + 200

lemma progress_start {counted : Nat → Nat} : Progress counted 0 ([] : List δ) :=
  .inl ⟨by simp, by simp⟩

section

variable {counted selected : Nat → Nat} (hnumbers : Shrinking counted selected)
include hnumbers

lemma Progress.step (h : Progress counted i all)
    (hlist : list.length = min 200 (selected i - i * 200))
    (hmore : (all ++ list).length < counted i) : Progress counted (i + 1) (all ++ list) := by
  have hstart := hnumbers.le_start i
  have hnext := hnumbers.counted_le i
  rw [Progress, length_append] at *
  omega

lemma isSome_loadPages (hfew : counted 0 / 200 + 3 < 2 ^ 32)
    (hpages : ∀ i < counted 0 / 200 + 2, (control i (.ofNat (i + 1))).Refused ∨ ∃ list,
      (control i (.ofNat (i + 1))).Shows list (counted i) ∧
        list.length = min 200 (selected i - i * 200))
    (hprogress : Progress counted i all) (hturns : i + turns = counted 0 / 200 + 2) :
    (loadPages build what control turns i all (.ofNat (i + 1))).isSome := by
  induction turns generalizing i all with
  | zero =>
    rw [Progress] at hprogress
    omega
  | succ turns ih =>
    obtain hrefused | ⟨list, hshows, hlist⟩ := hpages i (by omega)
    · exact isSome_of_refused hrefused
    · rw [loadPages_of_shows hshows (by omega)]
      split
      · rfl
      · next hmore =>
        rw [not_or, not_le] at hmore
        exact ih (hprogress.step hnumbers hlist hmore.1) (by omega)

end

lemma loadPages_eq_of_full {ρ : Type} {f : ρ → Option δ} {answer : List ρ}
    (hconv : ∀ m ∈ answer, (f m).isSome) (hfew : answer.length / 200 + 3 < 2 ^ 32)
    (hpages : ∀ i < answer.length / 200 + 2,
      (control i (.ofNat (i + 1))).Shows ((window 200 i answer).filterMap f) answer.length)
    (hall : all = (answer.take (i * 200)).filterMap f)
    (hturns : i + turns = answer.length / 200 + 2) (hi : i * 200 ≤ answer.length) :
    loadPages build what control turns i all (.ofNat (i + 1)) =
      some (.returned (.ok (answer.filterMap f))) := by
  induction turns generalizing i all with
  | zero => omega
  | succ turns ih =>
    have hnext : all ++ (window 200 i answer).filterMap f =
        (answer.take ((i + 1) * 200)).filterMap f := by
      rw [hall, ← filterMap_append, take_append_window]
    have hlength : ((answer.take ((i + 1) * 200)).filterMap f).length =
        min ((i + 1) * 200) answer.length := by
      rw [filterMap_length_eq_length.mpr fun m hm => hconv m (mem_of_mem_take hm),
        length_take]
    rw [loadPages_of_shows (hpages i (by omega)) (by omega), hnext]
    split
    · next hbreak =>
      rw [← length_eq_zero_iff, hlength] at hbreak
      rw [take_of_length_le (by omega)]
    · next hmore =>
      rw [hlength] at hmore
      exact ih rfl (by omega) (by omega)

lemma loadPages_eq_of_empty {total : Nat} (h : (control 0 1).Shows [] total) (turns : Nat) :
    loadPages build what control (turns + 1) 0 [] 1 = some (.returned (.ok [])) :=
  (loadPages_of_shows h (by decide)).trans (if_pos (.inr rfl))

end HttpConfigLoader

end Conrogate
