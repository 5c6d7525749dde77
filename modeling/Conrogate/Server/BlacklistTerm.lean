import Conrogate.Security.Blacklist

/-!
# The term of a blacklist entry

`create_ip_blacklist` casts the seconds to an `i64` and adds them to the time. Beyond the range of
the types the sum panics, or lies in the past.
-/

namespace Conrogate

variable {Net : Type} (net : IpNetCrate Net)

open BlacklistMatcher ControlProgram Option

/-- What the database answers to the statements of `upsert` for a text; `none` or an error where
one fails. -/
structure BlacklistAnswers (ipOrCidr : String) where
  found : Option (Option IpBlacklistDto)
  fits : ∀ row, found = some (some row) → row.ipOrCidr = ipOrCidr
  saved : Except String Nat

inductive CreateOutcome where
  | panicked
  | rejected (e : ConrogateError)
  | stored (entry : IpBlacklistDto)

/-- `IpBlacklistRepoImpl::upsert`, with the time that it reads. -/
def upsertEntry (now : Time) (operator : Option String) (dto : CreateIpBlacklistDto)
    (db : BlacklistAnswers dto.ipOrCidr) : CreateOutcome :=
  match expiresAt now dto.expiresInSeconds, db.found, db.saved with
  | none, _, _ => .panicked
  | some _, none, _ => .rejected .databaseInternal
  | some _, some (some _), .error _ => .rejected .databaseInternal
  | some expires, some (some row), .ok _ =>
    .stored { row with reason := dto.reason, expiresAt := expires }
  | some _, some none, .error message => .rejected (.dataMapping message)
  | some expires, some none, .ok id =>
    .stored ⟨id, dto.ipOrCidr, dto.reason, expires, operator, now⟩

/-- `create_ip_blacklist`. -/
def createEntry (now : Time) (operator : Option String) (dto : CreateIpBlacklistDto)
    (db : ∀ ipOrCidr, BlacklistAnswers ipOrCidr) : CreateOutcome :=
  match checkIpBlacklist net dto with
  | .error e => .rejected e
  | .ok dto  => upsertEntry now operator dto (db dto.ipOrCidr)

/-! ### What the statements store -/

section Statements

open Database

variable {backend : DatabaseBackend} {s t : ControlPlane}

lemma of_writeBlacklist {secs : Option Nat} {failed : String → ConrogateError}
    {set : Stamp → Option Time → List IpBlacklistRow → List IpBlacklistRow} {x : Stamp}
    (h : backend.controlPlane.Runs (writeBlacklist secs failed set) s (.ok x) t) :
    ∃ expires, expiresAt x.now secs = some expires ∧ t.blacklist = set x expires s.blacklist := by
  obtain ⟨y, u, ⟨_, hexec⟩, _, hpure⟩ := runs_bind_ok.mp h
  obtain ⟨_, _, _, -, hwrite, (⟨-, hy, rfl⟩ | ⟨_, -, ⟨⟩, -⟩)⟩ | ⟨_, -, ⟨⟩, -⟩ := hexec
  cases hy
  split_ifs at hpure with hnone
  · obtain ⟨-, ⟨⟩, -⟩ := hpure
  · obtain ⟨-, hx, rfl⟩ := hpure
    cases hx
    obtain ⟨expires, hexpires⟩ := Option.ne_none_iff_exists'.mp (by simpa using hnone)
    obtain ⟨-, rfl⟩ := write_eq_some.mp hwrite
    exact ⟨expires, hexpires, by simp [DatabaseBackend.controlPlane, hexpires]⟩

/-- What `upsert` stores, statement by statement, is what `upsertEntry` says. -/
theorem stored_of_upsertBlacklist {caller : Caller} {dto : CreateIpBlacklistDto} {id : Nat}
    (h : backend.controlPlane.Runs (upsertBlacklist caller dto) s (.ok id) t) :
    ∃ now db, ∃ row ∈ t.blacklist, ∃ entry, row.toDto = some entry ∧ entry.id = id ∧
      upsertEntry now (some caller.operator) dto db = .stored entry := by
  obtain ⟨found, u, ⟨_, (⟨-, hfound, rfl⟩ | ⟨-, ⟨⟩, -⟩)⟩, hrest⟩ := runs_bind_ok.mp h
  cases hfound
  split at hrest
  · rename_i m hm
    obtain ⟨x, v, hwrite, _, -, hid, rfl⟩ := runs_bind_ok.mp hrest
    cases hid
    obtain ⟨expires, hexpires, hrows⟩ := of_writeBlacklist hwrite
    have htext : m.ipOrCidr = dto.ipOrCidr := by simpa using List.find?_some hm
    refine ⟨x.now, ⟨some m.toDto, ?_, .ok 0⟩, { m with reason := dto.reason, expiresAt := expires },
      ?_, _, rfl, rfl, by rw [upsertEntry, hexpires]; rfl⟩
    · rintro row ⟨⟩
      exact htext
    · rw [hrows]
      exact List.mem_map.mpr ⟨m, List.mem_of_find?_eq_some hm, if_pos (beq_self_eq_true _)⟩
  · obtain ⟨x, v, hwrite, _, -, hid, rfl⟩ := runs_bind_ok.mp hrest
    cases hid
    obtain ⟨expires, hexpires, hrows⟩ := of_writeBlacklist hwrite
    refine ⟨x.now, ⟨some none, nofun, .ok x.id⟩,
      ⟨x.id, dto.ipOrCidr, dto.reason, expires, some caller.operator, x.now⟩, ?_, _, rfl, rfl,
      by rw [upsertEntry, hexpires]⟩
    rw [hrows]
    exact List.mem_append_right _ (List.mem_singleton.mpr rfl)

end Statements

/-- Nothing panics. A stored entry expires that many seconds later, and until then it blocks its
network after every reload of a list that has it. -/
def KeepsTerm (now : Time) (secs : Nat) (n : Net) : CreateOutcome → Prop
  | .panicked => False
  | .rejected _ => True
  | .stored entry => entry.expiresAt = some (now + secs * 1000) ∧
    ∀ dtos, entry ∈ dtos → ∀ t < now + secs * 1000, ∀ ip a,
      parseIpAddr (trim ip.toList) = some a → net.containsAddr n a = true →
        isBlocked net (reload net t dtos) ip t = true

/-- There is no such row, and a new one is inserted. -/
def insertedAnswers (ipOrCidr : String) : BlacklistAnswers ipOrCidr := ⟨some none, nofun, .ok 1⟩

lemma addSeconds_eq_some {now secs : Nat} (h : now + secs * 1000 ≤ maxTime) :
    addSeconds now secs = some (now + secs * 1000) := by
  have hmax : now + secs * 1000 ≤ 16544868105599999 := h
  have hsecs : secs < 2 ^ 63 := by omega
  have hsum : (now : Int) + secs * 1000 = (now + secs * 1000 : Nat) := by omega
  simp only [addSeconds, if_pos hsecs, hsum, Int.toNat_natCast]
  exact if_pos ⟨by omega, by omega, by omega, Int.ofNat_le.mpr h⟩

lemma le_of_addSeconds {now t secs : Nat} (h : addSeconds now secs = some t) : t ≤ maxTime := by
  simp only [addSeconds, ite_none_right_eq_some, some.injEq] at h
  obtain ⟨⟨-, -, -, hle⟩, rfl⟩ := h
  exact Int.toNat_le.mpr hle

lemma isBlocked_reload {dtos : List IpBlacklistDto} {d : IpBlacklistDto} {t exp : Time} {n : Net}
    {ip : String} {a : IpAddr} (hd : d ∈ dtos) (hn : parseIpOrCidr net d.ipOrCidr.toList = some n)
    (hexp : d.expiresAt = some exp) (ht : t < exp) (hip : parseIpAddr (trim ip.toList) = some a)
    (ha : net.containsAddr n a = true) : isBlocked net (reload net t dtos) ip t = true := by
  have hscan : scan net (reload net t dtos) a t = true := by
    refine (scan_reload_iff net t t dtos a).mpr ⟨d, hd, n, hn, fun e he => ?_, ha⟩
    rwa [max_self, ← some.inj (hexp.symm.trans he)]
  rw [isBlocked, hip, any_some, hscan]
  refine if_neg fun hempty => ?_
  rw [List.isEmpty_iff.mp hempty] at hscan
  cases hscan

end Conrogate
