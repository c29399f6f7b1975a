import PagedStore.Proofs.Cache.Idle
import PagedStore.Proofs.Database.Quiet

/-! A transaction that is alone with a database whose cached pages are clean: it gets every page that can be
read. -/
namespace PagedStore.Database

/-- Whether nobody but one transaction has locks, and the cache is idle and of some size. -/
structure Alone (txn : TxnId) (db : Database) : Prop where
  idle : db.cache.Idle
  room : 0 < db.cache.capacity
  unlocked : ∀ {other : TxnId}, other ≠ txn → ∀ page, db.locks.mode? other page = none

section Fetch
variable {txn : TxnId} {db : Database} (h : db.Alone txn)
include h

theorem Alone.granted (page : PageId) (mode : LockMode) : (db.locks.request txn page mode).1 = true := by
  rcases db.locks.request_cases txn page mode with ⟨-, -, -, he⟩ | ⟨-, -, he⟩ | ⟨blocked, -⟩
  · rw [he]
  · rw [he]
  · refine absurd (Locks.blockers_eq_nil_iff.mpr fun other mode held different => ?_) blocked
    rw [h.unlocked different] at held
    cases held

/-- A transaction that is alone gets every page that can be read. -/
theorem Alone.fetch {page : PageId} {p : Page} (loaded : db.load page = .ok p) (access : Access) :
    (∃ frame, (db.fetch txn page access).1 = .ok frame) ∧ (db.fetch txn page access).2.Alone txn := by
  have unlocked {other : TxnId} (different : other ≠ txn) (place : PageId) :
      (db.fetch txn page access).2.locks.mode? other place = none :=
    ((db.onward_fetch txn page access).others different place).trans (h.unlocked different place)
  rcases db.fetch_cases txn page access with
    ⟨denied, -⟩ | ⟨-, ⟨frame, cached, he⟩ | ⟨-, ⟨fault, failed, -⟩ | ⟨content, read, he⟩⟩⟩
  · cases (h.granted page access.mode).symm.trans denied
  · rw [he] at unlocked ⊢
    refine ⟨⟨frame, rfl⟩, h.idle.access ?_, h.room, unlocked⟩
    rw [Std.ExtTreeMap.mem_iff_isSome_getElem?, cached]
    rfl
  · cases loaded.symm.trans failed
  · rw [he] at unlocked ⊢
    obtain ⟨brought, idle, capacity⟩ := h.idle.bringIn h.room (shown_of_load read).2
    exact ⟨brought, idle, capacity ▸ h.room, unlocked⟩

end Fetch

/-- Whether a transaction is alone, and each cached page is as it is in its file. -/
structure Undisturbed (txn : TxnId) (db : Database) : Prop extends Alone txn db where
  faithful : ∀ {page : PageId} {frame : Frame}, db.cache.frames[page]? = some frame →
    db.load page = .ok frame.page

namespace Undisturbed
variable {txn : TxnId} {db : Database} (h : db.Undisturbed txn)
include h

theorem fetch {page : PageId} {p : Page} (loaded : db.load page = .ok p) (access : Access) :
    ∃ frame mid, db.fetch txn page access = (.ok frame, mid) ∧ frame.page = p ∧ mid.Undisturbed txn ∧
      mid.volume = db.volume ∧ mid.catalog = db.catalog := by
  obtain ⟨⟨frame, got⟩, alone⟩ := h.toAlone.fetch loaded access
  refine ⟨frame, (db.fetch txn page access).2, Prod.ext got rfl, ?_, ⟨alone, fun {other held} cached => ?_⟩,
    db.volume_fetch txn page access, db.catalog_fetch txn page access⟩
  · rcases (fetch_eq_ok (Prod.ext got rfl)).2.2 with cached | ⟨-, read⟩
    · cases loaded.symm.trans (h.faithful cached)
      rfl
    · cases loaded.symm.trans read
      rfl
  · rcases (db.quiet_fetch txn page access).frames other with same | ⟨-, read⟩
    · rw [load_fetch]
      exact h.faithful (same ▸ cached)
    · exact read held cached

theorem releasePage (page : PageId) : (db.releasePage txn page).Undisturbed txn where
  idle := h.idle
  room := h.room
  unlocked {other} different place := by
    rw [Database.releasePage, Locks.mode?_release, if_neg fun same => different same.1]
    exact h.unlocked different place
  faithful := h.faithful

end Undisturbed

end PagedStore.Database
