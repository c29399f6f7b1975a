import PagedStore.Database
import PagedStore.Proofs.Cache
import PagedStore.Proofs.Locks
import PagedStore.Proofs.Table

/-! Everything that fetching a page can come to. -/
namespace PagedStore

def Cache.Keyed (c : Cache) : Prop :=
  ∀ ⦃id : PageId⦄ ⦃frame : Frame⦄, c.frames[id]? = some frame → frame.page.id = id

namespace Database

theorem load_eq_ok_iff {db : Database} {page : PageId} {p : Page} : db.load page = .ok p ↔
    ∃ table, db.catalog.table page.table = .ok table ∧ table.load db.volume page = .ok p := by
  rw [load]
  cases db.catalog.table page.table <;> simp

/-- A page that was read has its own name and is clean. -/
theorem shown_of_load {db : Database} {page : PageId} {p : Page} (h : db.load page = .ok p) :
    p.id = page ∧ p.changedBy = none := by
  obtain ⟨table, -, loaded⟩ := load_eq_ok_iff.mp h
  obtain ⟨-, shown⟩ := table.shown_of_load loaded
  exact ⟨shown.id_eq, shown.clean⟩

/-- A lock is taken, or the wait for it is given up. -/
theorem lock_cases (db : Database) (txn : TxnId) (page : PageId) (mode : LockMode) :
    ((db.locks.request txn page mode).1 = true ∧ db.lock txn page mode =
      (.ok (), { db with locks := (db.locks.request txn page mode).2 })) ∨
    ((db.locks.request txn page mode).1 = false ∧ ∃ fault, fault.abortsTransaction ∧
      db.lock txn page mode = (.error fault,
        { db with locks := (db.locks.request txn page mode).2.stopWaiting txn })) := by
  rw [lock, tryLock]
  cases he : db.locks.request txn page mode with
  | mk granted locks =>
    cases granted
    · refine .inr ⟨rfl, _, ?_, rfl⟩
      split <;> rfl
    · exact .inl ⟨rfl, rfl⟩

/-- A page for which the lock is granted is provided. -/
theorem fetch_of_granted {db : Database} {txn : TxnId} {page : PageId} {access : Access}
    (granted : (db.locks.request txn page access.mode).1 = true) : db.fetch txn page access =
      provide { db with locks := (db.locks.request txn page access.mode).2 } page := by
  rcases db.lock_cases txn page access.mode with ⟨-, he⟩ | ⟨denied, -⟩
  · rw [fetch, he]
  · cases granted.symm.trans denied

/-- A fetch is denied the lock, finds the page in the cache, cannot read it, or brings it in. -/
theorem fetch_cases (db : Database) (txn : TxnId) (page : PageId) (access : Access) :
    ((db.locks.request txn page access.mode).1 = false ∧ ∃ fault, fault.abortsTransaction ∧
      db.fetch txn page access = (.error fault,
        { db with locks := (db.locks.request txn page access.mode).2.stopWaiting txn })) ∨
    (db.locks.request txn page access.mode).1 = true ∧
      ((∃ frame, db.cache.frames[page]? = some frame ∧ db.fetch txn page access = (.ok frame,
        { db with
          locks := (db.locks.request txn page access.mode).2
          cache := db.cache.access page })) ∨
      db.cache.frames[page]? = none ∧
        ((∃ fault, db.load page = .error fault ∧ db.fetch txn page access = (.error fault,
          { db with locks := (db.locks.request txn page access.mode).2 })) ∨
        ∃ content, db.load page = .ok content ∧ db.fetch txn page access =
          ((db.cache.bringIn content).1, { db with
            locks := (db.locks.request txn page access.mode).2
            cache := (db.cache.bringIn content).2 }))) := by
  rcases db.lock_cases txn page access.mode with ⟨granted, he⟩ | ⟨denied, fault, aborts, he⟩
  · refine .inr ⟨granted, ?_⟩
    simp only [fetch, he, provide]
    cases db.cache.frames[page]? with
    | some frame => exact .inl ⟨frame, rfl, rfl⟩
    | none =>
      refine .inr ⟨rfl, ?_⟩
      have same : load { db with locks := (db.locks.request txn page access.mode).2 } page =
        db.load page := rfl
      rw [same]
      cases db.load page with
      | error fault => exact .inl ⟨fault, rfl, rfl⟩
      | ok content => exact .inr ⟨content, rfl, rfl⟩
  · refine .inl ⟨denied, fault, aborts, ?_⟩
    simp only [fetch, he]

/-- A fetched page is cached and locked. It was cached before, or it is the page in the file. -/
theorem fetch_eq_ok {db db' : Database} {txn : TxnId} {page : PageId} {access : Access}
    {frame : Frame} (h : db.fetch txn page access = (.ok frame, db')) :
    db'.cache.frames[page]? = some frame ∧
      (∃ held, db'.locks.mode? txn page = some held ∧ held.covers access.mode) ∧
      (db.cache.frames[page]? = some frame ∨
        db.cache.frames[page]? = none ∧ db.load page = .ok frame.page) := by
  rcases db.fetch_cases txn page access with
    ⟨-, fault, -, he⟩ | ⟨granted, ⟨cached, hc, he⟩ | ⟨absent, ⟨fault, -, he⟩ | ⟨content, loaded, he⟩⟩⟩
  · rw [he] at h
    cases h
  · rw [he] at h
    cases h
    exact ⟨hc, Locks.covers_of_request granted, .inl hc⟩
  · rw [he] at h
    cases h
  · rw [he] at h
    rcases db.cache.bringIn_cases content with ⟨failed, -⟩ | ⟨brought, hb, hp, hf, -⟩
    · rw [failed] at h
      cases h
    · rw [hb] at h
      cases h
      rw [(shown_of_load loaded).1] at hf
      exact ⟨hf, Locks.covers_of_request granted, .inr ⟨absent, hp ▸ loaded⟩⟩

private theorem lock_again {db : Database} {txn : TxnId} {page : PageId} {mode : LockMode}
    (denied : (db.locks.request txn page mode).1 = false) :
    lock { db with locks := db.locks.stopWaiting txn } txn page mode = db.lock txn page mode := by
  simp only [lock, tryLock, Locks.request_again denied]

/-- A fetch that fails does so again if nothing happens in between. -/
theorem fetch_again {db db' : Database} {txn : TxnId} {page : PageId} {access : Access} {fault : Fault}
    (failed : db.fetch txn page access = (.error fault, db')) :
    (db'.fetch txn page access).1 = .error fault := by
  rcases db.fetch_cases txn page access with
    ⟨denied, cause, -, he⟩ | ⟨granted, ⟨_, -, he⟩ | ⟨absent, fetched⟩⟩
  · rw [he, Locks.request_of_denied denied] at failed
    cases failed
    have same := congrArg Prod.fst he
    rcases db.lock_cases txn page access.mode with ⟨granted, -⟩ | ⟨-, other, -, locked⟩
    · rw [granted] at denied
      cases denied
    · simp only [fetch, locked] at same
      cases same
      simp only [fetch, lock_again denied, locked]
  · rw [he] at failed
    cases failed
  · have granted := Locks.granted_again granted
    rcases fetched with ⟨cause, unread, he⟩ | ⟨content, loaded, he⟩
    · rw [he] at failed
      cases failed
      rcases fetch_cases { db with locks := (db.locks.request txn page access.mode).2 } txn page access with
        ⟨denied, -⟩ | ⟨-, ⟨frame, cached, -⟩ | ⟨-, ⟨other, unread', he'⟩ | ⟨content, loaded, -⟩⟩⟩
      · rw [granted] at denied
        cases denied
      · cases absent.symm.trans cached
      · cases unread.symm.trans unread'
        rw [he']
      · cases unread.symm.trans loaded
    · rw [he] at failed
      obtain ⟨full, rfl⟩ := Prod.mk.inj failed
      have frames : (db.cache.bringIn content).2.frames = db.cache.frames := by
        rcases db.cache.bringIn_cases content with ⟨-, frames⟩ | ⟨_, brought, -⟩
        · exact frames
        · cases full.symm.trans brought
      rcases fetch_cases { db with
          locks := (db.locks.request txn page access.mode).2
          cache := (db.cache.bringIn content).2 } txn page access with
        ⟨denied, -⟩ | ⟨-, ⟨frame, cached, -⟩ | ⟨-, ⟨other, unread, -⟩ | ⟨content', loaded', he'⟩⟩⟩
      · rw [granted] at denied
        cases denied
      · rw [frames, absent] at cached
        cases cached
      · cases unread.symm.trans loaded
      · cases loaded.symm.trans loaded'
        rw [he']
        exact Cache.bringIn_again full

end Database

end PagedStore
