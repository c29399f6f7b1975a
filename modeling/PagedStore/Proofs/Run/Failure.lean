import PagedStore.Proofs.Locks.WaitGraph
import PagedStore.Proofs.Run.FirstFit

/-! Operations that fail change no tuple: whatever they have done up to there, all pages show what they
showed before, and all changes that are not yet written stay in the cache. -/
namespace PagedStore

private theorem Fault.not_aborts_of_ofReading {fault : Fault} (reading : fault.ofReading) :
    ¬ fault.abortsTransaction := by
  cases fault with
  | lockTimeout => cases reading
  | deadlock => cases reading
  | _ => exact Bool.false_ne_true

namespace Database

def dirtier? (db : Database) (page : PageId) : Option TxnId :=
  (db.view? page).bind Page.changedBy

/-- Whether a database holds the same data as another: the same tuples are in view, changed by the same
transactions, no changed page has left the cache, and the files differ by empty pages at most that were
added to known tables. -/
structure Intact (db db' : Database) : Prop where
  tuples : ∀ record, (db'.tuple? record).map Tuple.nameless = (db.tuple? record).map Tuple.nameless
  dirtiers : ∀ page, db'.dirtier? page = db.dirtier? page
  dirty : ∀ {page : PageId} {frame : Frame}, db.cache.frames[page]? = some frame → frame.page.changedBy ≠ none →
    db'.cache.frames[page]? = some frame
  bytes : ∀ table, db.Knows table → ∀ position < table.pages db.volume * table.pageSize,
    (db'.volume.content table.id).byte position = (db.volume.content table.id).byte position
  pages : ∀ table, db.Knows table → table.pages db.volume ≤ table.pages db'.volume
  others : ∀ {id}, (∀ table, db.Knows table → table.id ≠ id) →
    db'.volume.content id = db.volume.content id

section Quiet
variable {txn : TxnId} {db db' : Database}

private theorem dirtier?_eq (db : Database) (page : PageId) :
    db.dirtier? page = (db.cache.page? page).bind Page.changedBy := by
  rw [dirtier?]
  cases cached : db.cache.frames[page]? with
  | some frame =>
    rw [view?_of_cached cached, Cache.page?, cached]
    rfl
  | none =>
    rw [view?_of_absent cached, Cache.page?, cached]
    cases loaded : db.load page with
    | error fault => rfl
    | ok p => exact (shown_of_load loaded).2

private theorem Quiet.intact (quiet : Quiet txn db db') (echoes : db.Echoes) : db.Intact db' where
  tuples := quiet.tuple?_eq echoes
  dirtiers page := by
    rw [dirtier?_eq, dirtier?_eq, Cache.page?, Cache.page?]
    rcases quiet.frames page with same | ⟨clean, loaded⟩
    · rw [same]
    · have before : (db.cache.frames[page]?.map Frame.page).bind Page.changedBy = none := by
        cases cached : db.cache.frames[page]? with
        | none => rfl
        | some frame => exact clean frame cached
      rw [before]
      cases cached : db'.cache.frames[page]? with
      | none => rfl
      | some frame => exact (shown_of_load (loaded frame cached)).2
  dirty := quiet.of_dirty
  bytes table known := (quiet.grown table known).kept
  pages table known := (quiet.grown table known).pages_le
  others := quiet.content

end Quiet

section Fetch
variable {db : Database} {txn : TxnId} {page : PageId} {access : Access} {fault : Fault}

private theorem frames_of_failed (failed : (db.fetch txn page access).1 = .error fault) :
    (db.fetch txn page access).2.cache.frames = db.cache.frames := by
  rcases db.fetch_cases txn page access with
    ⟨-, _, -, he⟩ | ⟨-, ⟨_, -, he⟩ | ⟨-, ⟨_, -, he⟩ | ⟨content, -, he⟩⟩⟩
  · rw [he]
  · rw [he] at failed
    cases failed
  · rw [he]
  · rw [he] at failed ⊢
    rcases db.cache.bringIn_cases content with ⟨-, frames⟩ | ⟨_, brought, -⟩
    · exact frames
    · rw [brought] at failed
      cases failed

/-- A fetch that is denied the lock leaves everything as it was, but that its transaction waits no more. -/
private theorem fetch_of_denied (failed : (db.fetch txn page access).1 = .error fault)
    (aborts : fault.abortsTransaction) :
    (db.fetch txn page access).2 = { db with locks := db.locks.stopWaiting txn } := by
  rcases db.fetch_cases txn page access with
    ⟨denied, _, -, he⟩ | ⟨-, ⟨_, -, he⟩ | ⟨-, ⟨_, unread, he⟩ | ⟨content, -, he⟩⟩⟩
  · rw [he, Locks.request_of_denied denied]
  · rw [he] at failed
    cases failed
  · rw [he] at failed
    cases failed
    exact absurd aborts (Fault.not_aborts_of_ofReading (ofReading_of_load unread))
  · rw [he] at failed
    rcases db.cache.bringIn_cases content with ⟨full, -⟩ | ⟨_, brought, -⟩
    · rw [full] at failed
      cases failed
      cases aborts
    · rw [brought] at failed
      cases failed

private theorem tryLock_of_denied {mode : LockMode} (denied : (db.tryLock txn page mode).1 = false) :
    (db.tryLock txn page mode).2 = { db with locks := { db.locks with
      waits := db.locks.waits.insert txn (db.locks.blockers txn page mode) } } := by
  rw [tryLock, Locks.request_eq_of_refused denied]

/-- Where deadlocks are looked for and the transaction would close a cycle of waits, it is told so. -/
private theorem fetch_of_deadlocked (looks : db.settings.policy = .waitsFor) {cycle : List TxnId}
    (denied : (db.locks.request txn page access.mode).1 = false)
    (closed : (db.locks.request txn page access.mode).2.deadlock? txn = some cycle) :
    (db.fetch txn page access).1 = .error (.deadlock txn) := by
  have waits : db.tryLock txn page access.mode =
      (false, { db with locks := (db.locks.request txn page access.mode).2 }) := Prod.ext denied rfl
  simp [fetch, lock, waits, giveUp, looks, closed]

end Fetch

section Insertion
variable {db : Database} (keyed : db.cache.Keyed)
include keyed

private theorem tuple_of_failed {txn : TxnId} {id : TableId} {tuple : Tuple} {fault : Fault}
    (failed : (db.insertTuple txn id tuple).1 = .error fault) : (db.insertTuple txn id tuple).2.1 = tuple := by
  rw [insertTuple_eq txn tuple keyed] at failed ⊢
  cases known : db.catalog.table id with
  | error cause => rfl
  | ok table =>
    simp only [known] at failed ⊢
    rcases inserted : db.insertInto table txn tuple with ⟨cause | record, after⟩
    · rfl
    · rw [inserted] at failed
      cases failed

private theorem tuple_of_failed_turn {i : Insertion} {fault : Fault} {tuple : Tuple}
    (failed : (db.takeTurn i).1 = .ends (.error fault) tuple) : tuple = i.tuple := by
  have turned := turned keyed i
  generalize (db.takeTurn i).1 = turn, (db.takeTurn i).2 = after at turned failed
  subst failed
  cases turned
  rfl

end Insertion

end Database

private def lockedSample : Database :=
  (Prepared.sample.perform (Prepared.insertion 1 7)).2

private def watchedSample : Database :=
  (Database.createTable ⟨{ pageSize := 16, policy := .waitsFor }, Volume.empty.put 0 (Content.empty.padTo 32),
    .empty, .empty, .empty 50, 1, 0⟩ (.file 0) ⟨[⟨.int, none⟩]⟩ "numbers" "").2

/-- Each of two transactions has a page locked, and one of them waits for the other. -/
private def waitingSample : Database :=
  (((watchedSample.perform (.fetch 1 ⟨0, 0⟩ .write)).2.perform (.fetch 2 ⟨0, 1⟩ .write)).2.perform
    (.attempt 1 ⟨0, 1⟩ .shared)).2

end PagedStore
