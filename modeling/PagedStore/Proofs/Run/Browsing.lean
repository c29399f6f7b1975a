import PagedStore.Proofs.Cache.Recent
import PagedStore.Proofs.Run.Capacity

/-! Transactions that change no page: cached are the pages that were got last. -/
namespace PagedStore

/-- Whether transactions are started and ended, get pages or let go of them, and do nothing else. -/
def Action.Browses : Action → Prop
  | .begin | .fetch _ _ _ | .complete _ _ _ | .release _ _ => True
  | _ => False

def got : Action × Reply → Option PageId
  | (.fetch _ page _, .frame (.ok _)) => some page
  | _ => none

def fetched (trace : List (Action × Reply)) : List PageId :=
  trace.filterMap got

private theorem fetched_concat (trace : List (Action × Reply)) (step : Action × Reply) :
    fetched (trace ++ [step]) = fetched trace ++ (got step).toList := by
  rw [fetched, fetched, List.filterMap_append, List.filterMap_cons]
  cases got step <;> rfl

namespace Database

/-- The page that an action gets which is granted its lock, if the page can be read from its file. -/
def gets (db : Database) (locks : Locks) : Action → Option PageId
  | .fetch txn page access =>
    if (locks.request txn page access.mode).1 ∧ (db.load page).isOk then some page else none
  | _ => none

/-- Whether a database has the files and tables of another one still, and the pages are cached that were used
last. All pages that were used can be read from their files. -/
structure Browsed (start : Database) (room : Nat) (uses : List PageId) (db : Database) : Prop where
  volume : db.volume = start.volume
  catalog : db.catalog = start.catalog
  follows : db.cache.Follows room uses
  readable : ∀ page ∈ uses, (start.load page).isOk

namespace Browsed
variable {start db : Database} {room : Nat} {uses : List PageId}

private theorem of_empty (start : Database) (room : Nat) :
    Browsed start room [] (start.withCachePages room) where
  volume := rfl
  catalog := rfl
  follows := .empty room
  readable _ used := absurd used List.not_mem_nil

variable (h : Browsed start room uses db)
include h

private theorem load_eq (page : PageId) : db.load page = start.load page := by
  rw [load, load, h.volume, h.catalog]

private theorem used {page : PageId} (again : (start.load page).isOk) :
    ∀ other ∈ uses ++ [page], (start.load other).isOk :=
  List.forall_mem_append.mpr ⟨h.readable, List.forall_mem_singleton.mpr again⟩

private theorem of_locks (locks : Locks) : Browsed start room uses { db with locks := locks } :=
  ⟨h.volume, h.catalog, h.follows, h.readable⟩

/-- What a fetch gets depends on the locks and the files only, not on what is cached. A page that it gets is
the last one used; one that it does not get is not used. -/
private theorem fetch (some_room : 0 < room) (txn : TxnId) (page : PageId) (access : Access) :
    got (.fetch txn page access, .frame (db.fetch txn page access).1) =
        start.gets db.locks (.fetch txn page access) ∧
      Browsed start room (uses ++ (start.gets db.locks (.fetch txn page access)).toList)
        (db.fetch txn page access).2 := by
  rw [gets]
  rcases db.fetch_cases txn page access with
    ⟨denied, fault, -, he⟩ | ⟨granted, ⟨frame, cached, he⟩ | ⟨absent, ⟨fault, unread, he⟩ | ⟨p, loaded, he⟩⟩⟩
  · rw [he, if_neg (by simp [denied])]
    exact ⟨rfl, (List.append_nil uses).symm ▸ h.of_locks _⟩
  · have known := Cache.mem_frames_of_eq cached
    have readable := h.readable page (Cache.mem_uses_of_mem_recent (h.follows.mem_recent.mpr known))
    rw [he, if_pos ⟨granted, readable⟩]
    exact ⟨rfl, h.volume, h.catalog, h.follows.access known, h.used readable⟩
  · rw [h.load_eq] at unread
    rw [he, if_neg (by simp [unread, Except.isOk, Except.toBool])]
    exact ⟨rfl, (List.append_nil uses).symm ▸ h.of_locks _⟩
  · obtain ⟨rfl, clean⟩ := shown_of_load loaded
    have missing : p.id ∉ db.cache.frames := by
      rw [Std.ExtTreeMap.mem_iff_isSome_getElem?, absent]
      exact Bool.false_ne_true
    rw [h.load_eq] at loaded
    have readable : (start.load p.id).isOk := by
      rw [loaded]
      rfl
    obtain ⟨⟨frame, brought⟩, follows⟩ := h.follows.bringIn some_room missing clean
    rw [he, if_pos ⟨granted, readable⟩, brought]
    exact ⟨rfl, h.volume, h.catalog, follows, h.used readable⟩

/-- The pages that a transaction has changed are none, so that its end only releases its locks. -/
private theorem complete (txn : TxnId) (commit : Bool) {order : List PageId}
    (listed : order.Perm (db.cache.dirtyPagesOf txn)) :
    (db.completeIn txn commit order).2 = { db with locks := db.locks.forget txn } := by
  rw [h.follows.idle.dirtyPagesOf_eq_nil] at listed
  rw [listed.eq_nil]
  rfl

private theorem perform (some_room : 0 < room) {action : Action} (fits : action.Fits db)
    (browses : action.Browses) :
    got (action, (db.perform action).1) = start.gets db.locks action ∧
      Browsed start room (uses ++ (start.gets db.locks action).toList) (db.perform action).2 := by
  have same := (List.append_nil uses).symm
  cases action with
  | begin => exact ⟨rfl, same ▸ ⟨h.volume, h.catalog, h.follows, h.readable⟩⟩
  | fetch txn page access => exact h.fetch some_room txn page access
  | complete txn commit order =>
    refine ⟨rfl, same ▸ ?_⟩
    simp only [Database.perform, Prod.map_snd, id]
    rw [h.complete txn commit fits]
    exact h.of_locks _
  | release txn page => exact ⟨rfl, same ▸ h.of_locks _⟩
  | _ => exact browses.elim

end Browsed

private theorem locks_fetch (db : Database) (txn : TxnId) (page : PageId) (access : Access) :
    (db.fetch txn page access).2.locks =
      if (db.locks.request txn page access.mode).1 then (db.locks.request txn page access.mode).2
      else (db.locks.request txn page access.mode).2.stopWaiting txn := by
  rcases db.fetch_cases txn page access with
    ⟨denied, _, -, he⟩ | ⟨granted, ⟨_, -, he⟩ | ⟨-, ⟨_, -, he⟩ | ⟨_, -, he⟩⟩⟩
  · rw [he, denied, if_neg Bool.false_ne_true]
  all_goals rw [he, if_pos granted]

private theorem Browsed.locks_perform {start db db' : Database} {room room' : Nat} {uses : List PageId}
    (h : Browsed start room uses db) (h' : Browsed start room' uses db') (locks : db'.locks = db.locks)
    {action : Action} (fits : action.Fits db) (fits' : action.Fits db') (browses : action.Browses) :
    (db'.perform action).2.locks = (db.perform action).2.locks := by
  cases action with
  | begin => exact locks
  | fetch txn page access =>
    simp only [Database.perform, Prod.map_snd, id, locks_fetch, locks]
  | complete txn commit order =>
    simp only [Database.perform, Prod.map_snd, id, h.complete txn commit fits, h'.complete txn commit fits',
      locks]
  | release txn page => exact congrArg (Locks.release · txn page) locks
  | _ => exact browses.elim

end Database

/-! ### Runs -/

private theorem Run.browsed {start db : Database} {room : Nat} {trace : List (Action × Reply)}
    (some_room : 0 < room)
    (run : Run (fun _ action _ => action.Browses) (start.withCachePages room) trace db) :
    Database.Browsed start room (fetched trace) db := by
  induction run using Run.inductionOn with
  | first => exact .of_empty start room
  | next earlier action fits browses ih =>
    obtain ⟨same, next⟩ := ih.perform some_room fits browses
    rw [fetched_concat, same]
    exact next

private theorem Run.fetched_eq {start db db' : Database} {room room' : Nat}
    {trace trace' : List (Action × Reply)}
    (some_room : 0 < room) (some_room' : 0 < room')
    (run : Run (fun _ action _ => action.Browses) (start.withCachePages room) trace db)
    (run' : Run (fun _ action _ => action.Browses) (start.withCachePages room') trace' db')
    (asked : trace'.map Prod.fst = trace.map Prod.fst) :
    fetched trace' = fetched trace ∧ db'.locks = db.locks := by
  refine Run.inductionOn₂ (motive := fun trace db trace' db' => fetched trace' = fetched trace ∧
    db'.locks = db.locks) run run' (forall₂_of_asked_eq (fun _ => Eq.refl _) asked) ⟨rfl, rfl⟩ ?_
  rintro trace trace' mid mid' action _ earlier earlier' rfl fits fits' browses - ⟨same, locks⟩
  have first := earlier.browsed some_room
  have second := earlier'.browsed some_room'
  rw [same] at second
  refine ⟨?_, first.locks_perform second locks fits fits' browses⟩
  rw [fetched_concat, fetched_concat, same, (first.perform some_room fits browses).1,
    (second.perform some_room' fits' browses).1, locks]

/-- As long as no page is changed, a cache that was empty holds the pages that were got last: so many as it
has room for, or all where fewer were got, in the order in which each was got for the last time. Calls that
fail do not count. So a larger cache, of which the same is asked, holds all of these pages too. -/
theorem most_recent_cached {start db : Database} {room : Nat} {trace : List (Action × Reply)}
    (some_room : 0 < room)
    (run : Run (fun _ action _ => action.Browses) (start.withCachePages room) trace db) :
    db.cache.pageIds = Cache.recent room (fetched trace) ∧
      db.cache.pageIds.length = min room (fetched trace).toFinset.card ∧
      ∀ {larger : Nat} {trace' : List (Action × Reply)} {db' : Database}, room ≤ larger →
        Run (fun _ action _ => action.Browses) (start.withCachePages larger) trace' db' →
        trace'.map Prod.fst = trace.map Prod.fst →
        fetched trace' = fetched trace ∧ db.cache.pageIds ⊆ db'.cache.pageIds := by
  have cached := (run.browsed some_room).follows.pageIds_eq
  refine ⟨cached, cached ▸ Cache.length_recent room _, fun more run' asked => ?_⟩
  have some_room' := Nat.lt_of_lt_of_le some_room more
  obtain ⟨same, -⟩ := run.fetched_eq some_room some_room' run' asked
  refine ⟨same, ?_⟩
  rw [cached, (run'.browsed some_room').follows.pageIds_eq, same]
  exact Cache.recent_subset more _

private def threePages : Database :=
  (Database.createTable ⟨{ pageSize := 16 }, Volume.empty.put 0 (Content.empty.padTo 48), .empty, .empty,
    .empty 50, 1, 0⟩ (.file 0) ⟨[⟨.int, none⟩]⟩ "numbers" "").2

/-- The first page is used again before the third one comes, for which the second one leaves a cache for two
pages. The second transaction, to which the second page is denied, does not use it. -/
theorem most_recent_cached_reused : ∃ trace trace' db db',
    Run (fun _ action _ => action.Browses) (threePages.withCachePages 2) trace db ∧
    Run (fun _ action _ => action.Browses) (threePages.withCachePages 3) trace' db' ∧
    trace.map Prod.fst = [.fetch 1 ⟨0, 0⟩ .read, .fetch 1 ⟨0, 1⟩ .write, .fetch 2 ⟨0, 0⟩ .read,
      .fetch 2 ⟨0, 1⟩ .read, .fetch 1 ⟨0, 2⟩ .read] ∧
    fetched trace = [⟨0, 0⟩, ⟨0, 1⟩, ⟨0, 0⟩, ⟨0, 2⟩] ∧
    db.cache.pageIds = [⟨0, 0⟩, ⟨0, 2⟩] ∧ db'.cache.pageIds = [⟨0, 1⟩, ⟨0, 0⟩, ⟨0, 2⟩] ∧
    db.cache.pageIds ⊆ db'.cache.pageIds := by
  have run (room : Nat) :=
    (((((Run.start : Run (fun _ action _ => action.Browses) (threePages.withCachePages room) [] _).next
      (.fetch 1 ⟨0, 0⟩ .read) trivial trivial).next (.fetch 1 ⟨0, 1⟩ .write) trivial trivial).next
      (.fetch 2 ⟨0, 0⟩ .read) trivial trivial).next (.fetch 2 ⟨0, 1⟩ .read) trivial trivial).next
      (.fetch 1 ⟨0, 2⟩ .read) trivial trivial
  refine ⟨_, _, _, _, run 2, run 3, rfl, ?got, ?tight, ?wide,
    ((most_recent_cached Nat.zero_lt_two (run 2)).2.2 (Nat.le_succ 2) (run 3) rfl).2⟩
  all_goals decide +kernel

end PagedStore
