import PagedStore.Proofs.Database.Progress

/-! How an insertion goes about: it passes over full pages of its table, which it unlocks again, and adds
pages to the table, up to the page that its tuple goes into or that it fails at. -/
namespace PagedStore.Database

/-! ### One page -/

section Page
variable {db db' : Database} {txn : TxnId} {page : PageId}

/-- A fetch adds the page to those that the transaction holds if the lock is granted, also where the
page cannot be had. -/
theorem holds_fetch (db : Database) (txn : TxnId) (page : PageId) (access : Access) (other : PageId) :
    (db.fetch txn page access).2.locks.holds txn other =
      ((db.locks.request txn page access.mode).1 && other == page || db.locks.holds txn other) := by
  rcases db.fetch_cases txn page access with ⟨denied, _, -, he⟩ | ⟨granted, fetched⟩
  · rw [he, denied, Locks.request_of_denied denied, Bool.false_and, Bool.false_or]
    rfl
  · have locks : (db.fetch txn page access).2.locks = (db.locks.request txn page access.mode).2 := by
      rcases fetched with ⟨_, -, he⟩ | ⟨-, ⟨_, -, he⟩ | ⟨_, -, he⟩⟩ <;> rw [he]
    rw [locks, granted, Bool.true_and, Locks.holds_of_request granted]

/-- A page is cached where it was while it is fetched. -/
theorem frames_fetch_of_cached {access : Access} {frame : Frame}
    (cached : db.cache.frames[page]? = some frame) :
    (db.fetch txn page access).2.cache.frames = db.cache.frames := by
  rcases db.fetch_cases txn page access with ⟨-, _, -, he⟩ | ⟨-, ⟨_, -, he⟩ | ⟨absent, -⟩⟩
  · rw [he]
  · rw [he]
    rfl
  · rw [absent] at cached
    cases cached

/-- Trying a page changes no file. -/
theorem volume_tryPage (db : Database) (txn : TxnId) (tuple : Tuple) (page : PageId) :
    (db.tryPage txn tuple page).2.volume = db.volume := by
  have fetched := db.volume_fetch txn page .write
  have trial := db.trial txn tuple page
  generalize (db.tryPage txn tuple page).1 = result, (db.tryPage txn tuple page).2 = db' at trial ⊢
  cases trial with
  | unfetched he => rwa [he] at fetched
  | full he _ =>
    rw [he] at fetched
    split <;> exact fetched
  | refused he _ _ => rwa [he] at fetched
  | placed he _ _ => rwa [he] at fetched

/-- A full page is fetched, and unlocked again unless it was locked before. -/
theorem approach_of_full {tuple : Tuple} (passed : db.tryPage txn tuple page = (.ok none, db'))
    (grows : Table → Volume → Prop) : Approach grows txn db db' := by
  cases trial_of_eq passed with
  | @full _ mid fetched _ =>
    obtain rfl : mid = (db.fetch txn page .write).2 := by rw [fetched]
    split
    · exact .fetch page .write .still
    · rename_i fresh
      exact .visit page .write .still (Bool.eq_false_iff.mpr fresh)

/-- The transaction holds the same pages after it has passed over a full one as before. -/
theorem holds_of_full {tuple : Tuple} (passed : db.tryPage txn tuple page = (.ok none, db'))
    (other : PageId) : db'.locks.holds txn other = db.locks.holds txn other := by
  cases trial_of_eq passed with
  | @full _ mid he _ =>
    have fetched := db.holds_fetch txn page .write other
    rw [he] at fetched
    by_cases here : other = page
    · subst here
      split
      · rename_i held
        rw [fetched, held, Bool.or_true]
      · rename_i fresh
        rw [releasePage, Locks.holds, Locks.mode?_release, if_pos ⟨rfl, rfl⟩, Bool.eq_false_iff.mpr fresh]
        rfl
    · rw [beq_false_of_ne here, Bool.and_false, Bool.false_or] at fetched
      split
      · exact fetched
      · rw [releasePage, Locks.holds, Locks.mode?_release, if_neg fun h => here h.2]
        exact fetched

/-- Beyond that, trying a page does to the locks what fetching it does. -/
theorem locks_of_decided {tuple : Tuple} {result : Except Fault (Option RecordId)}
    (tried : db.tryPage txn tuple page = (result, db')) (decided : result ≠ .ok none) :
    db'.locks = (db.fetch txn page .write).2.locks := by
  cases trial_of_eq tried with
  | unfetched he => rw [he]
  | full _ _ => exact absurd rfl decided
  | refused he _ _ => rw [he]
  | placed he _ _ => rw [he]

private theorem size_le_fetch (db : Database) (txn : TxnId) (page : PageId) (access : Access) :
    db.cache.frames.size ≤ (db.fetch txn page access).2.cache.frames.size := by
  rcases db.fetch_cases txn page access with
    ⟨-, _, -, he⟩ | ⟨-, ⟨_, -, he⟩ | ⟨absent, ⟨_, -, he⟩ | ⟨content, loaded, he⟩⟩⟩
  · exact Nat.le_of_eq (by rw [he])
  · exact Nat.le_of_eq (by rw [he]; rfl)
  · exact Nat.le_of_eq (by rw [he])
  · rw [he]
    exact Cache.size_le_bringIn ((shown_of_load loaded).1 ▸ absent)

private theorem Approach.size_le {grows : Table → Volume → Prop} (way : Approach grows txn db db') :
    db.cache.frames.size ≤ db'.cache.frames.size := by
  induction way with
  | still => exact Nat.le_refl _
  | fetch page access _ ih => exact Nat.le_trans ih (size_le_fetch _ txn page access)
  | visit page access _ _ ih => exact Nat.le_trans ih (size_le_fetch _ txn page access)
  | append _ _ _ ih => exact ih
  | wait _ _ ih => exact ih

end Page

/-! ### From page to page -/

/-- How an insertion goes about up to the page that decides it: the pages at the given number of first
positions of the table were full when they were tried, and where all of the table were, one was added. -/
inductive Search (table : Table) (txn : TxnId) (tuple : Tuple) (db : Database) : Nat → Database → Prop
  | start : Search table txn tuple db 0 db
  | pass {count : Nat} {mid db' : Database} : Search table txn tuple db count mid →
      count < table.pages mid.volume → mid.tryPage txn tuple (table.pageAt count) = (.ok none, db') →
      Search table txn tuple db (count + 1) db'
  | append {count : Nat} {mid : Database} : Search table txn tuple db count mid →
      count = table.pages mid.volume → Search table txn tuple db count (mid.appendPage table).2

/-- What an insertion comes to that adds a limited number of pages: the tuple has another schema than the
table, it goes into the first page that is not full, the insertion fails at that page or at getting one,
or it is given up after pages have been added up to the limit or up to the last page number. -/
inductive Ending (table : Table) (txn : TxnId) (tuple : Tuple) (limit : Nat) (db : Database) :
    Except Fault RecordId → Database → Prop
  | conflict : Ending table txn tuple limit db (.error (.schemaConflict table.id)) db
  | found {count : Nat} {mid db' : Database} {record : RecordId} :
      Search table txn tuple db count mid →
      mid.tryPage txn tuple (table.pageAt count) = (.ok (some record), db') →
      Ending table txn tuple limit db (.ok record) db'
  | failed {count : Nat} {mid db' : Database} {fault : Fault} :
      Search table txn tuple db count mid →
      mid.tryPage txn tuple (table.pageAt count) = (.error fault, db') →
      Ending table txn tuple limit db (.error fault) db'
  | spent {count : Nat} {mid : Database} : Search table txn tuple db count mid →
      min (table.pages db.volume + limit) 4294967296 ≤ count →
      Ending table txn tuple limit db (.error (.pageFull (table.pageAt count))) mid

def insertWithin (db : Database) (table : Table) (txn : TxnId) (tuple : Tuple) (limit : Nat) :
    Except Fault RecordId × Database :=
  if tuple.schema.agrees table.schema then
    let pages := table.pages db.volume
    match db.tryPages table txn tuple 0 pages with
    | (.error fault, db) => (.error fault, db)
    | (.ok (some record), db) => (.ok record, db)
    | (.ok none, db) => db.tryAppended table txn tuple pages limit
  else (.error (.schemaConflict table.id), db)

section Searching
variable {table : Table} {txn : TxnId} {tuple : Tuple} {db mid : Database} {count : Nat}

namespace Search

private theorem min_le_pages_append (table : Table) (v : Volume) :
    min (table.pages v + 1) 4294967296 ≤ table.pages (table.append v).2 ∧
      table.pages v ≤ table.pages (table.append v).2 := by
  rcases Nat.lt_or_ge (table.pages v) 4294967296 with room | full
  · rw [(table.grown_append room).2]
    omega
  · rw [table.pages_append_of_full full]
    omega

private theorem tryPages (search : Search table txn tuple db count mid) {left : Nat}
    (inside : count + left ≤ table.pages mid.volume) {result : Except Fault (Option RecordId)}
    {after : Database} (he : mid.tryPages table txn tuple count left = (result, after)) (limit : Nat) :
    (result = .ok none ∧ Search table txn tuple db (count + left) after ∧ after.volume = mid.volume) ∨
    (∃ record, result = .ok (some record) ∧ Ending table txn tuple limit db (.ok record) after) ∨
    ∃ fault, result = .error fault ∧ Ending table txn tuple limit db (.error fault) after := by
  induction left generalizing mid count with
  | zero =>
    cases he
    exact .inl ⟨rfl, search, rfl⟩
  | succ left ih =>
    rw [Database.tryPages] at he
    have volume := mid.volume_tryPage txn tuple (table.pageAt count)
    cases tried : mid.tryPage txn tuple (table.pageAt count) with
    | mk first next =>
      rw [tried] at he volume
      rcases first with fault | (_ | record)
      · cases he
        exact .inr (.inr ⟨fault, rfl, .failed search tried⟩)
      · have passed := search.pass (by omega) tried
        have volume : next.volume = mid.volume := volume
        have rest := ih passed (by rw [volume]; omega) he
        rwa [Nat.add_right_comm, volume] at rest
      · cases he
        exact .inr (.inl ⟨record, rfl, .found search tried⟩)

private theorem tryAppended (search : Search table txn tuple db count mid)
    (all : count = table.pages mid.volume) {limit rounds : Nat}
    (left : min (table.pages db.volume + limit) 4294967296 ≤ count + rounds)
    {result : Except Fault RecordId} {after : Database}
    (he : mid.tryAppended table txn tuple count rounds = (result, after)) :
    Ending table txn tuple limit db result after := by
  induction rounds generalizing mid count with
  | zero =>
    cases he
    exact .spent search left
  | succ rounds ih =>
    have added := search.append all
    have grown := min_le_pages_append table mid.volume
    simp only [Database.tryAppended] at he
    generalize after_added : (mid.appendPage table).2 = next at he added
    have pages : table.pages next.volume = table.pages (table.append mid.volume).2 := by
      rw [← after_added]
      rfl
    cases tried : next.tryPages table txn tuple count (table.pages next.volume - count) with
    | mk first last =>
      rw [tried] at he
      have behind : count + (table.pages next.volume - count) = table.pages next.volume := by omega
      rcases added.tryPages (Nat.le_of_eq behind) tried limit with
        ⟨rfl, further, volume⟩ | ⟨record, rfl, ending⟩ | ⟨fault, rfl, ending⟩
      · rw [behind] at further
        rw [← volume] at further he pages
        exact ih further rfl (by omega) he
      · cases he
        exact ending
      · cases he
        exact ending

end Search

/-- Every insertion searches its way to an end. -/
theorem ending_insertWithin (db : Database) (table : Table) (txn : TxnId) (tuple : Tuple) (limit : Nat) :
    Ending table txn tuple limit db (db.insertWithin table txn tuple limit).1
      (db.insertWithin table txn tuple limit).2 := by
  rw [insertWithin]
  split
  · simp only
    cases tried : db.tryPages table txn tuple 0 (table.pages db.volume) with
    | mk first mid =>
      rcases Search.start.tryPages (Nat.le_of_eq (Nat.zero_add _)) tried limit with
        ⟨rfl, search, volume⟩ | ⟨record, rfl, ending⟩ | ⟨fault, rfl, ending⟩
      · rw [Nat.zero_add] at search
        exact search.tryAppended (by rw [volume]) (Nat.min_le_left _ _) rfl
      · exact ending
      · exact ending
  · exact .conflict

namespace Search

theorem approach (search : Search table txn tuple db count mid) :
    Approach (fun _ _ => True) txn db mid := by
  induction search with
  | start => exact .still
  | pass _ _ passed ih => exact ih.trans (approach_of_full passed _)
  | append _ _ ih => exact ih.append table trivial

/-- While it searches, an insertion holds no page for longer than it takes to see that it is full. -/
theorem holds_eq (search : Search table txn tuple db count mid) (page : PageId) :
    mid.locks.holds txn page = db.locks.holds txn page := by
  induction search with
  | start => rfl
  | pass _ _ passed ih => rw [holds_of_full passed, ih]
  | append _ _ ih => exact ih

end Search

/-- An insertion may add more pages than are cached. -/
theorem insertInto_eq_insertWithin (db : Database) (table : Table) (txn : TxnId) (tuple : Tuple) :
    ∃ limit, db.cache.frames.size < limit ∧
      db.insertInto table txn tuple = db.insertWithin table txn tuple limit := by
  simp only [insertInto_eq, insertWithin]
  cases tried : db.tryPages table txn tuple 0 (table.pages db.volume) with
  | mk first mid =>
    rcases Search.start.tryPages (Nat.le_of_eq (Nat.zero_add _)) tried 0 with
      ⟨rfl, search, -⟩ | ⟨record, rfl, -⟩ | ⟨fault, rfl, -⟩
    · have kept := search.approach.size_le
      exact ⟨mid.appendLimit table, by rw [appendLimit]; omega, rfl⟩
    · exact ⟨_, Nat.lt_succ_self _, rfl⟩
    · exact ⟨_, Nat.lt_succ_self _, rfl⟩

end Searching

end PagedStore.Database
