import PagedStore.Proofs.Database.Placement
import PagedStore.Proofs.Database.Progress
import PagedStore.Proofs.Database.Twin

/-! An insertion takes the first free slot of the first page that is not full. Where all pages are
full, it takes the first slot of a page added behind them. -/
namespace PagedStore

private theorem Page.used_of_insert {p after : Page} {tuple : Tuple} {record : RecordId}
    (h : p.insert tuple = .ok (record, after)) : ∀ slot < record.slot, (p.tuple? slot).isSome := by
  rw [insert_eq] at h
  split at h
  · split at h
    · cases h
    · rename_i first found
      cases h
      exact (Page.findIdx?_eq_some_iff.mp found).before
  · cases h

/-- Whether a table's file has one page more, of zeros, and no other file has changed. -/
structure Table.Extended (t : Table) (v v' : Volume) : Prop where
  grown : t.Grown v v'
  pages : t.pages v' = t.pages v + 1
  length : (v'.content t.id).length = t.pages v' * t.pageSize
  others : ∀ {id}, id ≠ t.id → v'.content id = v.content id

private theorem Table.extended_append (t : Table) {v : Volume} (room : t.pages v < 4294967296) :
    t.Extended v (t.append v).2 := by
  obtain ⟨grown, pages⟩ := t.grown_append room
  refine ⟨grown, pages, ?_, t.content_append v⟩
  have ragged : (v.content t.id).length < t.pages v * t.pageSize + t.pageSize :=
    Nat.not_le.mp fun h => Nat.lt_irrefl _ (t.lt_pages_iff.mpr h)
  have number : pageNumber (t.file v).pages = t.pages v := pageNumber_of_lt room
  rw [pages, Nat.succ_mul]
  simp only [append, PageFile.append, number, Volume.content_put, if_true, Content.length_padTo,
    Content.length_clear]
  exact Nat.max_eq_right (Nat.le_of_lt ragged)

namespace Database

/-- The page that whoever fetches it gets: the cached one, or else the one in the file. -/
def view? (db : Database) (page : PageId) : Option Page :=
  (db.cache.page? page).or (db.load page).toOption

def tuple? (db : Database) (record : RecordId) : Option Tuple :=
  (db.view? record.page).bind (·.tuple? record.slot)

def Full (db : Database) (page : PageId) : Prop :=
  ∃ p, db.view? page = some p ∧ p.freeCount = 0

def FirstFree (db : Database) (record : RecordId) : Prop :=
  ∃ p, db.view? record.page = some p ∧ record.slot < p.slots.length ∧ p.tuple? record.slot = none ∧
    ∀ slot < record.slot, (p.tuple? slot).isSome

section View
variable {db : Database} {page : PageId}

theorem view?_of_cached {frame : Frame} (cached : db.cache.frames[page]? = some frame) :
    db.view? page = some frame.page := by
  rw [view?, Cache.page?, cached]
  rfl

theorem view?_of_absent (absent : db.cache.frames[page]? = none) :
    db.view? page = (db.load page).toOption := by
  rw [view?, Cache.page?, absent]
  rfl

private theorem view?_of_fetch {db' : Database} {txn : TxnId} {access : Access} {frame : Frame}
    (fetched : db.fetch txn page access = (.ok frame, db')) : db.view? page = some frame.page := by
  rcases (fetch_eq_ok fetched).2.2 with cached | ⟨absent, loaded⟩
  · exact view?_of_cached cached
  · rw [view?_of_absent absent, loaded]
    rfl

private theorem view?_nameless (echoes : db.Echoes) (page : PageId) :
    (db.view? page).map Page.nameless = (db.shows page).toOption := by
  cases cached : db.cache.frames[page]? with
  | some frame =>
    rw [view?_of_cached cached, shows_of_cached echoes cached]
    rfl
  | none =>
    rw [view?_of_absent cached, shows_of_absent cached]
    cases db.load page <;> rfl

end View

/-! ### What stays in view -/

def SameView (db db' : Database) (page : PageId) : Prop :=
  (db'.view? page).map Page.nameless = (db.view? page).map Page.nameless

namespace SameView
variable {db db' : Database} {page : PageId} (h : SameView db db' page)
include h

private theorem exists_eq {p : Page} (got : db'.view? page = some p) :
    ∃ q, db.view? page = some q ∧ p.nameless = q.nameless := by
  rw [SameView, got, Option.map_some, eq_comm, Option.map_eq_some_iff] at h
  obtain ⟨q, got', same⟩ := h
  exact ⟨q, got', same.symm⟩

private theorem full (full : db'.Full page) : db.Full page := by
  obtain ⟨p, got, taken⟩ := full
  obtain ⟨q, got', same⟩ := h.exists_eq got
  exact ⟨q, got', (Page.freeCount_congr same).symm.trans taken⟩

omit h in
private theorem firstFree {record : RecordId} (h : SameView db db' record.page) (first : db'.FirstFree record) :
    db.FirstFree record := by
  obtain ⟨p, got, inside, free, used⟩ := first
  obtain ⟨q, got', same⟩ := h.exists_eq got
  have tuples := Page.tuple?_congr same
  refine ⟨q, got', Page.slots_length_congr same ▸ inside, ?_, fun slot earlier => ?_⟩
  · rw [← Option.map_eq_none_iff, ← tuples, free, Option.map_none]
  · rw [← Option.isSome_map, ← tuples, Option.isSome_map]
    exact used slot earlier

omit h in
private theorem tuple?_eq {record : RecordId} (h : SameView db db' record.page) :
    (db'.tuple? record).map Tuple.nameless = (db.tuple? record).map Tuple.nameless := by
  rw [tuple?, tuple?]
  cases got : db'.view? record.page with
  | none =>
    rw [SameView, got, Option.map_none, eq_comm, Option.map_eq_none_iff] at h
    rw [h]
  | some p =>
    obtain ⟨q, got', same⟩ := h.exists_eq got
    rw [got', Option.bind_some, Option.bind_some, Page.tuple?_congr same]

end SameView

section Quiet
variable {txn : TxnId} {db db' : Database}

/-- A page that can be read now and could not be before has been added, and has no tuples. -/
private theorem Quiet.blank_of_load (quiet : Quiet txn db db') {page : PageId} {fault : Fault} {p : Page}
    (before : db.load page = .error fault) (after : db'.load page = .ok p) (slot : Nat) :
    p.tuple? slot = none := by
  obtain ⟨table, known, loaded⟩ := load_eq_ok_iff.mp after
  have own := table.table_eq_of_load loaded
  rw [quiet.catalog] at known
  have grown := quiet.grown table (by rwa [Knows, ← own])
  have behind : table.pages db.volume ≤ page.number := by
    refine Nat.not_lt.mp fun inside => ?_
    rw [load, known] at before
    rw [grown.load_eq own inside, show table.load db.volume page = .error fault from before] at loaded
    cases loaded
  obtain ⟨blank, loaded', free⟩ := grown.load_blank own behind (table.shown_of_load loaded).1
  rw [loaded] at loaded'
  cases loaded'
  exact free slot

variable (echoes : db.Echoes)
include echoes

/-- A page stays in view if it is read alike from its file, unless some transaction has changed it. -/
private theorem Quiet.sameView (quiet : Quiet txn db db') {page : PageId}
    (same : db.changed? page = none → (db'.load page).toOption = (db.load page).toOption) :
    SameView db db' page := by
  have commutes (result : Except Fault Page) :
      (result.map Page.nameless).toOption = result.toOption.map Page.nameless := by
    cases result <;> rfl
  rw [SameView, view?_nameless (echoes.quiet quiet), view?_nameless echoes, shows, shows,
    quiet.changed?_eq]
  cases changed : db.changed? page with
  | some p => rfl
  | none => simp only [commutes, same changed]

/-- While a transaction goes from page to page, and no table grows, every page stays in view. -/
private theorem Approach.sameView (way : Approach (fun _ _ => False) txn db db') (page : PageId) :
    SameView db db' page := by
  refine (way.quiet fun _ _ => False.elim).sameView echoes fun _ => ?_
  rw [load, load, way.catalog_eq, way.volume_eq]

/-- Where tables grow, no tuple comes into view, and none goes. -/
theorem Quiet.tuple?_eq (quiet : Quiet txn db db') (record : RecordId) :
    (db'.tuple? record).map Tuple.nameless = (db.tuple? record).map Tuple.nameless := by
  cases changed : db.changed? record.page with
  | some q =>
    refine (quiet.sameView echoes fun unchanged => ?_).tuple?_eq
    rw [changed] at unchanged
    cases unchanged
  | none =>
    cases before : db.load record.page with
    | ok p => exact (quiet.sameView echoes fun _ => by rw [quiet.load_of_ok before, before]).tuple?_eq
    | error fault =>
      cases after : db'.load record.page with
      | error fault' => exact (quiet.sameView echoes fun _ => by rw [before, after]; rfl).tuple?_eq
      | ok p =>
        have nothing : db.view? record.page = none := by
          rw [← Option.map_eq_none_iff, view?_nameless echoes, shows, changed, before]
          rfl
        have shown := view?_nameless (echoes.quiet quiet) record.page
        rw [shows, quiet.changed?_eq, changed, after] at shown
        obtain ⟨q, got, same⟩ := Option.map_eq_some_iff.mp shown
        rw [tuple?, tuple?, nothing, got, Option.bind_some, Page.tuple?_congr same,
          quiet.blank_of_load before after]
        rfl

end Quiet

/-! ### What an edit shows -/

section Edit
variable {txn : TxnId} {record : RecordId} {content : Option Tuple} {db db' : Database}
  (edit : Edit txn record content db db')
include edit

private theorem Edit.tuple?_eq {other : RecordId} (different : other ≠ record) :
    db'.tuple? other = db.tuple? other := by
  obtain ⟨old, held, takes, frames⟩ := edit.found
  rw [tuple?, tuple?]
  by_cases here : other.page = record.page
  · have now := frames other.page
    rw [if_pos here] at now
    rw [view?_of_cached now, view?_of_cached (here ▸ held), Option.bind_some, Option.bind_some]
    refine (Page.tuple?_withSlot takes.inside content other.slot).trans (if_neg fun same => different ?_)
    cases other
    cases record
    cases here
    cases same
    rfl
  · have view : db'.view? other.page = db.view? other.page := by
      rw [view?, view?, Cache.page?, Cache.page?, frames, if_neg here, edit.load_eq]
    rw [view]

/-- The slot is found as it was left, in a page that is cached and that the transaction has changed. -/
private theorem Edit.held : ∃ frame, db'.cache.frames[record.page]? = some frame ∧
    frame.page.changedBy = some txn ∧ frame.page.tuple? record.slot = content := by
  obtain ⟨old, -, takes, frames⟩ := edit.found
  refine ⟨_, (frames record.page).trans (if_pos rfl), rfl, ?_⟩
  exact (Page.tuple?_withSlot takes.inside content record.slot).trans (if_pos rfl)

end Edit

/-! ### Insertion -/

section Insertion
variable {db : Database} {txn : TxnId} {tuple : Tuple} {table : Table} {record : RecordId}

private theorem full_of_tryPage {page : PageId} (passed : (db.tryPage txn tuple page).1 = .ok none) :
    db.Full page := by
  obtain ⟨frame, mid, fetched, full⟩ := tryPage_eq_ok passed
  exact ⟨frame.page, view?_of_fetch fetched, full⟩

private theorem firstFree_of_tryPage (keyed : db.cache.Keyed) {page : PageId}
    (done : (db.tryPage txn tuple page).1 = .ok (some record)) : db.FirstFree record := by
  have here := page_of_tryPage keyed done
  subst here
  obtain ⟨frame, mid, fetched, content, inserted⟩ := tryPage_eq_ok done
  obtain ⟨takes, -⟩ := Page.insert_eq_ok inserted
  have free : frame.page.tuple? record.slot = none := by
    simpa using takes.turns
  exact ⟨frame.page, view?_of_fetch fetched, takes.inside, free, Page.used_of_insert inserted⟩

section Pages
variable (keyed : db.cache.Keyed) (echoes : db.Echoes)
include keyed echoes

private theorem full_of_tryPages {position left : Nat}
    (passed : (db.tryPages table txn tuple position left).1 = .ok none) :
    ∀ i, position ≤ i → i < position + left → db.Full (table.pageAt i) := by
  induction left generalizing db position with
  | zero => omega
  | succ left ih =>
    have way := attempt_tryPage (fun _ _ => False) txn tuple keyed (table.pageAt position)
    have first := @full_of_tryPage db txn tuple (table.pageAt position)
    rw [tryPages] at passed
    cases he : db.tryPage txn tuple (table.pageAt position) with
    | mk result mid =>
      rw [he] at passed way first
      rcases result with fault | (_ | found)
      · cases passed
      · intro i behind ahead
        have way := way.approach
        rcases Nat.eq_or_lt_of_le behind with rfl | behind
        · exact first rfl
        · have echoes' := echoes.quiet (way.quiet fun _ _ => False.elim)
          exact (way.sameView echoes _).full (ih (way.keyed keyed) echoes' passed i behind (by omega))
      · cases passed

/-- A tuple goes into the first page that is not full, and there into the first free slot. -/
private theorem firstFree_of_tryPages {position left : Nat}
    (done : (db.tryPages table txn tuple position left).1 = .ok (some record)) :
    db.FirstFree record ∧ ∃ i, position ≤ i ∧ i < position + left ∧ record.page = table.pageAt i ∧
      ∀ j, position ≤ j → j < i → db.Full (table.pageAt j) := by
  induction left generalizing db position with
  | zero => cases done
  | succ left ih =>
    have way := attempt_tryPage (fun _ _ => False) txn tuple keyed (table.pageAt position)
    have passed := @full_of_tryPage db txn tuple (table.pageAt position)
    have here := @firstFree_of_tryPage db txn tuple record keyed (table.pageAt position)
    have own := @page_of_tryPage db txn tuple record keyed (table.pageAt position)
    rw [tryPages] at done
    cases he : db.tryPage txn tuple (table.pageAt position) with
    | mk result mid =>
      rw [he] at done way passed here own
      rcases result with fault | (_ | found)
      · cases done
      · have way := way.approach
        have same := way.sameView echoes
        obtain ⟨first, i, behind, ahead, at_page, full⟩ :=
          ih (way.keyed keyed) (echoes.quiet (way.quiet fun _ _ => False.elim)) done
        refine ⟨(same _).firstFree first, i, by omega, by omega, at_page, fun j reached before => ?_⟩
        rcases Nat.eq_or_lt_of_le reached with rfl | reached
        · exact passed rfl
        · exact (same _).full (full j reached before)
      · exact ⟨here done, position, Nat.le_refl _, by omega, own done, fun j _ _ => by omega⟩

end Pages

private theorem view?_appended (known : db.Knows table) (room : table.pages db.volume < 4294967296)
    (absent : db.cache.frames[table.pageAt (table.pages db.volume)]? = none) :
    ∃ p, (db.appendPage table).2.view? (table.pageAt (table.pages db.volume)) = some p ∧
      (∀ slot, p.tuple? slot = none) ∧ p.freeCount ≠ 0 := by
  obtain ⟨p, loaded, blank, free⟩ := load_appended known room
  refine ⟨p, ?_, blank, free⟩
  rw [view?_of_absent (show (db.appendPage table).2.cache.frames[_]? = none from absent), loaded]
  rfl

/-- Where the page after the last one is not cached, one page is added, and a tuple that goes into it
takes its first slot. -/
private theorem tryAppended_added (keyed : db.cache.Keyed) (echoes : db.Echoes) (known : db.Knows table)
    (room : table.pages db.volume < 4294967296)
    (absent : db.cache.frames[table.pageAt (table.pages db.volume)]? = none) (limit : Nat) :
    (db.tryAppended table txn tuple (table.pages db.volume) (limit + 1)).2.volume =
        (table.append db.volume).2 ∧
      ∀ record, (db.tryAppended table txn tuple (table.pages db.volume) (limit + 1)).1 = .ok record →
        record = ⟨⟨table.id, table.pages db.volume⟩, 0⟩ := by
  have one : table.pages (db.appendPage table).2.volume - table.pages db.volume = 1 := by
    rw [show table.pages (db.appendPage table).2.volume = _ from (table.grown_append room).2,
      Nat.add_sub_cancel_left]
  obtain ⟨p, got, blank, free⟩ := view?_appended known room absent
  have added : Quiet txn db (db.appendPage table).2 := quiet_append ⟨known, room⟩ txn
  have way := attempt_tryPages (fun _ _ => False) txn tuple (added.keyed keyed) table
    (table.pages db.volume) 1
  have passed := @full_of_tryPages (db.appendPage table).2 txn tuple table (added.keyed keyed)
    (echoes.quiet added) (table.pages db.volume) 1
  have placed (record) := @firstFree_of_tryPages (db.appendPage table).2 txn tuple table record
    (added.keyed keyed) (echoes.quiet added) (table.pages db.volume) 1
  simp only [tryAppended, one]
  cases he : (db.appendPage table).2.tryPages table txn tuple (table.pages db.volume) 1 with
  | mk result mid =>
    rw [he] at way passed placed
    rcases result with fault | (_ | found)
    · refine ⟨way.volume_eq, fun record done => ?_⟩
      cases done
    · obtain ⟨q, got', taken⟩ := passed rfl _ (Nat.le_refl _) (Nat.lt_succ_self _)
      cases got.symm.trans got'
      exact absurd taken free
    · refine ⟨way.volume_eq, ?_⟩
      rintro record ⟨⟩
      obtain ⟨⟨q, got', -, -, used⟩, i, behind, ahead, here, -⟩ := placed found rfl
      obtain rfl : i = table.pages db.volume := by omega
      rw [here, got] at got'
      cases got'
      have first : found.slot = 0 := by
        refine Nat.eq_zero_of_not_pos fun later => ?_
        have taken := used 0 later
        rw [blank] at taken
        cases taken
      rw [Table.pageAt, pageNumber_of_lt room] at here
      rw [← here, ← first]

/-! ### First fit -/

/-- Whether a record has the first free slot of a table: it is the first free one of its page, and all
pages before are full. -/
structure FirstFit (db : Database) (table : Table) (record : RecordId) : Prop where
  own : record.page.table = table.id
  existing : record.page.number < table.pages db.volume
  first : db.FirstFree record
  before : ∀ number < record.page.number, db.Full ⟨table.id, number⟩

def AllFull (db : Database) (table : Table) : Prop :=
  ∀ number < table.pages db.volume, db.Full ⟨table.id, number⟩

/-- An insertion that comes to an end leaves the files alone, and takes the first free slot if it is done.
Or all pages are full, and it has added one, of which it takes the first slot if it is done. -/
private theorem insertInto_cases (keyed : db.cache.Keyed) (echoes : db.Echoes)
    (onDisk : ∀ {page : PageId} {frame : Frame}, db.cache.frames[page]? = some frame → db.OnDisk page)
    (known : db.Knows table) (ends : ¬ endless (db.insertInto table txn tuple).1) :
    ((db.insertInto table txn tuple).2.volume = db.volume ∧
      ∀ record, (db.insertInto table txn tuple).1 = .ok record → db.FirstFit table record) ∨
    (db.AllFull table ∧ table.Extended db.volume (db.insertInto table txn tuple).2.volume ∧
      ∀ record, (db.insertInto table txn tuple).1 = .ok record →
        record = ⟨⟨table.id, table.pages db.volume⟩, 0⟩) := by
  rw [insertInto_eq] at ends ⊢
  split
  · rename_i agrees
    rw [if_pos agrees] at ends
    have way := attempt_tryPages (fun _ _ => False) txn tuple keyed table 0 (table.pages db.volume)
    have passed := @full_of_tryPages db txn tuple table keyed echoes 0 (table.pages db.volume)
    have placed (record) := @firstFree_of_tryPages db txn tuple table record keyed echoes 0
      (table.pages db.volume)
    simp only at ends ⊢
    cases he : db.tryPages table txn tuple 0 (table.pages db.volume) with
    | mk result mid =>
      rw [he] at way passed placed ends
      rcases result with fault | (_ | found)
      · refine .inl ⟨way.volume_eq, fun record done => ?_⟩
        cases done
      · right
        have volume := way.volume_eq
        have quiet := way.approach.quiet fun _ _ => False.elim
        have room : table.pages db.volume < 4294967296 := by
          refine Nat.not_le.mp fun full => ends ?_
          rw [← volume] at full ⊢
          exact endless_tryAppended txn tuple full _
        have known' : mid.Knows table := by rwa [Knows, quiet.catalog]
        have onDisk' {page : PageId} {frame : Frame} (cached : mid.cache.frames[page]? = some frame) :
            mid.OnDisk page := by
          rcases quiet.frames page with same | ⟨-, loaded⟩
          · exact (onDisk (same ▸ cached)).of_lengths quiet.catalog fun _ => Nat.le_of_eq (by rw [volume])
          · exact onDisk_of_load (loaded frame cached)
        refine ⟨fun number inside => ?_, ?_⟩
        · have full := passed rfl number (Nat.zero_le _) (by omega)
          rwa [Table.pageAt, pageNumber_of_lt (Nat.lt_trans inside room)] at full
        · rw [← volume] at room ⊢
          obtain ⟨added, first⟩ := tryAppended_added (quiet.keyed keyed) (echoes.quiet quiet) known' room
            (absent_after_end known' room onDisk') _
          exact ⟨added ▸ table.extended_append room, first⟩
      · refine .inl ⟨way.volume_eq, ?_⟩
        rintro record ⟨⟩
        obtain ⟨first, i, -, inside, here, full⟩ := placed found rfl
        have low : found.page.number ≤ i := by
          rw [here]
          exact Nat.mod_le _ _
        refine ⟨here ▸ rfl, by omega, first, fun number before => ?_⟩
        have small : number < 4294967296 := by
          rw [here] at before
          exact Nat.lt_trans before (Nat.mod_lt _ (by decide))
        have taken := full number (Nat.zero_le _) (by omega)
        rwa [Table.pageAt, pageNumber_of_lt small] at taken
  · refine .inl ⟨rfl, fun record done => ?_⟩
    cases done

/-- Whether a database is as an insertion leaves it that is done: the record is the first free slot of the
table, or the first one of a page added behind full ones. It holds the tuple, in a cached page that the
transaction has changed, and all other tuples are as before. -/
structure Inserted (db : Database) (txn : TxnId) (table : Table) (tuple : Tuple) (record : RecordId)
    (db' : Database) : Prop where
  place : (db.FirstFit table record ∧ db'.volume = db.volume) ∨
    (db.AllFull table ∧ record = ⟨⟨table.id, table.pages db.volume⟩, 0⟩ ∧
      table.Extended db.volume db'.volume)
  held : ∃ frame, db'.cache.frames[record.page]? = some frame ∧ frame.page.changedBy = some txn ∧
    frame.page.tuple? record.slot = some { tuple with record := some record }
  others : ∀ other, other ≠ record →
    (db'.tuple? other).map Tuple.nameless = (db.tuple? other).map Tuple.nameless

/-- Whether a database is as an insertion leaves it that is not done: no file has changed, or the table
has a page more as all were full. All tuples are as before. -/
structure NotInserted (db : Database) (id : TableId) (db' : Database) : Prop where
  files : db'.volume = db.volume ∨ ∃ table, db.catalog.table id = .ok table ∧ db.AllFull table ∧
    table.Extended db.volume db'.volume
  others : ∀ other, (db'.tuple? other).map Tuple.nameless = (db.tuple? other).map Tuple.nameless

section Attempt
variable {content : RecordId → Option Tuple} {done : Option RecordId} {db' : Database}

private theorem Attempt.others (h : Attempt db.MayGrow txn content db done db') (echoes : db.Echoes)
    (other : RecordId) (different : ∀ record, done = some record → other ≠ record) :
    (db'.tuple? other).map Tuple.nameless = (db.tuple? other).map Tuple.nameless := by
  obtain ⟨mid, way, edit⟩ := h
  have same := (way.quiet fun _ _ => id).tuple?_eq echoes other
  cases done with
  | none => exact edit ▸ same
  | some record => rw [edit.tuple?_eq (different record rfl), same]

private theorem Attempt.held (h : Attempt db.MayGrow txn content db (some record) db') :
    ∃ frame, db'.cache.frames[record.page]? = some frame ∧ frame.page.changedBy = some txn ∧
      frame.page.tuple? record.slot = content record := by
  obtain ⟨mid, -, edit⟩ := h
  exact edit.held

end Attempt

/-- What an insertion by number into the known table comes to. -/
theorem insert_cases (keyed : db.cache.Keyed) (filed : db.catalog.Filed) (echoes : db.Echoes)
    (onDisk : ∀ {page : PageId} {frame : Frame}, db.cache.frames[page]? = some frame → db.OnDisk page)
    {id : TableId} (ends : ¬ endless (db.insert txn id tuple).1) :
    (∀ record, (db.insert txn id tuple).1 = .ok record →
      ∃ table, db.catalog.table id = .ok table ∧
        Inserted db txn table tuple record (db.insert txn id tuple).2) ∧
    ∀ fault, (db.insert txn id tuple).1 = .error fault →
      NotInserted db id (db.insert txn id tuple).2 := by
  have attempt := attempt_insert db.MayGrow txn tuple keyed id fun table v known may =>
    ⟨by rwa [Knows, filed known], may.resolve_right ends⟩
  rw [insert_eq txn tuple keyed] at ends attempt ⊢
  cases known : db.catalog.table id with
  | error fault =>
    refine ⟨fun record done => ?_, fun _ _ => ⟨.inl rfl, fun _ => rfl⟩⟩
    cases done
  | ok table =>
    have place := @insertInto_cases db txn tuple table keyed echoes onDisk (by rwa [Knows, filed known])
    simp only [known] at ends attempt ⊢
    cases he : db.insertInto table txn tuple with
    | mk result after =>
      simp only [he] at ends attempt place ⊢
      cases result with
      | error fault =>
        refine ⟨fun record done => ?_, fun _ _ => ⟨?_, fun other => ?_⟩⟩
        · cases done
        · rcases place ends with ⟨same, -⟩ | ⟨full, extended, -⟩
          · exact .inl same
          · exact .inr ⟨table, known, full, extended⟩
        · refine attempt.others echoes other fun record done => ?_
          cases done
      | ok done =>
        refine ⟨fun record same => ?done, fun fault failed => ?failed⟩
        case done =>
          cases same
          refine ⟨table, rfl, ?_, attempt.held, fun other different => ?_⟩
          · rcases place Bool.false_ne_true with ⟨same, first⟩ | ⟨full, extended, first⟩
            · exact .inl ⟨first done rfl, same⟩
            · exact .inr ⟨full, first done rfl, extended⟩
          · refine attempt.others echoes other fun record same => ?_
            cases same
            exact different
        case failed => cases failed

end Insertion

end Database

end PagedStore
