import Mathlib.Data.List.Basic
import PagedStore.Proofs.Page.Nameless
import PagedStore.Proofs.Run.NoSteal
import PagedStore.Proofs.Run.Recovery
import PagedStore.Proofs.Run.Schemas

/-! A clean cached page is as the page in its file, apart from what storage cuts off texts. So scans
yield the same rows from cached pages and from pages that are read again. -/
namespace PagedStore

def Tuple.keptIn (schema : Schema) (tuple : Tuple) : Tuple :=
  { tuple.stored with schema := schema }

private theorem Tuple.IsShort.same_keptIn {tuple : Tuple} (short : tuple.IsShort) {schema : Schema}
    (agrees : tuple.schema.agrees schema) : tuple.Same (tuple.keptIn schema) := by
  have kept : (tuple.keptIn schema).values = tuple.values := short.row_eq
  refine ⟨rfl, ?_⟩
  rw [sameRow, kept, beq_self_eq_true, Bool.and_true]
  exact agrees

private theorem Page.tuples_stored (p : Page) : p.stored.tuples = p.tuples.map (Tuple.keptIn p.schema) := by
  simp only [tuples, stored, List.filterMap_map, List.map_filterMap]
  rfl

/-! ### The cache and the files -/

namespace Database

/-- Whether each cached page is one that a known table has, in the table's schema, and each clean one
is read from the file as storage keeps it. -/
structure Mirrored (db : Database) : Prop where
  sound : db.Sound
  suited : db.Suited
  whole : ∀ {page : PageId} {frame : Frame}, db.cache.frames[page]? = some frame → frame.page.Sound
  onDisk : ∀ {page : PageId} {frame : Frame}, db.cache.frames[page]? = some frame → db.OnDisk page
  clean : ∀ {page : PageId} {frame : Frame}, db.cache.frames[page]? = some frame →
    frame.page.changedBy = none → db.load page = .ok frame.page.stored

/-- What a page that was read shows is what storage keeps of it. -/
theorem kept_of_load {db : Database} {page : PageId} {p : Page} (loaded : db.load page = .ok p) :
    p.Sound ∧ p.stored = p := by
  obtain ⟨table, -, read⟩ := load_eq_ok_iff.mp loaded
  have shown := (table.shown_of_load read).2
  exact ⟨shown.sound, shown.kept⟩

private theorem Quiet.inherits {txn : TxnId} {db db' : Database} (h : Quiet txn db db') : Inherits db db' := by
  refine ⟨h.catalog, fun {page frame} cached => ?_⟩
  rcases h.frames page with same | ⟨-, loaded⟩
  · exact .inl ⟨frame, same ▸ cached, rfl, rfl⟩
  · obtain ⟨table, known, suits⟩ := suits_of_load (loaded frame cached)
    exact .inr ⟨table, h.catalog ▸ known, suits⟩

namespace Mirrored
variable {db db' : Database}

private theorem quiet (h : db.Mirrored) {txn : TxnId} (quiet : Quiet txn db db') : db'.Mirrored where
  sound := h.sound.of_quiet quiet
  suited := quiet.inherits.suited h.suited
  whole {page frame} cached := by
    rcases quiet.frames page with same | ⟨-, loaded⟩
    · exact h.whole (same ▸ cached)
    · exact (kept_of_load (loaded frame cached)).1
  onDisk {page frame} cached := by
    rcases quiet.frames page with same | ⟨-, loaded⟩
    · exact (h.onDisk (same ▸ cached)).quiet h.sound.filed quiet
    · exact onDisk_of_load (loaded frame cached)
  clean {page frame} cached clean := by
    rcases quiet.frames page with same | ⟨-, loaded⟩
    · exact quiet.load_of_ok (h.clean (same ▸ cached) clean)
    · rw [(kept_of_load (loaded frame cached)).2]
      exact loaded frame cached

private theorem edit (h : db.Mirrored) {txn : TxnId} {record : RecordId} {content : Option Tuple}
    (edit : Edit txn record content db db')
    (typed : ∀ tuple, content = some tuple → tuple.IsTyped) : db'.Mirrored where
  sound := h.sound.of_edit edit
  suited := edit.inherits.suited h.suited
  whole {page frame} cached := by
    rcases edit.cached_cases cached with ⟨-, before⟩ | ⟨old, -, held, takes, rfl⟩
    · exact h.whole before
    · exact ((h.whole held).withSlot takes typed).changed txn
  onDisk {page frame} cached := by
    have before : db.OnDisk page := by
      rcases edit.cached_cases cached with ⟨-, before⟩ | ⟨old, rfl, held, -⟩
      · exact h.onDisk before
      · exact h.onDisk held
    exact before.of_lengths edit.catalog fun file => Nat.le_of_eq (by rw [edit.volume])
  clean {page frame} cached clean := by
    rw [edit.load_eq]
    rcases edit.cached_cases cached with ⟨-, before⟩ | ⟨old, -, -, -, rfl⟩
    · exact h.clean before clean
    · cases clean

private theorem of_confined (h : db.Mirrored) {page : PageId}
    (confined : Confined [page] db db' ∧ db'.cache.Keyed) (suited : db'.Suited)
    (own : ∀ frame, db'.cache.frames[page]? = some frame → frame.page.Sound ∧ db'.OnDisk page ∧
      (frame.page.changedBy = none → db'.load page = .ok frame.page.stored)) : db'.Mirrored where
  sound := h.sound.of_confined confined
  suited := suited
  whole {id frame} cached := by
    by_cases here : id = page
    · exact (own frame (here ▸ cached)).1
    · exact h.whole ((confined.1.frames id (by simpa using here)).symm.trans cached)
  onDisk {id frame} cached := by
    by_cases here : id = page
    · exact here ▸ (own frame (here ▸ cached)).2.1
    · exact (h.onDisk ((confined.1.frames id (by simpa using here)).symm.trans cached)).of_lengths
        confined.1.catalog confined.1.lengths
  clean {id frame} cached clean := by
    by_cases here : id = page
    · exact here ▸ (own frame (here ▸ cached)).2.2 clean
    · have outside : id ∉ [page] := by simpa using here
      exact confined.1.load_of_ok h.sound.filed outside
        (h.clean ((confined.1.frames id outside).symm.trans cached) clean)

private theorem dropPage (h : db.Mirrored) (page : PageId) : (db.dropPage page).Mirrored := by
  refine h.of_confined ⟨db.confined_dropPage page, keyed_drop h.sound.keyed page⟩
    ((db.inherits_dropPage page).suited h.suited) fun frame cached => ?_
  rw [Database.dropPage, Cache.frames_drop, if_pos rfl] at cached
  cases cached

private theorem commitPage (h : db.Mirrored) (page : PageId) : (db.commitPage page).2.Mirrored := by
  have confined := confined_commitPage page h.sound.filed h.sound.keyed
  refine h.of_confined confined ((db.inherits_commitPage page).suited h.suited) fun frame cached => ?_
  cases held : db.cache.frames[page]? with
  | none =>
    rw [commitPage_of_absent held, held] at cached
    cases cached
  | some old =>
    have alone : ([] ++ page :: []).Nodup := by simp
    rcases (commit_turn h.sound.filed h.sound.keyed alone held).2 with
      ⟨-, -, gone⟩ | ⟨v, -, kept, has⟩
    · rw [show (forEachPage Database.commitPage db ([] ++ page :: [])).2 = (db.commitPage page).2
        from rfl, cached] at gone
      cases gone
    · rw [show (forEachPage Database.commitPage db ([] ++ page :: [])).2 = (db.commitPage page).2
        from rfl] at kept has
      rw [cached] at kept
      cases kept
      have whole := h.whole held
      have own := h.sound.keyed held
      refine ⟨whole.cleaned, HasImage.onDisk has, fun _ => ?_⟩
      obtain ⟨table, known, loaded⟩ := HasImage.load_eq (confined.1.catalog ▸ h.sound.filed) has
      rw [confined.1.catalog] at known
      rw [loaded, ← (h.suited held known).1, ← own, whole.ofImage_image]
      rfl

private theorem revertPage (h : db.Mirrored) (page : PageId) : (db.revertPage page).2.Mirrored := by
  have confined := confined_revertPage page h.sound.filed h.sound.keyed
  refine h.of_confined confined ((db.inherits_revertPage page).suited h.suited) fun frame cached => ?_
  rcases db.revertPage_cases page with ⟨p, loaded, he⟩ | ⟨fault, -, he⟩
  · rw [he] at cached ⊢
    rw [Cache.frames_unpin, Cache.frames_modify, if_pos rfl] at cached
    obtain ⟨old, -, rfl⟩ := Option.map_eq_some_iff.mp cached
    obtain ⟨whole, kept⟩ := kept_of_load loaded
    refine ⟨whole, onDisk_of_load loaded, fun _ => ?_⟩
    show db.load page = .ok p.stored
    rw [kept, loaded]
  · rw [he, Database.dropPage, Cache.frames_drop, if_pos rfl] at cached
    cases cached

private theorem writeOut (h : db.Mirrored) (page : PageId) : (db.writeOut page).2.Mirrored := by
  have written := h.commitPage page
  rw [Database.commitPage] at written
  cases he : db.writeOut page with
  | mk result after =>
    rw [he] at written
    cases result with
    | ok done => exact written
    | error fault =>
      rw [Database.writeOut] at he
      split at he
      · cases he
      · split at he
        · cases he
          exact h
        · cases he

private theorem flushPages (h : db.Mirrored) (pages : List PageId) :
    (forEachPage Database.commitPage db pages).2.Mirrored :=
  kept_forEachPage (motive := Mirrored) (fun page h => h.commitPage page) h pages

private theorem revertPages (h : db.Mirrored) (pages : List PageId) :
    (forEachPage Database.revertPage db pages).2.Mirrored :=
  kept_forEachPage (motive := Mirrored) (fun page h => h.revertPage page) h pages

private theorem writeOutAll (h : db.Mirrored) (pages : List PageId) : (db.writeOutAll pages).2.Mirrored :=
  kept_writeOutAll (motive := Mirrored) (fun page h => h.writeOut page) h pages

private theorem of_locks (h : db.Mirrored) {locks : Locks} (sound : locks.Sound) :
    Mirrored { db with locks := locks } :=
  ⟨⟨h.sound.keyed, h.sound.filed, sound⟩, h.suited, h.whole, h.onDisk, h.clean⟩

private theorem completeIn (h : db.Mirrored) (txn : TxnId) (commit : Bool) (pages : List PageId) :
    (db.completeIn txn commit pages).2.Mirrored := by
  have visited : (Database.forEachPage (if commit then Database.commitPage else Database.revertPage)
      db pages).2.Mirrored := by
    cases commit with
    | true => exact h.flushPages pages
    | false => exact h.revertPages pages
  exact visited.of_locks (visited.sound.locks.forget txn)

private theorem mark (h : db.Mirrored) (handle : Handle) (txn : TxnId) :
    (db.perform (.mark handle txn)).2.Mirrored := by
  have cases_of {page : PageId} {frame : Frame}
      (cached : (db.perform (.mark handle txn)).2.cache.frames[page]? = some frame) :
      db.cache.frames[page]? = some frame ∨ ∃ old, db.cache.frames[page]? = some old ∧
        frame = { old with page := old.page.changed txn } := by
    simp only [Database.perform, Cache.frames_modifyHeld] at cached
    split at cached
    · obtain ⟨old, held, rfl⟩ := Option.map_eq_some_iff.mp cached
      exact .inr ⟨old, held, rfl⟩
    · exact .inl cached
  refine ⟨h.sound.perform trivial, h.suited.perform h.sound.keyed trivial, ?_, ?_, ?_⟩
  · intro page frame cached
    rcases cases_of cached with before | ⟨old, held, rfl⟩
    · exact h.whole before
    · exact (h.whole held).changed txn
  · intro page frame cached
    rcases cases_of cached with before | ⟨old, held, rfl⟩
    · exact h.onDisk before
    · exact h.onDisk held
  · intro page frame cached clean
    rcases cases_of cached with before | ⟨old, -, rfl⟩
    · exact h.clean before clean
    · cases clean

end Mirrored

end Database

/-! ### Runs -/

/-- What looks after the cache past the transactions: pages are taken out of it or written. -/
def Action.Upkeep : Action → Prop
  | .drop _ => True
  | .flush _ => True
  | .flushTxn _ _ => True
  | .flushAll _ => True
  | _ => False

/-- Everything that transactions may do, also past the database's locks, and the upkeep of the cache. -/
def Maintained (db : Database) (action : Action) (reply : Reply) : Prop :=
  Unruly db action reply ∨ action.Upkeep

namespace Database.Mirrored
variable {db : Database}

private theorem transact (h : db.Mirrored) {action : Action} (fits : action.Fits db)
    (usual : action.Usual db) (ends : (db.perform action).1.ends) :
    (db.perform action).2.Mirrored := by
  rcases h.sound.completes_or_moves usual ends with ⟨txn, commit, order, rfl⟩ | moves
  · exact h.completeIn txn commit order
  · rcases moves.cases with ⟨-, txn, quiet⟩ | ⟨c, mid, made, quiet, edit⟩
    · exact h.quiet quiet
    · exact (h.quiet quiet).edit edit (Change.typed_of_fits fits made)

/-- Whatever transactions do, and whatever is done for the upkeep of the cache, leaves it in step with
the files. -/
theorem perform (h : db.Mirrored) {action : Action} (fits : action.Fits db)
    (may : Maintained db action (db.perform action).1) : (db.perform action).2.Mirrored := by
  rcases may with ⟨usual | past, ends⟩ | upkeep
  · exact h.transact fits usual ends
  · cases action with
    | release txn page => exact h.of_locks (h.sound.locks.release txn page)
    | mark handle txn => exact h.mark handle txn
    | _ => exact past.elim
  · cases action with
    | drop page => exact h.dropPage page
    | flush page =>
      simp only [Database.perform, flush]
      split
      · exact h.writeOut page
      · exact h
    | flushTxn txn order => exact h.flushPages order
    | flushAll order => exact h.writeOutAll order
    | _ => exact upkeep.elim

end Database.Mirrored

theorem Prepared.mirrored {settings : Settings} {volume : Volume} {db : Database}
    (h : Prepared settings volume db) : db.Mirrored := by
  have nothing {page : PageId} {frame : Frame} : db.cache.frames[page]? ≠ some frame := by
    rw [h.uncached]
    rintro ⟨⟩
  refine ⟨h.sound, ?_, fun cached => absurd cached nothing, fun cached => absurd cached nothing,
    fun cached => absurd cached nothing⟩
  intro page frame table cached
  exact absurd cached nothing

theorem Run.mirrored {start db : Database} {trace : List (Action × Reply)}
    (run : Run Maintained start trace db) (mirrored : start.Mirrored) : db.Mirrored := by
  induction run using Run.inductionOn with
  | first => exact mirrored
  | next _ _ fits may ih => exact ih.perform fits may

/-! ### Scans -/

/-- Pages read in turn are as those cached before and those in the files are. -/
theorem Database.Reads.holds {table : Table} {txn : TxnId} {db db' : Database} {position : Nat}
    {shown : List Page} (reads : Reads table txn db position shown db') {P : PageId → Page → Prop}
    (cached : ∀ {page : PageId} {frame : Frame}, page.table = table.id →
      db.cache.frames[page]? = some frame → P page frame.page)
    (loaded : ∀ {page : PageId} {p : Page}, db.load page = .ok p → P page p) :
    ∀ i p, shown[i]? = some p → P (table.pageAt (position + i)) p := by
  induction reads with
  | done => nofun
  | @page db mid db' position frame shown fetched _ ih =>
    have quiet := quiet_fetch db txn (table.pageAt position) .read
    have same := db.load_fetch txn (table.pageAt position) .read
    rw [fetched] at quiet same
    intro i p listed
    cases i with
    | zero =>
      cases listed
      rcases (fetch_eq_ok fetched).2.2 with before | ⟨-, read⟩
      · exact cached rfl before
      · exact loaded read
    | succ i =>
      rw [Nat.add_comm i, ← Nat.add_assoc]
      refine ih (fun {page frame} own held => ?_) (fun {page p} read => loaded (same page ▸ read)) i p listed
      rcases quiet.frames page with unchanged | ⟨-, read⟩
      · exact cached own (unchanged ▸ held)
      · exact loaded (same page ▸ read frame held)

/-- Whether a table is opened again as it is in a database, over the same file, where none of its pages
is cached. -/
structure Database.Rereads (db : Database) (table : Table) (db' : Database) (table' : Table) :
    Prop where
  known : db'.Knows table'
  id : table'.id = table.id
  schema : table'.schema = table.schema
  size : table'.pageSize = table.pageSize
  content : db'.volume.content table.id = db.volume.content table.id
  uncached : ∀ page : PageId, page.table = table.id → db'.cache.frames[page]? = none

namespace Database.Rereads
variable {db db' : Database} {table table' : Table} (h : db.Rereads table db' table')
include h

private theorem pages_eq : table'.pages db'.volume = table.pages db.volume := by
  rw [Table.pages_eq, Table.pages_eq, h.id, h.size, h.content]

private theorem load_pageAt (known : db.Knows table) (position : Nat) :
    db'.load (table'.pageAt position) = db.load (table.pageAt position) := by
  rw [show table'.pageAt position = table.pageAt position from congrArg (PageId.mk · _) h.id]
  exact load_congr known h.known h.id h.schema h.size h.content rfl

end Database.Rereads

section Rescan
open Database
variable {db db' : Database} {table table' : Table} {txn txn' : TxnId} {tuples tuples' : List Tuple}

private theorem Scan.shown_of_collect (scanned : ((ofTable table txn).start.collect db).1 = tuples.map .ok)
    {P : PageId → Page → Prop}
    (cached : ∀ {page : PageId} {frame : Frame}, page.table = table.id →
      db.cache.frames[page]? = some frame → P page frame.page)
    (loaded : ∀ {page : PageId} {p : Page}, db.load page = .ok p → P page p) :
    ∃ shown : List Page, shown.length = table.pages db.volume ∧ tuples = shown.flatMap Page.tuples ∧
      ∀ i p, shown[i]? = some p → P (table.pageAt i) p := by
  obtain ⟨shown, reads, count, same, -⟩ := reads_of_collectPages scanned
  refine ⟨shown, count, same, fun i p listed => ?_⟩
  rw [← Nat.zero_add i]
  exact reads.holds cached loaded i p listed

/-- A page is read from the file as it is shown while it is clean, apart from what storage cuts off. -/
private theorem Database.Mirrored.shown_of_collect (h : db.Mirrored) (known : db.Knows table)
    (settled : ∀ {page : PageId} {frame : Frame}, page.table = table.id →
      db.cache.frames[page]? = some frame → frame.page.changedBy = none)
    (scanned : ((Scan.ofTable table txn).start.collect db).1 = tuples.map .ok) :
    ∃ shown : List Page, shown.length = table.pages db.volume ∧ tuples = shown.flatMap Page.tuples ∧
      ∀ i p, shown[i]? = some p →
        p.Sound ∧ p.schema = table.schema ∧ db.load (table.pageAt i) = .ok p.stored := by
  obtain ⟨shown, count, same, each⟩ := Scan.shown_of_collect scanned
    (P := fun page p => p.Sound ∧ db.load page = .ok p.stored)
    (fun own cached => ⟨h.whole cached, h.clean cached (settled own cached)⟩)
    (fun loaded => ⟨(kept_of_load loaded).1, by rw [(kept_of_load loaded).2, loaded]⟩)
  refine ⟨shown, count, same, fun i p listed => ?_⟩
  obtain ⟨whole, loaded⟩ := each i p listed
  obtain ⟨table', known', suits⟩ := suits_of_load loaded
  rw [show db.catalog.table (table.pageAt i).table = .ok table from known] at known'
  cases known'
  exact ⟨whole, suits.1, loaded⟩

variable (mirrored : db.Mirrored) (known : db.Knows table)
  (settled : ∀ {page : PageId} {frame : Frame}, page.table = table.id →
    db.cache.frames[page]? = some frame → frame.page.changedBy = none)
  (scanned : ((Scan.ofTable table txn).start.collect db).1 = tuples.map .ok)
  (again : db.Rereads table db' table')
include mirrored known settled scanned again

private theorem rescan_eq
    (rescanned : ((Scan.ofTable table' txn').start.collect db').1 = tuples'.map .ok) :
    tuples' = tuples.map (Tuple.keptIn table.schema) := by
  obtain ⟨shown, count, rfl, each⟩ := mirrored.shown_of_collect known settled scanned
  obtain ⟨shown', count', rfl, each'⟩ := Scan.shown_of_collect rescanned
    (P := fun page p => db'.load page = .ok p) (fun own cached => by
      rw [again.uncached _ (own.trans again.id)] at cached
      cases cached) id
  have same : shown' = shown.map Page.stored := by
    apply List.ext_getElem
    · rw [List.length_map, count, count', again.pages_eq]
    · intro i inside inside'
      rw [List.length_map] at inside'
      have read := each' i _ (List.getElem?_eq_getElem inside)
      rw [again.load_pageAt known, (each i _ (List.getElem?_eq_getElem inside')).2.2] at read
      rw [List.getElem_map]
      exact (Except.ok.inj read).symm
  rw [same, List.flatMap_map, List.map_flatMap]
  refine List.flatMap_congr fun p listed => ?_
  obtain ⟨i, inside⟩ := List.mem_iff_getElem?.mp listed
  rw [Page.tuples_stored, (each i p inside).2.1]

private theorem rescan_ok (alone : db'.Alone txn') :
    ∃ tuples' : List Tuple, ((Scan.ofTable table' txn').start.collect db').1 = tuples'.map .ok := by
  obtain ⟨shown, count, -, each⟩ := mirrored.shown_of_collect known settled scanned
  refine Scan.collectPages_alone (Scan.ofTable table' txn').start alone (table'.pages db'.volume)
    fun i inside => ?_
  rw [again.pages_eq, ← count] at inside
  have read := (each i _ (List.getElem?_eq_getElem inside)).2.2
  refine ⟨_, (?_ : db'.load (table'.pageAt (0 + i)) = _).trans read⟩
  rw [Nat.zero_add, again.load_pageAt known]

omit again in
private theorem rescan_same (short : ∀ tuple ∈ tuples, tuple.IsShort) :
    List.Forall₂ Tuple.Same tuples (tuples.map (Tuple.keptIn table.schema)) := by
  obtain ⟨shown, -, rfl, each⟩ := mirrored.shown_of_collect known settled scanned
  rw [List.forall₂_map_right_iff, List.forall₂_same]
  intro tuple listed
  obtain ⟨page, among, held⟩ := List.mem_flatMap.mp listed
  obtain ⟨i, inside⟩ := List.mem_iff_getElem?.mp among
  obtain ⟨whole, schema, -⟩ := each i page inside
  obtain ⟨slot, here⟩ := Page.mem_tuples.mp held
  exact (short tuple listed).same_keptIn (schema ▸ (whole.typed here).2.1)

end Rescan

def storedSample : Database :=
  ((Prepared.sample.perform (Prepared.insertion 1 7)).2.perform (.complete 1 true [⟨0, 0⟩])).2

private theorem slotCount_numbers_pos : 0 < Layout.slotCount 16 ⟨[⟨.int, none⟩]⟩ := by
  decide

def numbersTable : Table :=
  ⟨0, 0, ⟨[⟨.int, none⟩]⟩, 16, slotCount_numbers_pos⟩

private def textSample : Database :=
  (Database.createTable ⟨{ pageSize := 256 }, .empty, .empty, .empty, .empty 50, 1, 0⟩ (.file 0)
    ⟨[⟨.text, none⟩]⟩ "texts" "").2

private def textTable : Table :=
  ⟨0, 0, ⟨[⟨.text, none⟩]⟩, 256, by decide⟩

private def longRow (length : Nat) : List Value :=
  [.text (String.ofList (List.replicate length 'x'))]

private def longInsertion : Action :=
  .insert 1 0 ⟨⟨[⟨.text, none⟩]⟩, longRow 129, none⟩

end PagedStore
