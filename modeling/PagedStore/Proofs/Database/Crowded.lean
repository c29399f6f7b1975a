import PagedStore.Proofs.Database.Alone
import PagedStore.Proofs.Database.Search
import PagedStore.Proofs.Database.Underway

/-! Tables all of whose pages are full. An insertion passes over every page; where the page numbers are used up,
the pages that it adds then take the places of old ones, so that it goes on for ever. -/
namespace PagedStore.Database

/-- Where the page numbers are used up, the page that is added takes the place of an old one. -/
theorem load_appendPage_of_full {db : Database} {table : Table} (known : db.Knows table)
    (used : 4294967296 ≤ table.pages db.volume) :
    ∃ p, (db.appendPage table).2.load (table.pageAt (table.pages db.volume)) = .ok p ∧
      (∀ slot, p.tuple? slot = none) ∧ p.freeCount ≠ 0 := by
  obtain ⟨p, loaded, blank⟩ := table.load_append_of_full used
  exact ⟨p, load_eq_ok_iff.mpr ⟨table, known, loaded⟩, blank,
    (table.shown_of_load loaded).2.sound.freeCount_ne_zero blank⟩

/-- Whether all pages of a table are full, nobody has locks, and each cached page is as it is in its file. -/
structure Crowded (table : Table) (db : Database) : Prop where
  undisturbed : ∀ txn, db.Undisturbed txn
  full : ∀ number < table.pages db.volume, ∃ p, db.load ⟨table.id, number⟩ = .ok p ∧ p.freeCount = 0

namespace Crowded
variable {table : Table} {db : Database} (h : db.Crowded table) (txn : TxnId) (tuple : Tuple)
include h

private theorem unlocked (page : PageId) : db.locks.holds txn page = false := by
  rw [Locks.holds, (h.undisturbed (txn + 1)).unlocked (Nat.ne_of_lt (Nat.lt_succ_self txn)) page]
  rfl

private theorem passes (position : Nat) (inside : position < table.pages db.volume) :
    ∃ mid, db.tryPage txn tuple (table.pageAt position) = (.ok none, mid) ∧ mid.Crowded table ∧
      table.pageAt position ∈ mid.cache.frames := by
  obtain ⟨p, loaded, taken⟩ := h.full _ (Nat.lt_of_le_of_lt (Nat.mod_le position 4294967296) inside)
  obtain ⟨frame, mid, fetched, rfl, undisturbed, volume, catalog⟩ := (h.undisturbed txn).fetch loaded .write
  have fetched : db.fetch txn (table.pageAt position) .write = (.ok frame, mid) := fetched
  have passed : db.tryPage txn tuple (table.pageAt position) =
      (.ok none, mid.releasePage txn (table.pageAt position)) := by
    simp only [tryPage, fetched, if_pos taken, h.unlocked txn]
    rfl
  have released := undisturbed.releasePage (table.pageAt position)
  refine ⟨_, passed, ⟨fun other => ⟨⟨released.idle, released.room, fun {holder} _ page => ?_⟩,
    released.faithful⟩, ?_⟩, Cache.mem_frames_of_eq (fetch_eq_ok fetched).1⟩
  · by_cases self : holder = txn
    · have free := (holds_of_full passed page).trans (h.unlocked txn page)
      rw [self]
      exact Option.not_isSome_iff_eq_none.mp (Bool.eq_false_iff.mp free)
    · exact released.unlocked self page
  · simp only [load, releasePage, volume, catalog]
    exact h.full

private theorem tryPages (position : Nat) {left : Nat} (inside : position + left ≤ table.pages db.volume) :
    ∃ mid, db.tryPages table txn tuple position left = (.ok none, mid) ∧ mid.Crowded table ∧
      mid.volume = db.volume := by
  induction left generalizing db position with
  | zero => exact ⟨db, rfl, h, rfl⟩
  | succ left ih =>
    obtain ⟨mid, passed, crowded, -⟩ := h.passes txn tuple position (by omega)
    have volume := db.volume_tryPage txn tuple (table.pageAt position)
    rw [passed] at volume
    obtain ⟨last, rest, crowded', volume'⟩ := ih crowded (position + 1) (by rw [volume]; omega)
    exact ⟨last, by rw [Database.tryPages, passed]; exact rest, crowded', volume'.trans volume⟩

/-- Where the page numbers are used up, an insertion does not come to an end, however many pages it adds. -/
theorem endless_insertWithin (agrees : tuple.schema.agrees table.schema)
    (used : 4294967296 ≤ table.pages db.volume) (limit : Nat) :
    endless (db.insertWithin table txn tuple limit).1 := by
  obtain ⟨mid, passed, -, volume⟩ := h.tryPages txn tuple 0 (Nat.le_of_eq (Nat.zero_add _))
  rw [insertWithin, if_pos agrees]
  simp only [passed]
  rw [← volume] at used ⊢
  exact endless_tryAppended txn tuple used limit

theorem turn (keyed : db.cache.Keyed) {position pages : Nat} (counted : pages = table.pages db.volume)
    (more : position < pages) : ∃ mid, db.takeTurn ⟨table, txn, tuple, position, some pages⟩ =
      (.goesOn ⟨table, txn, tuple, position + 1, some pages⟩, mid) ∧ mid.Crowded table ∧
      table.pageAt position ∈ mid.cache.frames ∧ mid.volume = db.volume ∧ mid.catalog = db.catalog := by
  obtain ⟨mid, passed, crowded, cached⟩ := h.passes txn tuple position (counted ▸ more)
  have way := approach_of_full passed fun _ _ => False
  refine ⟨mid, ?_, crowded, cached, way.volume_eq, way.catalog_eq⟩
  simp only [takeTurn, if_pos more]
  rw [visitNext_of_granted keyed _ ((h.undisturbed txn).granted _ _)]
  simp only [Insertion.page, passed]
  rfl

end Crowded

/-! ### A table of rows without columns -/

/-- A table whose rows have no columns, in pages of a single byte, which have eight slots each. -/
def marksTable : Table :=
  ⟨0, 0, ⟨[]⟩, 1, by decide⟩

/-- A database that was just opened over a file of that table, which it does not know yet. One page may be cached. -/
def openedOver (content : Content) : Database :=
  ⟨{ pageSize := 1, cachePages := 1 }, Volume.empty.put 0 content, .empty, .empty, .empty 1, 1, 0⟩

def overMarks (content : Content) : Database :=
  ((openedOver content).createTable (.file 0) ⟨[]⟩ "marks" "").2

section Marks
variable (content : Content)

private theorem openAt_marks (v : Volume) :
    Table.openAt v 0 (.file 0) ⟨[]⟩ 1 = .ok (marksTable, v.put 0 (v.content 0)) :=
  rfl

private theorem overMarks_eq : overMarks content =
    ⟨{ pageSize := 1, cachePages := 1 },
      (Volume.empty.put 0 content).put 0 ((Volume.empty.put 0 content).content 0),
      Catalog.empty.add marksTable "marks" "", .empty, .empty 1, 1, 1⟩ := by
  simp only [overMarks, openedOver, createTable, attachTable, openTable, openAt_marks]

theorem knows_overMarks : (overMarks content).Knows marksTable := by
  rw [overMarks_eq]
  exact Catalog.empty.table_add_self marksTable "marks" ""

theorem eq_of_knows_overMarks {table : Table} (known : (overMarks content).Knows table) :
    table = marksTable := by
  rw [overMarks_eq] at known
  rcases Catalog.table_of_add known with ⟨-, same⟩ | ⟨-, before⟩
  · exact same
  · cases before

private theorem content_overMarks : (overMarks content).volume.content 0 = content := by
  rw [overMarks_eq, Volume.content_put, if_pos rfl, Volume.content_put, if_pos rfl]

theorem pages_overMarks : marksTable.pages (overMarks content).volume = content.length := by
  rw [Table.pages_eq, show marksTable.id = 0 from rfl, content_overMarks]
  exact Nat.div_one _

/-- The byte of a page tells which of its slots have a row. -/
theorem load_overMarks {number : Nat} (inside : number < content.length) :
    (overMarks content).load ⟨0, number⟩ = Page.ofImage ⟨0, number⟩ ⟨[]⟩ [content.byte number] := by
  have within : number < marksTable.pages (overMarks content).volume := by rwa [pages_overMarks]
  have known : (overMarks content).catalog.table 0 = .ok marksTable := knows_overMarks content
  have image : marksTable.imageAt (overMarks content).volume number = [content.byte number] := by
    rw [Table.imageAt, show marksTable.id = 0 from rfl, content_overMarks, Content.read,
      show marksTable.pageSize = 1 from rfl, Nat.mul_one, Nat.min_eq_left (by omega)]
    rfl
  simp only [load, known]
  rw [marksTable.load_eq _ rfl, if_pos within, image]
  rfl

theorem uncached_overMarks (page : PageId) : (overMarks content).cache.frames[page]? = none := by
  rw [overMarks_eq, Cache.frames_empty]

theorem undisturbed_overMarks (txn : TxnId) : (overMarks content).Undisturbed txn := by
  have alone : (overMarks content).Alone txn := by
    rw [overMarks_eq]
    exact ⟨.empty 1, Nat.succ_pos _, fun _ page => Locks.mode?_empty _ page⟩
  refine ⟨alone, fun {page frame} cached => ?_⟩
  cases (uncached_overMarks content page).symm.trans cached

private theorem crowded_overMarks (set : ∀ number < content.length, content.byte number = 0xff) :
    (overMarks content).Crowded marksTable where
  undisturbed := undisturbed_overMarks content
  full number inside := by
    rw [pages_overMarks] at inside
    rw [show marksTable.id = 0 from rfl, load_overMarks content inside, set number inside]
    exact ⟨_, rfl, rfl⟩

end Marks

def mark : Tuple :=
  ⟨⟨[]⟩, [], none⟩

theorem startInsertion_overMarks (content : Content) (txn : TxnId) :
    (overMarks content).startInsertion txn 0 mark = .ok ⟨marksTable, txn, mark, 0, none⟩ := by
  rw [startInsertion, show (overMarks content).catalog.table 0 = .ok marksTable from knows_overMarks content]
  rfl

/-- A file of that table that has used up the page numbers, in which all bits are set. -/
def allMarks : Content :=
  Content.empty.overwrite 0 (List.replicate 4294967296 0xff)

theorem length_allMarks : allMarks.length = 4294967296 := by
  have some_bytes : List.replicate 4294967296 (0xff : UInt8) ≠ [] :=
    List.ne_nil_of_length_pos (by rw [List.length_replicate]; decide)
  rw [allMarks, Content.length_overwrite, if_neg some_bytes, List.length_replicate, Content.length_empty]
  rfl

theorem byte_allMarks {number : Nat} (inside : number < allMarks.length) : allMarks.byte number = 0xff := by
  rw [length_allMarks] at inside
  rw [allMarks, Content.byte_overwrite, if_neg (Nat.not_lt_zero number), Nat.sub_zero,
    List.getElem?_replicate_of_lt inside]
  rfl

theorem crowded_allMarks : (overMarks allMarks).Crowded marksTable :=
  crowded_overMarks allMarks fun _ => byte_allMarks

/-- A file of rows without columns with a page more than there are page numbers, where only the first page has a
row. -/
def oneMark : Content :=
  (Content.empty.put 0 1).padTo 4294967297

theorem length_oneMark : oneMark.length = 4294967297 :=
  rfl

theorem byte_oneMark (number : Nat) : oneMark.byte number = if number = 0 then 1 else 0 := by
  rw [oneMark, Content.byte_padTo, Content.byte_put, Content.byte_empty]

theorem load_oneMark_first : ∃ p, (overMarks oneMark).load ⟨0, 0⟩ = .ok p ∧
    p.tuples = [⟨⟨[]⟩, [], some ⟨⟨0, 0⟩, 0⟩⟩] := by
  rw [load_overMarks oneMark (by rw [length_oneMark]; decide), byte_oneMark, if_pos rfl]
  exact ⟨_, rfl, rfl⟩

theorem load_oneMark_blank {number : Nat} (other : number ≠ 0) (inside : number < oneMark.length) :
    ∃ p, (overMarks oneMark).load ⟨0, number⟩ = .ok p ∧ p.tuples = [] := by
  rw [load_overMarks oneMark inside, byte_oneMark, if_neg other]
  exact ⟨_, rfl, rfl⟩

end PagedStore.Database
