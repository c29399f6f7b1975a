import PagedStore.Proofs.Database.FirstFit
import PagedStore.Proofs.Run.Capacity

/-! Whatever was done before, as long as each table becomes known once and all texts stored are short, an
insertion takes the first free slot of its table, and adds a page only where there is none. -/
namespace PagedStore

namespace Database

/-- Whether a table becomes known, if one does, under a name and a number that are not in use. -/
def Registers (db : Database) : Action → Reply → Prop
  | .attachTable _ _ _ name _, .table (.ok table) =>
    db.catalog.names[name]? = none ∧ db.catalog.entries[table.id]? = none
  | .attachTable .., _ => True
  | _, _ => False

section Registering
variable {db : Database} {action : Action}

/-- A table that becomes known under a name and a number that are not in use touches no page that is
cached. -/
private theorem Mirrored.add (h : db.Mirrored) {table : Table} {name : String}
    (fresh_name : db.catalog.names[name]? = none) (fresh_id : db.catalog.entries[table.id]? = none)
    {v : Volume} (content : ∀ id, v.content id = db.volume.content id) (primaryKey : String)
    (nextTable : Nat) :
    Mirrored { db with
      volume := v
      nextTable := nextTable
      catalog := db.catalog.add table name primaryKey } := by
  have elsewhere {page : PageId} {frame : Frame} (cached : db.cache.frames[page]? = some frame) :
      (db.catalog.add table name primaryKey).table page.table = db.catalog.table page.table := by
    refine Catalog.table_add_of_fresh fresh_name primaryKey fun here => ?_
    obtain ⟨known, found, -⟩ := h.onDisk cached
    obtain ⟨entry, listed, -⟩ := Catalog.table_eq_ok_iff.mp found
    rw [here, fresh_id] at listed
    cases listed
  refine ⟨⟨h.sound.keyed, h.sound.filed.add table name primaryKey, h.sound.locks⟩,
    fun page frame known cached found => h.suited cached ((elsewhere cached).symm.trans found), h.whole,
    fun {page frame} cached => ?_, fun {page frame} cached clean => ?_⟩
  · obtain ⟨known, found, inside⟩ := h.onDisk cached
    refine ⟨known, (elsewhere cached).trans found, ?_⟩
    rwa [Table.pages_eq, content, ← Table.pages_eq]
  · have loaded := h.clean cached clean
    rw [load] at loaded ⊢
    simp only [elsewhere cached, Table.load, Table.file, content] at loaded ⊢
    exact loaded

private theorem Mirrored.register (h : db.Mirrored) (registers : db.Registers action (db.perform action).1) :
    (db.perform action).2.Mirrored := by
  cases action with
  | attachTable place schema pageSize name primaryKey =>
    simp only [Database.perform] at registers ⊢
    rcases db.attachTable_cases place schema pageSize name primaryKey with
      ⟨fault, he⟩ | ⟨table, v, content, he⟩
    · rw [he]
      exact h
    · rw [he] at registers ⊢
      exact h.add registers.1 registers.2 content primaryKey (db.nextTable + 1)
  | _ => exact registers.elim

private theorem Verbatim.register (h : db.Verbatim) (registers : db.Registers action (db.perform action).1) :
    (db.perform action).2.Verbatim := by
  cases action with
  | attachTable place schema pageSize name primaryKey =>
    intro page frame cached
    exact h (db.cache_attachTable place schema pageSize name primaryKey ▸ cached)
  | _ => exact registers.elim

end Registering

/-! ### Short texts -/

namespace Verbatim
variable {db db' : Database}

private theorem of_frames (h : db.Verbatim)
    (frames : ∀ {page : PageId} {frame : Frame}, db'.cache.frames[page]? = some frame →
      ∃ old, db.cache.frames[page]? = some old ∧ frame.page.slots = old.page.slots) :
    db'.Verbatim := by
  intro page frame cached slot
  obtain ⟨old, held, same⟩ := frames cached
  have tuple : frame.page.tuple? slot = old.page.tuple? slot := congrArg (·[slot]?.join) same
  rw [Page.keptRow?, Page.row?, tuple]
  exact h held slot

private theorem dropPage (h : db.Verbatim) (page : PageId) : (db.dropPage page).Verbatim := by
  refine h.of_frames fun {other frame} cached => ⟨frame, ?_, rfl⟩
  rw [Database.dropPage, Cache.frames_drop] at cached
  split at cached
  · cases cached
  · exact cached

private theorem writeOut (h : db.Verbatim) (page : PageId) : (db.writeOut page).2.Verbatim := by
  rw [Database.writeOut]
  split
  · exact h
  · split
    · exact h
    · refine h.of_frames fun {other frame} cached => ?_
      rw [Cache.frames_unpin, Cache.frames_modify] at cached
      split at cached
      · obtain ⟨old, held, rfl⟩ := Option.map_eq_some_iff.mp cached
        exact ⟨old, held, rfl⟩
      · exact ⟨frame, cached, rfl⟩

private theorem commitPage (h : db.Verbatim) (page : PageId) : (db.commitPage page).2.Verbatim :=
  kept_commitPage (h.writeOut page) fun written => written.dropPage page

/-- Whatever transactions do that store short texts only, and whatever is done for the upkeep of the
cache, storage will keep all that is in the cached pages. -/
private theorem perform (h : db.Verbatim) (sound : db.Sound) {action : Action} (fits : action.Fits db)
    (may : Maintained db action (db.perform action).1) (short : action.Short) :
    (db.perform action).2.Verbatim := by
  rcases may with ⟨usual | past, ends⟩ | upkeep
  · exact h.transact sound fits usual ends short
  · cases action with
    | release txn page => exact h
    | mark handle txn =>
      refine h.of_frames fun {page frame} cached => ?_
      simp only [Database.perform, Cache.frames_modifyHeld] at cached
      split at cached
      · obtain ⟨old, held, rfl⟩ := Option.map_eq_some_iff.mp cached
        exact ⟨old, held, rfl⟩
      · exact ⟨frame, cached, rfl⟩
    | _ => exact past.elim
  · cases action with
    | drop page => exact h.dropPage page
    | flush page =>
      simp only [Database.perform, flush]
      split
      · exact h.writeOut page
      · exact h
    | flushTxn txn order => exact kept_forEachPage (fun page h => h.commitPage page) h order
    | flushAll order => exact kept_writeOutAll (fun page h => h.writeOut page) h order
    | _ => exact upkeep.elim

end Verbatim

end Database

/-! ### Runs -/

/-- What transactions do that store short texts only, the upkeep of the cache, and tables becoming known
each once. -/
def Managed (db : Database) (action : Action) (reply : Reply) : Prop :=
  (Maintained db action reply ∨ db.Registers action reply) ∧ action.Short

theorem Run.managed {start db : Database} {trace : List (Action × Reply)}
    (run : Run Managed start trace db) (mirrored : start.Mirrored) (verbatim : start.Verbatim) :
    db.Mirrored ∧ db.Verbatim := by
  induction run using Run.inductionOn with
  | first => exact ⟨mirrored, verbatim⟩
  | next _ action fits may ih =>
    obtain ⟨mirrored, verbatim⟩ := ih
    obtain ⟨maintained | registers, short⟩ := may
    · exact ⟨mirrored.perform fits maintained, verbatim.perform mirrored.sound fits maintained short⟩
    · exact ⟨mirrored.register registers, verbatim.register registers⟩

/-- First fit: whatever was done before, an insertion that is done takes the first free slot of the first
page of the table that is not full, and leaves the files alone. Only where all pages were full, it takes
the first slot of a page of zeros that it has added behind them. The slot holds the tuple, in a cached
page that the transaction has changed, and all other tuples are as before. An insertion that comes to an
end and fails adds a page at most, and only where all pages were full. -/
theorem insertion_first_fit {settings : Settings} {volume : Volume} {start db : Database}
    {trace : List (Action × Reply)} (prepared : Prepared settings volume start)
    (run : Run Managed start trace db) (txn : TxnId) (id : TableId) (tuple : Tuple) :
    (∀ record, (db.insert txn id tuple).1 = .ok record →
      ∃ table, db.catalog.table id = .ok table ∧
        db.Inserted txn table tuple record (db.insert txn id tuple).2) ∧
    ∀ fault, (db.insert txn id tuple).1 = .error fault →
      (db.perform (.insert txn id tuple)).1.ends → db.NotInserted id (db.insert txn id tuple).2 := by
  obtain ⟨mirrored, verbatim⟩ := run.managed prepared.mirrored prepared.verbatim
  have outcome := @Database.insert_cases db txn tuple mirrored.sound.keyed mirrored.sound.filed
    (mirrored.echoes verbatim) mirrored.onDisk id
  refine ⟨fun record done => (outcome ?_).1 record done, fun fault failed ends => ?_⟩
  · rw [done]
    exact Bool.false_ne_true
  · exact (outcome (Reply.not_endless ends)).2 fault failed

private def tablelessSample : Database :=
  ⟨{ pageSize := 16 }, .empty, .empty, .empty, .empty 50, 1, 0⟩

private def numbersRegistered : Action :=
  .attachTable (.file 0) ⟨[⟨.int, none⟩]⟩ 16 "numbers" ""

private def threeInserted : Database :=
  [numbersRegistered, Prepared.insertion 1 7, Prepared.insertion 1 8, Prepared.insertion 1 9].foldl
    (fun db action => (db.perform action).2) tablelessSample

private def filledSample : Database :=
  (threeInserted.perform (.complete 1 true [⟨0, 0⟩])).2

private theorem run_filledSample : ∃ trace, Run Managed tablelessSample trace filledSample := by
  have registers : tablelessSample.Registers numbersRegistered
      (tablelessSample.perform numbersRegistered).1 := by
    constructor <;> decide +kernel
  have inserts {db : Database} (number : Int32)
      (ends : (db.perform (Prepared.insertion 1 number)).1.ends) :
      Managed db (Prepared.insertion 1 number) (db.perform (Prepared.insertion 1 number)).1 :=
    ⟨.inl (.inl ⟨.inl (.inl trivial), ends⟩), Prepared.short_insertion 1 number⟩
  have pending : ∃ trace, Run Managed tablelessSample trace threeInserted :=
    ⟨_, (((Run.start.next numbersRegistered trivial ⟨.inr registers, trivial⟩).next
      (Prepared.insertion 1 7) rfl (inserts 7 (by decide +kernel))).next
      (Prepared.insertion 1 8) rfl (inserts 8 (by decide +kernel))).next
      (Prepared.insertion 1 9) rfl (inserts 9 (by decide +kernel))⟩
  have listed : [PageId.mk 0 0].Perm (threeInserted.cache.dirtyPagesOf 1) := by decide +kernel
  obtain ⟨trace, run⟩ := pending
  exact ⟨_, run.next (.complete 1 true [⟨0, 0⟩]) listed ⟨.inl (.inl ⟨.inl (.inl trivial), rfl⟩), trivial⟩⟩

/-- The next number goes into the first slot of a second page. -/
theorem insertion_first_fit_filled : ∃ trace,
    Prepared { pageSize := 16 } .empty tablelessSample ∧ Run Managed tablelessSample trace filledSample ∧
    filledSample.catalog.table 0 = .ok numbersTable ∧ numbersTable.pages filledSample.volume = 1 ∧
    filledSample.Inserted 2 numbersTable ⟨⟨[⟨.int, none⟩]⟩, [.int 10], none⟩ ⟨⟨0, 1⟩, 0⟩
      (filledSample.insert 2 0 ⟨⟨[⟨.int, none⟩]⟩, [.int 10], none⟩).2 := by
  obtain ⟨trace, run⟩ := run_filledSample
  have prepared : Prepared { pageSize := 16 } .empty tablelessSample := .opened rfl
  have done : (filledSample.insert 2 0 ⟨⟨[⟨.int, none⟩]⟩, [.int 10], none⟩).1 = .ok ⟨⟨0, 1⟩, 0⟩ := by
    decide +kernel
  have known : filledSample.catalog.table 0 = .ok numbersTable := by decide +kernel
  obtain ⟨table, found, inserted⟩ := (insertion_first_fit prepared run 2 0 _).1 _ done
  cases known.symm.trans found
  exact ⟨trace, prepared, run, known, by decide +kernel, inserted⟩

end PagedStore
