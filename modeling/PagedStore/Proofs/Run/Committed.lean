import Mathlib.Data.List.Basic
import PagedStore.Proofs.Run.Progress
import PagedStore.Proofs.Run.Recovery

/-! What is in the files after runs of transactions: the rows that are committed. -/
namespace PagedStore

namespace Database

def Readable (db : Database) : Prop :=
  ∀ ⦃table : Table⦄, db.Knows table → ∀ number < table.pages db.volume,
    ∃ p, db.load ⟨table.id, number⟩ = .ok p

/-- Whether a database has the tables that it had before, all of whose pages can be read and which
have grown only by pages that have numbers of their own. -/
structure Continues (start db : Database) : Prop where
  catalog : db.catalog = start.catalog
  readable : db.Readable
  numbered : ∀ {table : Table}, db.Knows table →
    table.pages db.volume ≤ max (table.pages start.volume) 4294967296

namespace Continues
variable {start db db' : Database}

private theorem quiet (h : start.Continues db) {txn : TxnId} (quiet : Quiet txn db db') :
    start.Continues db' where
  catalog := quiet.catalog.trans h.catalog
  readable table known number inside := by
    rw [Knows, quiet.catalog] at known
    by_cases before : number < table.pages db.volume
    · obtain ⟨p, loaded⟩ := h.readable known number before
      exact ⟨p, quiet.load_of_ok loaded⟩
    · have added : ∃ p, table.load db'.volume ⟨table.id, number⟩ = .ok p ∧ _ :=
        (quiet.grown table known).load_blank rfl (Nat.not_lt.mp before) inside
      obtain ⟨p, loaded, -⟩ := added
      exact ⟨p, load_eq_ok_iff.mpr ⟨table, quiet.catalog ▸ known, loaded⟩⟩
  numbered {table} known := by
    rw [Knows, quiet.catalog] at known
    have before := h.numbered known
    have after := quiet.numbered table known
    omega

private theorem edit (h : start.Continues db) {txn : TxnId} {record : RecordId} {content : Option Tuple}
    (edit : Edit txn record content db db') : start.Continues db' where
  catalog := edit.catalog.trans h.catalog
  readable table known number inside := by
    rw [Knows, edit.catalog] at known
    rw [edit.volume] at inside
    rw [edit.load_eq]
    exact h.readable known number inside
  numbered {table} known := by
    rw [Knows, edit.catalog] at known
    rw [edit.volume]
    exact h.numbered known

private theorem close (h : start.Continues db) {initial : RecordId → Option (List Value)} {l : Ledger}
    (agrees : Agrees initial l db) {txn : TxnId} {order : List PageId}
    (listed : order.Perm (db.cache.dirtyPagesOf txn)) (commit : Bool) :
    start.Continues (db.completeIn txn commit order).2 := by
  have catalog : (db.completeIn txn commit order).2.catalog = db.catalog :=
    (agrees.sound.completed commit listed).catalog
  refine ⟨catalog.trans h.catalog, ?_, ?_⟩
  · intro table known number inside
    rw [Knows, catalog] at known
    rw [agrees.pages_complete listed] at inside
    by_cases mem : (⟨table.id, number⟩ : PageId) ∈ order
    · obtain ⟨new, p, -, -, -, loaded, -⟩ := agrees.settled listed commit mem
      exact ⟨p, loaded⟩
    · rw [agrees.load_complete listed commit mem]
      exact h.readable known number inside
  · intro table known
    rw [Knows, catalog] at known
    rw [agrees.pages_complete listed]
    exact h.numbered known

private theorem step (h : start.Continues db) {initial : RecordId → Option (List Value)} {l : Ledger}
    (agrees : Agrees initial l db) {action : Action} (fits : action.Fits db)
    (ordinary : Ordinary db action (db.perform action).1) :
    start.Continues (db.perform action).2 := by
  rcases agrees.sound.completes_or_moves ordinary.usual ordinary.2 with
    ⟨txn, commit, order, rfl⟩ | moves
  · exact h.close agrees fits commit
  · rcases moves.cases with ⟨-, txn, quiet⟩ | ⟨c, mid, -, quiet, edit⟩
    · exact h.quiet quiet
    · exact (h.quiet quiet).edit edit

end Continues

end Database

private theorem Run.continues {settings : Settings} {volume : Volume} {start db : Database}
    {trace : List (Action × Reply)} (prepared : Prepared settings volume start)
    (readable : start.Readable) (run : Run Ordinary start trace db) : start.Continues db := by
  induction run using Run.inductionOn with
  | first => exact ⟨rfl, readable, fun _ => Nat.le_max_left _ _⟩
  | next earlier _ fits ordinary ih => exact ih.step (earlier.agrees prepared) fits ordinary

private theorem Agrees.contents_eq {initial : RecordId → Option (List Value)} {l : Ledger}
    {db : Database} (h : Agrees initial l db) (readable : db.Readable) {table : Table}
    (known : db.Knows table) {record : RecordId} (here : record.page.table = table.id) :
    db.contents record = l.rows initial record := by
  cases loaded : db.load record.page with
  | ok p =>
    simp only [Database.contents, loaded]
    exact h.disk loaded record.slot
  | error fault =>
    simp only [Database.contents, loaded]
    have by_page : db.catalog.table record.page.table = .ok table := by rw [here, known]
    refine (h.beyond by_page (Nat.not_lt.mp fun inside => ?_) record.slot).symm
    obtain ⟨p, loaded'⟩ := readable known record.page.number inside
    rw [← here, loaded] at loaded'
    cases loaded'

/-- Durability: whatever transactions have done, each can be committed or aborted, and the files hold
the initial rows with the changes of the committed transactions, in the order of the commits. A
database opened anew over the files yields these rows when a table is scanned whose pages have numbers of
their own. This takes it that insertions come to an end, as they do where their tables have page numbers left. -/
theorem committed_rows_kept {settings : Settings} {volume : Volume} {start db : Database}
    {trace : List (Action × Reply)} (prepared : Prepared settings volume start)
    (readable : start.Readable) (run : Run Ordinary start trace db) :
    (∀ (txn : TxnId) (commit : Bool) {order : List PageId},
      order.Perm (db.cache.dirtyPagesOf txn) → (db.completeIn txn commit order).1 = .ok ()) ∧
    (∀ {table : Table}, db.Knows table → ∀ number < table.pages db.volume, ∃ p,
      db.load ⟨table.id, number⟩ = .ok p ∧ ∀ slot, p.row? slot =
        (Ledger.along trace).rows start.contents ⟨⟨table.id, number⟩, slot⟩) ∧
    (∀ {table : Table}, db.Knows table → table.pages start.volume ≤ 4294967296 →
      ∀ {settings' : Settings} {fresh : Database} {table' : Table},
      Prepared settings' db.volume fresh → fresh.Knows table' → table'.id = table.id →
      table'.schema = table.schema → table'.pageSize = table.pageSize → ∀ txn,
      ∃ (s : Scan) (tuples : List Tuple), fresh.scan txn table.id = .ok s ∧
        (s.collect fresh).1 = tuples.map .ok ∧
        Scan.Exhausts tuples table.id ((Ledger.along trace).rows start.contents)) ∧
    ∀ {action : Action}, action.Plain ∨ action.Underway db → action.HasRoom db →
      Ordinary db action (db.perform action).1 := by
  have agrees := run.agrees prepared
  have continues := run.continues prepared readable
  refine ⟨?_, ?_, ?_, fun usual room => ⟨usual, ?_⟩⟩
  · intro txn commit order listed
    exact agrees.complete_ok listed commit
  · intro table known number inside
    obtain ⟨p, loaded⟩ := continues.readable known number inside
    exact ⟨p, loaded, agrees.disk loaded⟩
  · intro table known numbered settings' fresh table' opened known' id schema size txn
    have loads {page : PageId} (here : page.table = table.id) : fresh.load page = db.load page :=
      Database.load_congr known known' id schema size (opened.fresh.2.2.2.2 _) here
    have pages : table'.pages fresh.volume = table.pages db.volume := by
      rw [Table.pages_eq, Table.pages_eq, opened.fresh.2.2.2.2, id, size]
    have few := continues.numbered known
    rw [Nat.max_eq_right numbered, ← pages] at few
    have readable' : ∀ number < table'.pages fresh.volume,
        ∃ p, fresh.load ⟨table'.id, number⟩ = .ok p := by
      intro number inside
      rw [id, loads rfl]
      exact continues.readable known number (pages ▸ inside)
    obtain ⟨s, tuples, scanned, collected, all⟩ := opened.scan known' readable' few txn
    rw [id] at scanned all
    refine ⟨s, tuples, scanned, collected, all.congr ?_⟩
    intro record here
    rw [← agrees.contents_eq continues.readable known here, Database.contents, Database.contents,
      loads here]
  · have unruly : Run Unruly start trace db := run.mono fun ordinary => ⟨.inl ordinary.usual, ordinary.2⟩
    exact unruly.ends prepared (.inl (usual.imp_right .inl)) room

private theorem readable_overMarks {content : Content} (each : ∀ number < content.length,
    ∃ p, (Database.overMarks content).load ⟨0, number⟩ = .ok p) : (Database.overMarks content).Readable := by
  intro table known number inside
  cases Database.eq_of_knows_overMarks content known
  exact each number (by rwa [Database.pages_overMarks] at inside)

private theorem scan_overMarks {content : Content} (long : 4294967296 < content.length)
    (readable : (Database.overMarks content).Readable)
    (row : (Database.overMarks content).contents ⟨⟨0, 0⟩, 0⟩ = some []) : ∃ (s : Scan) (tuples : List Tuple),
      (Database.overMarks content).scan 1 0 = .ok s ∧
      (s.collect (Database.overMarks content)).1 = tuples.map .ok ∧ ¬ (tuples.map Tuple.record).Nodup := by
  have known := Database.knows_overMarks content
  have again : 0 + 4294967296 < Database.marksTable.pages (Database.overMarks content).volume := by
    rwa [Nat.zero_add, Database.pages_overMarks]
  exact (Prepared.overMarks content).scan_again known (readable known) again row 1

/-- In a full table that has used up the page numbers, an insertion that is under way empties a page of committed
rows; and of a table with a page more than that, a scan yields the rows of the first page twice. -/
theorem committed_rows_lost :
    (∃ first trace db i next,
      Prepared { pageSize := 1, cachePages := 1 } (Volume.empty.put 0 Database.allMarks)
        (Database.overMarks Database.allMarks) ∧
      (Database.overMarks Database.allMarks).Readable ∧
      (Database.overMarks Database.allMarks).startInsertion 1 0 Database.mark = .ok first ∧
      Run Ordinary (Database.overMarks Database.allMarks) trace db ∧
      first.Goes (trace ++ [(.advance i, (db.perform (.advance i)).1)]) next ∧
      (Ledger.along (trace ++ [(.advance i, (db.perform (.advance i)).1)])).rows
        (Database.overMarks Database.allMarks).contents ⟨⟨0, 0⟩, 0⟩ = some [] ∧
      (db.perform (.advance i)).2.contents ⟨⟨0, 0⟩, 0⟩ = none) ∧
    ∃ s tuples,
      Prepared { pageSize := 1, cachePages := 1 } (Volume.empty.put 0 Database.oneMark)
        (Database.overMarks Database.oneMark) ∧
      (Database.overMarks Database.oneMark).Readable ∧
      (Database.overMarks Database.oneMark).scan 1 0 = .ok s ∧
      (s.collect (Database.overMarks Database.oneMark)).1 = tuples.map .ok ∧
      ¬ Scan.Exhausts tuples 0 ((Ledger.along []).rows (Database.overMarks Database.oneMark).contents) := by
  constructor
  · obtain ⟨trace, db, i, next, _, new, h⟩ := Database.first_page_emptied
    have readable : (Database.overMarks Database.allMarks).Readable := by
      refine readable_overMarks fun number inside => ?_
      obtain ⟨p, loaded, -⟩ := Database.crowded_allMarks.full number (by rwa [Database.pages_overMarks])
      exact ⟨p, loaded⟩
    refine ⟨_, trace, db, i, next, Prepared.overMarks _, readable, Database.startInsertion_overMarks _ 1,
      h.run.mono And.left, h.goes_on, ?_, ?_⟩
    · rw [h.goes_on.along_eq, Ledger.rows_empty]
      exact contents_allMarks
    · rw [Database.contents_of_load h.emptied, Page.row?, h.blank]
      rfl
  · have inside : 0 < Database.oneMark.length := by
      rw [Database.length_oneMark]
      decide
    have readable : (Database.overMarks Database.oneMark).Readable := by
      refine readable_overMarks fun number inside => ?_
      by_cases first : number = 0
      · obtain ⟨p, loaded, -⟩ := Database.load_oneMark_first
        rw [first]
        exact ⟨p, loaded⟩
      · obtain ⟨q, loaded, -⟩ := Database.load_oneMark_blank first inside
        exact ⟨q, loaded⟩
    have row := contents_overMarks inside (.inr (Database.byte_oneMark 0))
    have long : 4294967296 < Database.oneMark.length := by
      rw [Database.length_oneMark]
      decide
    obtain ⟨s, tuples, scanned, collected, twice⟩ := scan_overMarks long readable row
    exact ⟨s, tuples, Prepared.overMarks _, readable, scanned, collected, fun all => twice all.once⟩

private theorem Prepared.readable_sample : sample.Readable := by
  intro table known number inside
  have blank : (sample.volume.content table.id).length = 0 := by
    rw [of_sample.fresh.2.2.2.2]
    simp [Volume.content, Volume.empty]
  rw [Table.pages_eq, blank, Nat.zero_div] at inside
  exact absurd inside (Nat.not_lt_zero number)

/-- The sample after an insertion that is denied, a commit, and an insertion not committed yet. -/
private def keptSample : Database :=
  ((((Prepared.sample.perform (Prepared.insertion 1 7)).2.perform (Prepared.insertion 2 8)).2.perform
    (.complete 1 true [⟨0, 0⟩])).2.perform (Prepared.insertion 2 9)).2

private def reopenedSample : Database :=
  (Database.createTable ⟨{ pageSize := 16 }, keptSample.volume, .empty, .empty, .empty 50, 1, 0⟩
    (.file 0) ⟨[⟨.int, none⟩]⟩ "numbers" "").2

private def sampleTable : Table :=
  ⟨0, 0, ⟨[⟨.int, none⟩]⟩, 16, by decide⟩

/-- The row that is committed is scanned alone. -/
theorem committed_rows_kept_reopened : ∃ trace s tuples,
    Prepared { pageSize := 16 } .empty Prepared.sample ∧ Prepared.sample.Readable ∧
    Run Ordinary Prepared.sample trace keptSample ∧
    Prepared { pageSize := 16 } keptSample.volume reopenedSample ∧
    reopenedSample.scan 1 0 = .ok s ∧ (s.collect reopenedSample).1 = tuples.map .ok ∧
    Scan.Exhausts tuples 0 ((Ledger.along trace).rows Prepared.sample.contents) := by
  have listed : [⟨0, 0⟩].Perm (((Prepared.sample.perform (Prepared.insertion 1 7)).2.perform
      (Prepared.insertion 2 8)).2.cache.dirtyPagesOf 1) := by decide +kernel
  have run : Run Ordinary Prepared.sample _ keptSample :=
    (((Run.start.next (Prepared.insertion 1 7) rfl ⟨.inl trivial, by decide +kernel⟩).next
      (Prepared.insertion 2 8) rfl ⟨.inl trivial, by decide +kernel⟩).next (.complete 1 true [⟨0, 0⟩])
      listed ⟨.inl trivial, rfl⟩).next (Prepared.insertion 2 9) rfl ⟨.inl trivial, by decide +kernel⟩
  have opened : Prepared { pageSize := 16 } keptSample.volume reopenedSample :=
    .created _ _ _ _ (.opened rfl)
  have known : keptSample.Knows sampleTable :=
    show keptSample.catalog.table 0 = .ok sampleTable by decide +kernel
  have known' : reopenedSample.Knows sampleTable :=
    show reopenedSample.catalog.table 0 = .ok sampleTable by decide +kernel
  have few : sampleTable.pages Prepared.sample.volume ≤ 4294967296 := by decide +kernel
  obtain ⟨s, tuples, scanned, collected, all⟩ :=
    (committed_rows_kept Prepared.of_sample Prepared.readable_sample run).2.2.1 known few opened known'
      rfl rfl rfl 1
  exact ⟨_, s, tuples, Prepared.of_sample, Prepared.readable_sample, run, opened, scanned, collected, all⟩

end PagedStore
