import PagedStore.Proofs.Database.Completion
import PagedStore.Proofs.Database.Faults
import PagedStore.Proofs.Database.Quiet

/-! Insertions come to an end where there are page numbers left, and deletions always do. -/
namespace PagedStore

namespace Page

/-- A page without tuples has a free slot. -/
theorem Sound.freeCount_ne_zero {p : Page} (h : p.Sound) (blank : ∀ slot, p.tuple? slot = none) :
    p.freeCount ≠ 0 := by
  intro taken
  have first := List.countP_eq_zero.mp taken _ (List.getElem_mem h.pos)
  have nothing := blank 0
  rw [tuple?, List.getElem?_eq_getElem h.pos] at nothing
  exact first (Option.isNone_iff_eq_none.mpr nothing)

private theorem insert_ne_full {p : Page} (free : p.freeCount ≠ 0) {tuple : Tuple} (full : PageId) :
    p.insert tuple ≠ .error (.pageFull full) := by
  rw [insert_eq]
  split
  · split
    · rename_i taken
      refine absurd (List.countP_eq_zero.mpr fun content listed => ?_) free
      exact Bool.eq_false_iff.mp (List.findIdx?_eq_none_iff.mp taken content listed)
    · rintro ⟨⟩
  · rintro ⟨⟩

end Page

namespace Database

private theorem fetch_ne_full {db : Database} {txn : TxnId} {page : PageId} {access : Access}
    (full : PageId) : (db.fetch txn page access).1 ≠ .error (.pageFull full) :=
  fun failed => Bool.false_ne_true (ofFetching_of_fetch failed)

private theorem not_endless_of_ne {result : Except Fault RecordId}
    (other : ∀ full, result ≠ .error (.pageFull full)) : ¬ endless result := by
  unfold endless
  split
  · exact absurd rfl (other _)
  · exact Bool.false_ne_true

/-! ### Insertion -/

section Insertion
variable {db : Database} {txn : TxnId} {tuple : Tuple}

/-- A page is passed over only if the copy found of it is full. -/
theorem tryPage_cases (page : PageId) :
    (∃ fault, (db.tryPage txn tuple page).1 = .error fault ∧ ∀ full, fault ≠ .pageFull full) ∨
    (∃ record, (db.tryPage txn tuple page).1 = .ok (some record)) ∨
    (db.tryPage txn tuple page).1 = .ok none ∧ ∃ frame : Frame, frame.page.freeCount = 0 ∧
      (db.cache.frames[page]? = some frame ∨ db.load page = .ok frame.page) := by
  have trial := db.trial txn tuple page
  generalize (db.tryPage txn tuple page).1 = result, (db.tryPage txn tuple page).2 = db' at trial ⊢
  cases trial with
  | unfetched failed =>
    have other := @fetch_ne_full db txn page .write
    rw [failed] at other
    exact .inl ⟨_, rfl, fun full same => other full (congrArg _ same)⟩
  | full fetched full => exact .inr (.inr ⟨rfl, _, full, (fetch_eq_ok fetched).2.2.imp_right And.right⟩)
  | refused _ free refused =>
    exact .inl ⟨_, rfl, fun full same => Page.insert_ne_full free full (same ▸ refused)⟩
  | placed _ _ _ => exact .inr (.inl ⟨_, rfl⟩)

private theorem tryPages_ne_full {table : Table} {position left : Nat} (full : PageId) :
    (db.tryPages table txn tuple position left).1 ≠ .error (.pageFull full) := by
  induction left generalizing db position with
  | zero => rintro ⟨⟩
  | succ left ih =>
    have first := @tryPage_cases db txn tuple (table.pageAt position)
    rw [tryPages]
    cases he : db.tryPage txn tuple (table.pageAt position) with
    | mk result mid =>
      rw [he] at first
      rcases result with fault | (_ | record)
      · rcases first with ⟨cause, failed, other⟩ | ⟨record, done⟩ | ⟨none_left, -⟩
        · cases failed
          exact fun same => other full (Except.error.inj same)
        · cases done
        · cases none_left
      · exact ih
      · rintro ⟨⟩

/-- A page that was added has no tuples in the file, and so free slots. -/
theorem load_appended {table : Table} (known : db.Knows table)
    (room : table.pages db.volume < 4294967296) :
    ∃ p, (db.appendPage table).2.load (table.pageAt (table.pages db.volume)) = .ok p ∧
      (∀ slot, p.tuple? slot = none) ∧ p.freeCount ≠ 0 := by
  obtain ⟨grown, pages⟩ := table.grown_append room
  have number : (table.pageAt (table.pages db.volume)).number = table.pages db.volume :=
    pageNumber_of_lt room
  obtain ⟨p, loaded, blank⟩ := grown.load_blank (rfl : (table.pageAt _).table = table.id)
    (Nat.le_of_eq number.symm) (by rw [number, pages]; exact Nat.lt_succ_self _)
  exact ⟨p, load_eq_ok_iff.mpr ⟨table, known, loaded⟩, blank,
    (table.shown_of_load loaded).2.sound.freeCount_ne_zero blank⟩

private theorem not_endless_tryAppended {table : Table} (known : db.Knows table)
    (room : table.pages db.volume < 4294967296)
    (absent : db.cache.frames[table.pageAt (table.pages db.volume)]? = none) (limit : Nat) :
    ¬ endless (db.tryAppended table txn tuple (table.pages db.volume) (limit + 1)).1 := by
  have one : table.pages (db.appendPage table).2.volume - table.pages db.volume = 1 := by
    rw [show table.pages (db.appendPage table).2.volume = _ from (table.grown_append room).2,
      Nat.add_sub_cancel_left]
  have first := @tryPage_cases (db.appendPage table).2 txn tuple (table.pageAt (table.pages db.volume))
  refine not_endless_of_ne fun full => ?_
  simp only [tryAppended, one, tryPages]
  cases he : (db.appendPage table).2.tryPage txn tuple (table.pageAt (table.pages db.volume)) with
  | mk result mid =>
    rw [he] at first
    rcases first with ⟨fault, failed, other⟩ | ⟨record, done⟩ | ⟨-, frame, taken, cached | loaded⟩
    · cases failed
      exact fun same => other full (Except.error.inj same)
    · cases done
      rintro ⟨⟩
    · rw [show (db.appendPage table).2.cache = db.cache from rfl, absent] at cached
      cases cached
    · obtain ⟨p, loaded', -, free⟩ := load_appended known room
      rw [loaded] at loaded'
      cases loaded'
      exact absurd taken free

/-- Where the files have all cached pages, the page after the last one is not cached. -/
theorem absent_after_end {table : Table} (known : db.Knows table)
    (room : table.pages db.volume < 4294967296)
    (onDisk : ∀ {page : PageId} {frame : Frame}, db.cache.frames[page]? = some frame → db.OnDisk page) :
    db.cache.frames[table.pageAt (table.pages db.volume)]? = none := by
  refine Option.eq_none_iff_forall_ne_some.mpr fun frame cached => ?_
  obtain ⟨other, known', inside⟩ := onDisk cached
  cases known.symm.trans known'
  rw [Table.pageAt, pageNumber_of_lt room] at inside
  exact Nat.lt_irrefl _ inside

/-- An insertion into a known table that has page numbers left comes to an end, if no page is cached
that is not in the files. -/
theorem not_endless_insertInto (keyed : db.cache.Keyed) {table : Table} (known : db.Knows table)
    (onDisk : ∀ {page : PageId} {frame : Frame}, db.cache.frames[page]? = some frame → db.OnDisk page)
    (room : table.pages db.volume < 4294967296) :
    ¬ endless (db.insertInto table txn tuple).1 := by
  rw [insertInto_eq]
  split
  · simp only
    have way := attempt_tryPages (fun _ _ => False) txn tuple keyed table 0 (table.pages db.volume)
    have none_full := @tryPages_ne_full db txn tuple table 0 (table.pages db.volume)
    cases he : db.tryPages table txn tuple 0 (table.pages db.volume) with
    | mk result mid =>
      rw [he] at way none_full
      rcases result with fault | (_ | record)
      · refine not_endless_of_ne fun full same => none_full full ?_
        exact congrArg Except.error (Except.error.inj same)
      · have volume := way.volume_eq
        have quiet := way.approach.quiet fun _ _ => False.elim
        have known' : mid.Knows table := by rwa [Knows, quiet.catalog]
        rw [← volume] at room ⊢
        refine not_endless_tryAppended known' room (absent_after_end known' room ?_) _
        intro page frame cached
        rcases quiet.frames page with same | ⟨-, loaded⟩
        · obtain ⟨other, knows, inside⟩ := onDisk (same ▸ cached)
          exact ⟨other, quiet.catalog ▸ knows, volume ▸ inside⟩
        · exact onDisk_of_load (loaded frame cached)
      · exact Bool.false_ne_true
  · exact Bool.false_ne_true

/-- An insertion by the table's number comes to an end as well. -/
theorem not_endless_insert (keyed : db.cache.Keyed) (filed : db.catalog.Filed) {id : TableId}
    (onDisk : ∀ {page : PageId} {frame : Frame}, db.cache.frames[page]? = some frame → db.OnDisk page)
    (room : ∀ table, db.catalog.table id = .ok table → table.pages db.volume < 4294967296) :
    ¬ endless (db.insert txn id tuple).1 := by
  rw [insert_eq txn tuple keyed]
  cases ht : db.catalog.table id with
  | error fault =>
    rw [Catalog.table_eq_error ht]
    exact Bool.false_ne_true
  | ok table =>
    have known : db.Knows table := by rwa [Knows, filed ht]
    have into := @not_endless_insertInto db txn tuple keyed table known onDisk (room table ht)
    simp only
    cases he : db.insertInto table txn tuple with
    | mk result after =>
      rw [he] at into
      cases result with
      | error fault => exact into
      | ok record => exact Bool.false_ne_true

end Insertion

/-! ### Deletion -/

section Deletion
variable {db : Database} {txn : TxnId} (record : Option RecordId)

/-- Deletions always come to an end. -/
theorem not_endless_deleteFrom (table : Table) : ¬ endless (db.deleteFrom table txn record).1 := by
  cases record with
  | none => exact Bool.false_ne_true
  | some r =>
    rw [deleteFrom_some]
    split
    · have fetched := @fetch_ne_full db txn r.page .write
      cases he : db.fetch txn r.page .write with
      | mk result mid =>
        rw [he] at fetched
        cases result with
        | error fault =>
          refine not_endless_of_ne fun full same => fetched full ?_
          exact congrArg Except.error (Except.error.inj same)
        | ok frame =>
          simp only [Page.delete]
          split
          · rename_i failed
            split at failed
            · cases failed
            · cases failed
              exact Bool.false_ne_true
          · exact Bool.false_ne_true
    · exact Bool.false_ne_true

theorem not_endless_delete (keyed : db.cache.Keyed) : ¬ endless (db.delete txn record).1 := by
  cases record with
  | none => exact Bool.false_ne_true
  | some r =>
    rw [delete_some db txn keyed]
    cases known : db.catalog.table r.page.table with
    | error fault =>
      rw [Catalog.table_eq_error known]
      exact Bool.false_ne_true
    | ok table =>
      have from_table := @not_endless_deleteFrom db txn (some r) table
      simp only
      cases he : db.deleteFrom table txn (some r) with
      | mk result after =>
        rw [he] at from_table
        cases result with
        | error fault => exact from_table
        | ok deleted => exact Bool.false_ne_true

end Deletion

end Database

end PagedStore
