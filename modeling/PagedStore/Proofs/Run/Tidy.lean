import PagedStore.Proofs.Cache.Tidy
import PagedStore.Proofs.Run.Changes

/-! The cache of a database is in order after whatever transactions do, however it fails. -/
namespace PagedStore

def Action.Managed : Action → Prop
  | .insertInto _ _ _ => False
  | .deleteFrom _ _ _ => False
  | .mark _ _ => False
  | .alter _ _ => False
  | .storeHeld _ _ => False
  | _ => True

namespace Database
variable {room : Nat} {db : Database}

/-! ### Going from page to page -/

private theorem tidy_fetch (h : db.cache.Tidy room) (txn : TxnId) (page : PageId) (access : Access) :
    (db.fetch txn page access).2.cache.Tidy room := by
  rcases db.fetch_cases txn page access with
    ⟨-, _, -, he⟩ | ⟨-, ⟨_, cached, he⟩ | ⟨absent, ⟨_, -, he⟩ | ⟨content, loaded, he⟩⟩⟩
  · rw [he]
    exact h
  · rw [he]
    exact h.access (Cache.mem_frames_of_eq cached)
  · rw [he]
    exact h
  · rw [he]
    obtain ⟨rfl, clean⟩ := shown_of_load loaded
    refine h.bringIn (fun cached => ?_) clean
    obtain ⟨frame, held⟩ := Cache.exists_frame_of_mem cached
    rw [absent] at held
    cases held

private theorem Approach.tidy {grows : Table → Volume → Prop} {txn : TxnId} {db' : Database}
    (way : Approach grows txn db db') (h : db.cache.Tidy room) : db'.cache.Tidy room := by
  induction way with
  | still => exact h
  | fetch page access _ ih => exact tidy_fetch ih txn page access
  | visit page access _ _ ih => exact tidy_fetch ih txn page access
  | append table _ _ ih => exact ih
  | wait _ _ ih => exact ih

/-! ### Insertion and deletion -/

/-- Whether the cache is in order once the page of a record is pinned, if a record was changed. -/
def TidyOnce (room : Nat) (db : Database) (changed : Option RecordId) : Prop :=
  changed.elim (db.cache.Tidy room) fun record => (db.cache.pin record.page).Tidy room

private theorem TidyOnce.keep {record : RecordId} (h : TidyOnce room db (some record)) :
    ((db.cache.access record.page).pin record.page).Tidy room := by
  rw [Cache.Tidy.pin_access h]
  exact h

private theorem tidyOnce_change {txn : TxnId} {page : PageId} {frame : Frame} {mid : Database}
    (h : db.cache.Tidy room) (fetched : db.fetch txn page .write = (.ok frame, mid)) (content : Page)
    {record : RecordId} (here : record.page = page) :
    TidyOnce room { mid with cache := mid.cache.modify page fun _ => content.changed txn }
      (some record) := by
  have tidy := tidy_fetch h txn page .write
  rw [fetched] at tidy
  subst here
  exact tidy.change (Cache.mem_frames_of_eq (fetch_eq_ok fetched).1) fun _ => Option.some_ne_none txn

section Insertion
variable (h : db.cache.Tidy room) (keyed : db.cache.Keyed) (table : Table) (txn : TxnId)
  (tuple : Tuple)
include h keyed

private theorem tidy_tryPage (page : PageId) :
    TidyOnce room (db.tryPage txn tuple page).2 (db.tryPage txn tuple page).1.toOption.join := by
  have tidy := tidy_fetch h txn page .write
  have keyed' := keyed_fetch keyed txn page .write
  have trial := db.trial txn tuple page
  generalize (db.tryPage txn tuple page).1 = result, (db.tryPage txn tuple page).2 = db' at trial ⊢
  cases trial with
  | unfetched failed =>
    rw [failed] at tidy
    exact tidy
  | full fetched _ =>
    rw [fetched] at tidy
    cases db.locks.holds txn page <;> exact tidy
  | refused fetched _ _ =>
    rw [fetched] at tidy
    exact tidy
  | placed fetched _ inserted =>
    rw [fetched] at keyed'
    exact tidyOnce_change h fetched _ ((Page.insert_eq_ok inserted).1.page_eq.trans
      (keyed' (fetch_eq_ok fetched).1))

private theorem tidy_tryPages (position left : Nat) :
    TidyOnce room (db.tryPages table txn tuple position left).2
      (db.tryPages table txn tuple position left).1.toOption.join := by
  induction left generalizing db position with
  | zero => exact h
  | succ left ih =>
    have first := tidy_tryPage h keyed txn tuple (table.pageAt position)
    have way := attempt_tryPage (fun _ _ => True) txn tuple keyed (table.pageAt position)
    rw [tryPages]
    cases he : db.tryPage txn tuple (table.pageAt position) with
    | mk result mid =>
      rw [he] at first way
      rcases result with fault | (_ | record)
      · exact first
      · exact ih first (way.approach.keyed keyed) (position + 1)
      · exact first

private theorem tidy_tryAppended (position limit : Nat) :
    TidyOnce room (db.tryAppended table txn tuple position limit).2
      (db.tryAppended table txn tuple position limit).1.toOption := by
  induction limit generalizing db position with
  | zero => exact h
  | succ limit ih =>
    -- the file grows, the cache stays
    have added : (db.appendPage table).2.cache = db.cache := rfl
    rw [← added] at h keyed
    rw [tryAppended]
    generalize db.appendPage table = grown at h keyed
    simp only
    generalize table.pages grown.2.volume = pages
    have next := tidy_tryPages h keyed table txn tuple position (pages - position)
    have way := attempt_tryPages (fun _ _ => True) txn tuple keyed table position (pages - position)
    cases he : grown.2.tryPages table txn tuple position (pages - position) with
    | mk result mid =>
      rw [he] at next way
      rcases result with fault | (_ | record)
      · exact next
      · exact ih next (way.approach.keyed keyed) pages
      · exact next

private theorem tidy_insertInto :
    TidyOnce room (db.insertInto table txn tuple).2 (db.insertInto table txn tuple).1.toOption := by
  rw [insertInto_eq]
  split
  · have first := tidy_tryPages h keyed table txn tuple 0 (table.pages db.volume)
    have way := attempt_tryPages (fun _ _ => True) txn tuple keyed table 0 (table.pages db.volume)
    simp only
    cases he : db.tryPages table txn tuple 0 (table.pages db.volume) with
    | mk result mid =>
      rw [he] at first way
      rcases result with fault | (_ | record)
      · exact first
      · exact tidy_tryAppended first (way.approach.keyed keyed) table txn tuple _ _
      · exact first
  · exact h

private theorem tidy_insert (id : TableId) : (db.insert txn id tuple).2.cache.Tidy room := by
  rw [insert_eq txn tuple keyed]
  cases db.catalog.table id with
  | error fault => exact h
  | ok table =>
    have into := tidy_insertInto h keyed table txn tuple
    simp only
    cases he : db.insertInto table txn tuple with
    | mk result after =>
      rw [he] at into
      cases result with
      | error fault => exact into
      | ok record => exact into.keep

private theorem tidy_takeTurn (i : Insertion) : (db.takeTurn i).2.cache.Tidy room := by
  have turned := turned keyed i
  have tried := tidy_tryPage h keyed i.txn i.tuple i.page
  generalize (db.takeTurn i).1 = turn, (db.takeTurn i).2 = after at turned ⊢
  cases turned with
  | counted _ => exact h
  | added _ => exact h
  | waits _ _ => exact h
  | failed _ he =>
    rw [he] at tried
    exact tried
  | passed _ _ he =>
    rw [he] at tried
    exact tried
  | placed _ _ he =>
    rw [he] at tried
    exact tried.keep

end Insertion

private theorem tidy_deleteFrom (h : db.cache.Tidy room) (table : Table) (txn : TxnId)
    (record : Option RecordId) : TidyOnce room (db.deleteFrom table txn record).2
      (db.deleteFrom table txn record).1.toOption := by
  cases record with
  | none => exact h
  | some r =>
    have tidy := tidy_fetch h txn r.page .write
    rw [deleteFrom_some]
    split
    · cases fetched : db.fetch txn r.page .write with
      | mk result mid =>
        rw [fetched] at tidy
        cases result with
        | error fault => exact tidy
        | ok frame =>
          simp only
          cases frame.page.delete (some r) with
          | error fault => exact tidy
          | ok content => exact tidyOnce_change h fetched content rfl
    · exact h

private theorem tidy_delete (h : db.cache.Tidy room) (keyed : db.cache.Keyed) (txn : TxnId)
    (record : Option RecordId) : (db.delete txn record).2.cache.Tidy room := by
  cases record with
  | none => exact h
  | some r =>
    rw [delete_some db txn keyed]
    cases db.catalog.table r.page.table with
    | error fault => exact h
    | ok table =>
      have from_table := tidy_deleteFrom h table txn (some r)
      simp only
      cases he : db.deleteFrom table txn (some r) with
      | mk result after =>
        rw [he] at from_table
        cases result with
        | error fault => exact from_table
        | ok deleted => exact from_table.keep

/-! ### Pages written, read again or dropped -/

private theorem tidy_writeOut (h : db.cache.Tidy room) (page : PageId) :
    (db.writeOut page).2.cache.Tidy room := by
  rw [writeOut]
  split
  · exact h
  · rename_i content cached
    obtain ⟨frame, held, -⟩ := Cache.page?_eq_some_iff.mp cached
    split
    · exact h
    · exact h.settle (Cache.mem_frames_of_eq held) fun _ => rfl

private theorem tidy_commitPage (h : db.cache.Tidy room) (page : PageId) :
    (db.commitPage page).2.cache.Tidy room :=
  kept_commitPage (motive := fun db => db.cache.Tidy room) (tidy_writeOut h page)
    fun written => written.drop page

private theorem tidy_flushPages (h : db.cache.Tidy room) (pages : List PageId) :
    (forEachPage commitPage db pages).2.cache.Tidy room :=
  kept_forEachPage (motive := fun db => db.cache.Tidy room)
    (fun page before => tidy_commitPage before page) h pages

private theorem tidy_writeOutAll (h : db.cache.Tidy room) (pages : List PageId) :
    (db.writeOutAll pages).2.cache.Tidy room :=
  kept_writeOutAll (motive := fun db => db.cache.Tidy room)
    (fun page before => tidy_writeOut before page) h pages

private theorem tidy_revertPages (sound : db.Sound) (h : db.cache.Tidy room) {pages : List PageId}
    (distinct : pages.Nodup) (cached : ∀ page ∈ pages, page ∈ db.cache.frames) :
    (forEachPage revertPage db pages).2.cache.Tidy room := by
  induction pages generalizing db with
  | nil => exact h
  | cons page pages ih =>
    obtain ⟨later, distinct⟩ := List.nodup_cons.mp distinct
    have turn := confined_revertPage page sound.filed sound.keyed
    have first : (db.revertPage page).2.cache.Tidy room := by
      rcases db.revertPage_cases page with ⟨p, loaded, he⟩ | ⟨fault, -, he⟩
      · rw [he]
        exact h.settle (cached page List.mem_cons_self) fun _ => (shown_of_load loaded).2
      · rw [he]
        exact h.drop page
    -- a turn touches no other page, so that the pages to come are cached still
    refine ih (sound.of_confined turn) first distinct fun other listed => ?_
    have different : other ∉ [page] := fun same => later (List.mem_singleton.mp same ▸ listed)
    have kept := turn.1.frames other different
    obtain ⟨frame, held⟩ := Cache.exists_frame_of_mem (cached other (List.mem_cons_of_mem page listed))
    exact Cache.mem_frames_of_eq (kept.trans held)

private theorem tidy_completeIn (sound : db.Sound) (h : db.cache.Tidy room) {txn : TxnId} (commit : Bool)
    {order : List PageId} (listed : order.Perm (db.cache.dirtyPagesOf txn)) :
    (db.completeIn txn commit order).2.cache.Tidy room := by
  cases commit with
  | true => exact tidy_flushPages h order
  | false =>
    refine tidy_revertPages sound h ?_ fun page mem => ?_
    · exact listed.nodup_iff.mpr (db.cache.nodup_dirtyPagesOf txn)
    · obtain ⟨frame, held, -⟩ := Cache.mem_dirtyPagesOf.mp (listed.mem_iff.mp mem)
      exact Cache.mem_frames_of_eq held

/-! ### Runs -/

private theorem tidy_perform (sound : db.Sound) (h : db.cache.Tidy room) {action : Action}
    (fits : action.Fits db) (managed : action.Managed) : (db.perform action).2.cache.Tidy room := by
  cases action with
  | begin => exact h
  | fetch txn page access => exact tidy_fetch h txn page access
  | insert txn id tuple => exact tidy_insert h sound.keyed txn tuple id
  | delete txn record => exact tidy_delete h sound.keyed txn record
  | attempt txn page mode => exact h
  | giveUp txn => exact h
  | advance i => exact tidy_takeTurn h sound.keyed i
  | hasMore scan => exact ((scan.turn_hasMore db).1.approach fun _ _ => True).tidy h
  | step scan => exact ((scan.turn_step db).approach fun _ _ => True).tidy h
  | collect scan => exact ((scan.turn_collect db).approach fun _ _ => True).tidy h
  | complete txn commit order => exact tidy_completeIn sound h commit fits
  | insertInto table txn tuple => exact managed.elim
  | deleteFrom table txn record => exact managed.elim
  | mark handle txn => exact managed.elim
  | alter handle page => exact managed.elim
  | release txn page => exact h
  | drop page => exact h.drop page
  | flush page =>
    simp only [perform, flush]
    split
    · exact tidy_writeOut h page
    · exact h
  | flushTxn txn order => exact tidy_flushPages h order
  | flushAll order => exact tidy_writeOutAll h order
  | openTable place schema pageSize => exact (db.cache_openTable place schema pageSize).symm ▸ h
  | attachTable place schema pageSize name primaryKey =>
    exact (db.cache_attachTable place schema pageSize name primaryKey).symm ▸ h
  | clearCatalog => exact h
  | append table => exact h
  | loadLoose table page =>
    simp only [perform, loadLoose]
    cases table.load db.volume page with
    | error fault => exact h
    | ok content => exact ⟨h.capacity, h.fits, h.recency, h.listed, h.pinned⟩
  | storeHeld table handle => exact managed.elim
  | outside volume => exact h

theorem tidy_run {settings : Settings} {volume : Volume} {start : Database} {trace : List (Action × Reply)}
    (prepared : Prepared settings volume start)
    (run : Run (fun _ action _ => action.Managed) start trace db) : db.cache.Tidy settings.cachePages := by
  induction run using Run.inductionOn with
  | first =>
    rw [prepared.fresh.1]
    exact .empty settings.cachePages
  | next earlier action fits may ih => exact tidy_perform (earlier.sound prepared.sound) ih fits may

/-- Whatever transactions do and whatever becomes of tables and files: no more pages are cached than
may be, each under its own name. The pages that may leave, each listed once, and the pinned ones are the
cached ones, and the pinned ones are those that are changed. So the list of cached pages names each of
them once, the clean ones first. -/
theorem cache_in_order {settings : Settings} {volume : Volume} {start : Database}
    {trace : List (Action × Reply)} (opened : ofVolume settings volume = .ok start)
    (run : Run (fun _ action _ => action.Managed) start trace db) :
    db.cache.Tidy settings.cachePages ∧ db.cache.Keyed ∧ db.cache.pageIds.Perm db.cache.frames.keys ∧
      db.cache.pageIds = db.cache.recency.order ++ db.cache.dirtyPages ∧
      ∀ id ∈ db.cache.recency.order, db.cache.isClean id := by
  have sound := run.sound (sound_ofVolume opened)
  have tidy := tidy_run (.opened opened) run
  exact ⟨tidy, sound.keyed, tidy.pageIds_perm, tidy.pageIds_eq, fun id => tidy.clean_of_mem_order⟩

private def filledSample : Database :=
  (((((⟨{ pageSize := 16, cachePages := 1 }, .empty, .empty, .empty, .empty 1, 1, 0⟩ :
    Database).perform (.attachTable (.file 0) ⟨[⟨.int, none⟩]⟩ 16 "numbers" "")).2.perform
      (Prepared.insertion 1 7)).2.perform (Prepared.insertion 1 8)).2.perform
        (Prepared.insertion 1 9)).2

/-- The committed page leaves for the page that the second transaction adds. -/
theorem cache_in_order_evicted : ∃ start trace db,
    ofVolume { pageSize := 16, cachePages := 1 } .empty = .ok start ∧
      Run (fun _ action _ => action.Managed) start trace db ∧ trace.length = 6 ∧
      db.cache.pageIds = [⟨0, 1⟩] ∧ db.cache.dirtyPages = [⟨0, 1⟩] ∧ db.cache.Tidy 1 := by
  have opened : ofVolume { pageSize := 16, cachePages := 1 } .empty =
    .ok ⟨{ pageSize := 16, cachePages := 1 }, .empty, .empty, .empty, .empty 1, 1, 0⟩ := rfl
  have filled : Run (fun _ action _ => action.Managed) _ _ filledSample :=
    (((Run.start.next (.attachTable (.file 0) ⟨[⟨.int, none⟩]⟩ 16 "numbers" "") trivial trivial).next
      (Prepared.insertion 1 7) rfl trivial).next (Prepared.insertion 1 8) rfl trivial).next
        (Prepared.insertion 1 9) rfl trivial
  have listed : [⟨0, 0⟩].Perm (filledSample.cache.dirtyPagesOf 1) := by decide +kernel
  have run := (filled.next (.complete 1 true [⟨0, 0⟩]) listed trivial).next
    (Prepared.insertion 2 10) rfl trivial
  exact ⟨_, _, _, opened, run, rfl, by decide +kernel, by decide +kernel, (cache_in_order opened run).1⟩

end Database
end PagedStore
