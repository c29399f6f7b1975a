import PagedStore.Proofs.Run

/-! What the end of a transaction leaves behind, whatever came before and whatever fails. -/
namespace PagedStore.Database

def Stuck (db : Database) (commit : Bool) (order : List PageId) (page : PageId) : Prop :=
  if commit then
    ∃ before after frame fault, order = before ++ page :: after ∧
      db.cache.frames[page]? = some frame ∧
      (forEachPage commitPage db before).2.store frame.page = .error fault
  else ∃ fault, db.load page = .error fault

/-- Whether a cached copy of a page is clean and as it should be after the transaction that changed
it: after a commit it is the changed page, whose image is in the file, after an abort the page as it
is read from the file. -/
def InStep (db : Database) (commit : Bool) (page : PageId) (old new : Frame) : Prop :=
  new.serial = old.serial ∧ new.page.changedBy = none ∧
    if commit then new.page = old.page.cleaned ∧ db.HasImage page new.page.image
    else db.load page = .ok new.page

/-- What is the case after the end of a transaction whose changed pages were visited in the given
order. -/
structure Completed (txn : TxnId) (commit : Bool) (order : List PageId) (db : Database)
    (result : Except Fault Unit) (db' : Database) : Prop where
  unlocked : ∀ page, db'.locks.mode? txn page = none
  unlisted : db'.locks.pagesOf txn = []
  unawaited : db'.locks.waits[txn]? = none
  others_locked : ∀ {other}, other ≠ txn → ∀ page, db'.locks.mode? other page = db.locks.mode? other page
  others_wait : ∀ {other}, other ≠ txn → db'.locks.waits[other]? = db.locks.waits[other]?
  undone : ∀ {page : PageId} {frame : Frame}, db'.cache.frames[page]? = some frame →
    frame.page.changedBy ≠ some txn
  gone : ∀ {page : PageId}, page ∈ order → (db'.cache.frames[page]? = none ↔ db.Stuck commit order page)
  settled : ∀ {page : PageId} {frame : Frame}, page ∈ order → db.cache.frames[page]? = some frame →
    db'.cache.frames[page]? = none ∨
      ∃ new, db'.cache.frames[page]? = some new ∧ db'.InStep commit page frame new
  others_cached : ∀ {page : PageId}, page ∉ order → db'.cache.frames[page]? = db.cache.frames[page]?
  catalog : db'.catalog = db.catalog
  undisturbed : commit = false → db'.volume = db.volume
  bytes : ∀ {file : TableId} {position : Nat}, (∀ page ∈ order, ¬ db.Within page file position) →
    (db'.volume.content file).byte position = (db.volume.content file).byte position
  lengths : ∀ file, (db.volume.content file).length ≤ (db'.volume.content file).length
  ends : ∀ file, (db'.volume.content file).length = (db.volume.content file).length ∨
    ∃ page ∈ order, ∃ table, file = page.table ∧ db.catalog.table page.table = .ok table ∧
      (db'.volume.content file).length = page.number * table.pageSize + table.pageSize
  failed : (∃ fault, result = .error fault) ↔ ∃ page ∈ order, db.Stuck commit order page

private theorem distinct {c : Cache} {txn : TxnId} {order : List PageId}
    (listed : order.Perm (c.dirtyPagesOf txn)) : order.Nodup :=
  listed.nodup_iff.mpr (c.nodup_dirtyPagesOf txn)

private theorem failed_abort {db : Database} (sound : db.Sound) {order : List PageId} :
    (∃ fault, (forEachPage revertPage db order).1 = .error fault) ↔
      ∃ page ∈ order, db.Stuck false order page := by
  rw [forEachPage_error_iff]
  have same (before : List PageId) (page : PageId) :
      (forEachPage revertPage db before).2.load page = db.load page := by
    have confined := (confined_forEachPage confined_revertPage sound.filed sound.keyed before).1
    rw [load, load, confined.catalog, volume_forEachPage_revertPage]
  constructor
  · rintro ⟨before, page, after, split, fault, failed⟩
    refine ⟨page, by simp [split], ?_⟩
    rcases (forEachPage revertPage db before).2.revertPage_cases page with ⟨p, -, he⟩ | ⟨cause, failed', -⟩
    · rw [he] at failed
      cases failed
    · exact ⟨cause, same before page ▸ failed'⟩
  · rintro ⟨page, mem, fault, failed⟩
    obtain ⟨before, after, split⟩ := List.append_of_mem mem
    refine ⟨before, page, after, split, fault, ?_⟩
    rw [← same before page] at failed
    rcases (forEachPage revertPage db before).2.revertPage_cases page with
      ⟨p, loaded, -⟩ | ⟨cause, failed', he⟩
    · rw [loaded] at failed
      cases failed
    · rw [failed] at failed'
      cases failed'
      rw [he]

section Settling
variable {db : Database} (sound : db.Sound) {txn : TxnId} {order : List PageId}
  (listed : order.Perm (db.cache.dirtyPagesOf txn))
include sound listed

private theorem settle_commit {page : PageId} (mem : page ∈ order) :
    ∃ frame, db.cache.frames[page]? = some frame ∧
      ((db.Stuck true order page ∧ (forEachPage commitPage db order).2.cache.frames[page]? = none) ∨
      (¬ db.Stuck true order page ∧ ∃ new,
        (forEachPage commitPage db order).2.cache.frames[page]? = some new ∧
        (forEachPage commitPage db order).2.InStep true page frame new)) := by
  obtain ⟨frame, cached, -⟩ := Cache.mem_dirtyPagesOf.mp (listed.mem_iff.mp mem)
  have turn {before after : List PageId} (split : order = before ++ page :: after) :=
    commit_turn sound.filed sound.keyed (split ▸ distinct listed) cached
  obtain ⟨before, after, split⟩ := List.append_of_mem mem
  rcases turn split with ⟨-, ⟨fault, failed, gone⟩ | ⟨v, -, kept, has⟩⟩
  · rw [← split] at gone
    exact ⟨frame, cached, .inl ⟨⟨before, after, frame, fault, split, cached, failed⟩, gone⟩⟩
  · rw [← split] at kept has
    refine ⟨frame, cached, .inr ⟨?_, _, kept, rfl, rfl, rfl, has⟩⟩
    rintro ⟨before', after', frame', fault, split', cached', failed⟩
    rw [cached] at cached'
    cases cached'
    rcases turn split' with ⟨-, ⟨_, _, gone⟩ | ⟨v, written, -⟩⟩
    · rw [← split', kept] at gone
      cases gone
    · rw [written] at failed
      cases failed

private theorem settle_abort {page : PageId} (mem : page ∈ order) :
    ∃ frame, db.cache.frames[page]? = some frame ∧
      ((db.Stuck false order page ∧ (forEachPage revertPage db order).2.cache.frames[page]? = none) ∨
      (¬ db.Stuck false order page ∧ ∃ new,
        (forEachPage revertPage db order).2.cache.frames[page]? = some new ∧
        (forEachPage revertPage db order).2.InStep false page frame new)) := by
  obtain ⟨frame, cached, -⟩ := Cache.mem_dirtyPagesOf.mp (listed.mem_iff.mp mem)
  obtain ⟨before, after, split⟩ := List.append_of_mem mem
  have confined := (confined_forEachPage confined_revertPage sound.filed sound.keyed order).1
  have volume := volume_forEachPage_revertPage db order
  rcases revert_turn sound.filed sound.keyed (split ▸ distinct listed) cached with
    ⟨fault, failed, gone⟩ | ⟨p, loaded, kept⟩
  · exact ⟨frame, cached, .inl ⟨⟨fault, failed⟩, split ▸ gone⟩⟩
  · rw [← split] at kept
    refine ⟨frame, cached, .inr ⟨?_, _, kept, rfl, (shown_of_load loaded).2, ?_⟩⟩
    · rintro ⟨fault, failed⟩
      rw [loaded] at failed
      cases failed
    · show load _ page = .ok p
      rw [load, confined.catalog, volume]
      exact loaded

private theorem failed_commit : (∃ fault, (forEachPage commitPage db order).1 = .error fault) ↔
    ∃ page ∈ order, db.Stuck true order page := by
  rw [forEachPage_error_iff]
  have turn {before page after} (split : order = before ++ page :: after) :
      ∃ frame, db.cache.frames[page]? = some frame ∧
        (forEachPage commitPage db before).2.cache.frames[page]? = some frame := by
    have mem : page ∈ order := by simp [split]
    obtain ⟨frame, cached, -⟩ := Cache.mem_dirtyPagesOf.mp (listed.mem_iff.mp mem)
    exact ⟨frame, cached, (commit_turn sound.filed sound.keyed (split ▸ distinct listed) cached).1⟩
  constructor
  · rintro ⟨before, page, after, split, fault, failed⟩
    obtain ⟨frame, cached, held⟩ := turn split
    refine ⟨page, by simp [split], before, after, frame, ?_⟩
    rcases commitPage_cases held with ⟨v, -, he⟩ | ⟨cause, stored, -⟩
    · rw [he] at failed
      cases failed
    · exact ⟨cause, split, cached, stored⟩
  · rintro ⟨page, -, before, after, frame, fault, split, cached, stored⟩
    obtain ⟨frame', cached', held⟩ := turn split
    rw [cached] at cached'
    cases cached'
    refine ⟨before, page, after, split, fault, ?_⟩
    rcases commitPage_cases held with ⟨v, written, -⟩ | ⟨cause, stored', he⟩
    · rw [written] at stored
      cases stored
    · rw [stored] at stored'
      cases stored'
      rw [he]

end Settling

/-- The end of a transaction leaves a database that is in order as it should be. -/
theorem Sound.completed {db : Database} (sound : db.Sound) {txn : TxnId} (commit : Bool)
    {order : List PageId} (listed : order.Perm (db.cache.dirtyPagesOf txn)) :
    Completed txn commit order db (db.completeIn txn commit order).1
      (db.completeIn txn commit order).2 := by
  have confined : Confined order db
      (forEachPage (if commit then commitPage else revertPage) db order).2 := by
    cases commit with
    | true => exact (confined_forEachPage confined_commitPage sound.filed sound.keyed order).1
    | false => exact (confined_forEachPage confined_revertPage sound.filed sound.keyed order).1
  have settle {page : PageId} (mem : page ∈ order) : ∃ frame, db.cache.frames[page]? = some frame ∧
      ((db.Stuck commit order page ∧
        (db.completeIn txn commit order).2.cache.frames[page]? = none) ∨
      (¬ db.Stuck commit order page ∧ ∃ new,
        (db.completeIn txn commit order).2.cache.frames[page]? = some new ∧
        (db.completeIn txn commit order).2.InStep commit page frame new)) := by
    cases commit with
    | true => exact settle_commit sound listed mem
    | false => exact settle_abort sound listed mem
  have locks : (db.completeIn txn commit order).2.locks = db.locks.forget txn :=
    congrArg (Locks.forget · txn) confined.locks
  have free (page : PageId) : (db.completeIn txn commit order).2.locks.mode? txn page = none := by
    rw [locks, sound.locks.mode?_forget, if_pos rfl]
  refine ⟨free, ?unlisted, ?unawaited, ?others_locked, ?others_wait, ?undone, ?gone, ?settled,
    fun outside => confined.frames _ outside, confined.catalog, ?undisturbed, confined.bytes,
    confined.lengths, confined.ends, ?failed⟩
  case unlisted =>
    rw [Locks.pagesOf, Std.ExtTreeSet.toList_eq_nil_iff, Std.ExtTreeSet.eq_empty_iff_forall_not_mem]
    intro page held
    rw [locks, (sound.locks.forget txn).indexed, Locks.holds, ← locks, free] at held
    cases held
  case unawaited => rw [locks, Locks.waits_forget, if_pos rfl]
  case others_locked =>
    intro other different page
    rw [locks, sound.locks.mode?_forget, if_neg different]
  case others_wait =>
    intro other different
    rw [locks, Locks.waits_forget, if_neg different]
  case undone =>
    intro page frame held changed
    by_cases mem : page ∈ order
    · rcases settle mem with ⟨_, _, ⟨-, gone⟩ | ⟨-, new, kept, -, clean, -⟩⟩
      · rw [gone] at held
        cases held
      · rw [kept] at held
        cases held
        rw [clean] at changed
        cases changed
    · refine mem (listed.mem_iff.mpr (Cache.mem_dirtyPagesOf.mpr ⟨frame, ?_, changed⟩))
      exact (confined.frames page mem).symm.trans held
  case gone =>
    intro page mem
    rcases settle mem with ⟨_, _, ⟨stuck, gone⟩ | ⟨free, new, kept, -⟩⟩
    · exact iff_of_true gone stuck
    · exact iff_of_false (by rw [kept]; exact Option.some_ne_none _) free
  case settled =>
    intro page frame mem cached
    rcases settle mem with ⟨frame', cached', ⟨-, gone⟩ | ⟨-, kept⟩⟩
    · exact .inl gone
    · rw [cached] at cached'
      cases cached'
      exact .inr kept
  case undisturbed =>
    rintro rfl
    exact volume_forEachPage_revertPage db order
  case failed =>
    cases commit with
    | true => exact failed_commit sound listed
    | false => exact failed_abort sound

namespace Completed
variable {txn : TxnId} {commit : Bool} {order : List PageId} {db db' : Database}
  {result : Except Fault Unit} (h : Completed txn commit order db result db')
include h

/-- Where the files have the changed pages, no file gets longer. -/
theorem length_eq (filed : db.catalog.Filed) (onDisk : ∀ page ∈ order, db.OnDisk page)
    (file : TableId) : (db'.volume.content file).length = (db.volume.content file).length := by
  rcases h.ends file with same | ⟨page, listed, table, rfl, known, last⟩
  · exact same
  · obtain ⟨table', known', inside⟩ := onDisk page listed
    rw [known] at known'
    cases known'
    have room := table.lt_pages_iff.mp inside
    rw [filed known] at room
    exact Nat.le_antisymm (last ▸ room) (h.lengths page.table)

/-- Other pages are read as before. -/
theorem load_eq (filed : db.catalog.Filed) (onDisk : ∀ page ∈ order, db.OnDisk page) {page : PageId}
    (outside : page ∉ order) : db'.load page = db.load page := by
  rw [load, load, h.catalog]
  cases known : db.catalog.table page.table with
  | error fault => rfl
  | ok table =>
    have own := (filed known).symm
    have pages : table.pages db'.volume = table.pages db.volume := by
      rw [Table.pages_eq, Table.pages_eq, h.length_eq filed onDisk]
    simp only [table.load_eq _ own, pages]
    split
    · rename_i inside
      rw [table.imageAt_congr inside (pages ▸ inside) fun position first last => ?_]
      have here : db.Within page table.id position := ⟨own.symm, table, known, first, last⟩
      exact h.bytes fun _ listed within => outside (here.page_eq within ▸ listed)
    · rfl

end Completed

/-- Whatever was asked of a database and whatever happened to its files and tables: the end of a
transaction, in whichever order its pages are visited, releases all that is its and nothing else, and
leaves no page that it has changed unless in step with its file. -/
theorem completed_after_run {settings : Settings} {volume : Volume} {start db : Database}
    {trace : List (Action × Reply)} (opened : ofVolume settings volume = .ok start)
    (run : Run (fun _ _ _ => True) start trace db) (txn : TxnId) (commit : Bool) {order : List PageId}
    (listed : order.Perm (db.cache.dirtyPagesOf txn)) :
    Completed txn commit order db (db.completeIn txn commit order).1
      (db.completeIn txn commit order).2 :=
  (run.sound (sound_ofVolume opened)).completed commit listed

/-- A page that was changed while the table was forgotten, so that its commit fails. -/
theorem completed_after_run_stuck : ∃ start trace db order,
    ofVolume { pageSize := 16 } .empty = .ok start ∧ Run (fun _ _ _ => True) start trace db ∧
      order.Perm (db.cache.dirtyPagesOf 1) ∧ order = [⟨0, 0⟩] ∧
        Completed 1 true order db (db.completeIn 1 true order).1 (db.completeIn 1 true order).2 := by
  have opened : ofVolume { pageSize := 16 } .empty =
    .ok ⟨{ pageSize := 16 }, .empty, .empty, .empty, .empty 50, 1, 0⟩ := rfl
  have run := (((Run.start : Run (fun _ _ _ => True) _ [] ⟨{ pageSize := 16 }, .empty, .empty, .empty,
    .empty 50, 1, 0⟩).next (.attachTable (.file 0) ⟨[⟨.int, none⟩]⟩ 16 "t" "") trivial trivial).next
      (.insert 1 0 ⟨⟨[⟨.int, none⟩]⟩, [.int 7], none⟩) rfl trivial).next .clearCatalog trivial trivial
  refine ⟨_, _, _, [⟨0, 0⟩], opened, run, ?listed, rfl, completed_after_run opened run 1 true ?listed⟩
  decide +kernel

end PagedStore.Database
