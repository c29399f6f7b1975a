import PagedStore.Proofs.Run.Completion
import PagedStore.Proofs.Run.Ledger

/-! Whoever changes a page has it locked alone until it ends, so that a page has one writer at most. -/
namespace PagedStore
namespace Database

def Guarded (db : Database) : Action → Reply → Prop
  | .release _ _, _ => False
  | .mark _ _, _ => False
  | .alter handle page, _ => ∀ old, db.cache.held? handle = some old → page.changedBy = old.changedBy
  | _, _ => True

/-- Whether exclusive locks stay, and no transaction changes a page that it had not changed before. -/
structure Retains (db db' : Database) : Prop where
  locked : ∀ {txn : TxnId} {page : PageId}, db.locks.mode? txn page = some .exclusive →
    db'.locks.mode? txn page = some .exclusive
  changed : ∀ {page : PageId} {frame : Frame} {txn : TxnId}, db'.cache.frames[page]? = some frame →
    frame.page.changedBy = some txn →
      ∃ old, db.cache.frames[page]? = some old ∧ old.page.changedBy = some txn

namespace Retains
variable {db mid db' : Database}

private theorem of_frames (locks : db'.locks = db.locks)
    (frames : ∀ page : PageId, db'.cache.frames[page]? = db.cache.frames[page]?) : Retains db db' :=
  ⟨fun held => locks ▸ held, fun {page frame _} cached marked => ⟨frame, frames page ▸ cached, marked⟩⟩

private theorem refl (db : Database) : Retains db db :=
  .of_frames rfl fun _ => rfl

private theorem trans (h : Retains db mid) (h' : Retains mid db') : Retains db db' where
  locked held := h'.locked (h.locked held)
  changed cached marked := by
    obtain ⟨old, held, marked⟩ := h'.changed cached marked
    exact h.changed held marked

end Retains

/-! ### Going from page to page -/

private theorem retains_fetch (db : Database) (txn : TxnId) (page : PageId) (access : Access) :
    Retains db (db.fetch txn page access).2 where
  locked := (db.onward_fetch txn page access).exclusive
  changed {_ frame _} cached marked := by
    refine ⟨frame, (quiet_fetch db txn page access).to_dirty cached ?_, marked⟩
    rw [marked]
    exact Option.some_ne_none _

private theorem Approach.retains {grows : Table → Volume → Prop} {txn : TxnId} {db db' : Database}
    (h : Approach grows txn db db') : Retains db db' := by
  -- a lock that is given back on the way was not held before, so the locks go by `onward` as a whole
  refine ⟨h.onward.exclusive, ?_⟩
  induction h with
  | still => exact (Retains.refl db).changed
  | fetch page access _ ih =>
    intro id frame writer cached marked
    obtain ⟨old, held, marked⟩ := (retains_fetch _ txn page access).changed cached marked
    exact ih held marked
  | visit page access _ _ ih =>
    intro id frame writer cached marked
    obtain ⟨old, held, marked⟩ := (retains_fetch _ txn page access).changed cached marked
    exact ih held marked
  | append table _ _ ih => exact ih
  | wait _ _ ih => exact ih

/-! ### Pages written or dropped -/

private theorem retains_dropPage (db : Database) (page : PageId) : Retains db (db.dropPage page) := by
  refine ⟨id, fun {id frame _} cached marked => ?_⟩
  rw [dropPage, Cache.frames_drop] at cached
  split at cached
  · cases cached
  · exact ⟨frame, cached, marked⟩

private theorem retains_writeOut (db : Database) (page : PageId) : Retains db (db.writeOut page).2 := by
  rw [writeOut]
  split
  · exact .refl db
  · split
    · exact .refl db
    · refine ⟨id, fun {id frame _} cached marked => ?_⟩
      rw [Cache.frames_unpin, Cache.frames_modify] at cached
      split at cached
      · obtain ⟨old, -, rfl⟩ := Option.map_eq_some_iff.mp cached
        cases marked
      · exact ⟨frame, cached, marked⟩

private theorem retains_commitPage (db : Database) (page : PageId) : Retains db (db.commitPage page).2 :=
  kept_commitPage (motive := Retains db) (db.retains_writeOut page)
    fun written => written.trans (retains_dropPage _ page)

private theorem retains_flushPages (db : Database) (pages : List PageId) :
    Retains db (forEachPage commitPage db pages).2 :=
  kept_forEachPage (motive := Retains db)
    (fun {mid} page before => before.trans (mid.retains_commitPage page)) (.refl db) pages

private theorem retains_writeOutAll (db : Database) (pages : List PageId) :
    Retains db (db.writeOutAll pages).2 :=
  kept_writeOutAll (motive := Retains db)
    (fun {mid} page before => before.trans (mid.retains_writeOut page)) (.refl db) pages

private theorem retains_modifyHeld (db : Database) (handle : Handle) {change : Page → Page}
    (unmarked : ∀ old, db.cache.held? handle = some old →
      (change old).changedBy = none ∨ (change old).changedBy = old.changedBy) (volume : Volume) :
    Retains db { db with volume := volume, cache := db.cache.modifyHeld handle change } := by
  refine ⟨id, fun {id frame _} cached marked => ?_⟩
  rw [Cache.frames_modifyHeld] at cached
  split at cached
  · rename_i here
    obtain ⟨current, rfl⟩ := here
    obtain ⟨old, held, rfl⟩ := Option.map_eq_some_iff.mp cached
    refine ⟨old, held, ?_⟩
    have seen : db.cache.held? handle = some old.page := by
      rw [Cache.held?, if_pos current, Cache.page?, held]
      rfl
    rcases unmarked old.page seen with clean | same
    · rw [clean] at marked
      cases marked
    · exact same ▸ marked
  · exact ⟨frame, cached, marked⟩

/-! ### Actions -/

/-- Whether exclusive locks and marks are retained, up to the change that is made in the end, if any. -/
def Advances (db : Database) (change : Option Change) (db' : Database) : Prop :=
  ∃ mid, Retains db mid ∧
    match change with
    | none => db' = mid
    | some c => Edit c.txn c.record c.content mid db'

private theorem Retains.advances {db db' : Database} (h : Retains db db') : Advances db none db' :=
  ⟨db', h, rfl⟩

private theorem Attempt.advances {grows : Table → Volume → Prop} {txn : TxnId}
    {content : RecordId → Option Tuple} {db db' : Database} {done : Option RecordId}
    (h : Attempt grows txn content db done db') :
    Advances db (done.map fun record => ⟨txn, record, content record⟩) db' := by
  obtain ⟨mid, way, edit⟩ := h
  refine ⟨mid, way.retains, ?_⟩
  cases done with
  | none => exact edit
  | some record => exact edit

private theorem advances_of_guarded {db : Database} (keyed : db.cache.Keyed) {action : Action}
    (guarded : db.Guarded action (db.perform action).1)
    (goes_on : ∀ txn commit order, action ≠ .complete txn commit order) :
    Advances db (Change.of? action (db.perform action).1) (db.perform action).2 := by
  have still {db' : Database} (locks : db'.locks = db.locks) (cache : db'.cache = db.cache) :
      Advances db none db' :=
    (Retains.of_frames locks fun page => congrArg (fun c => c.frames[page]?) cache).advances
  cases action with
  | complete txn commit order => exact absurd rfl (goes_on txn commit order)
  | begin => exact still rfl rfl
  | fetch txn page access => exact (retains_fetch db txn page access).advances
  | insert txn id tuple =>
    exact (attempt_insert (fun _ _ => True) txn tuple keyed id
      fun _ _ _ _ => trivial).advances
  | delete txn record => exact (attempt_delete (fun _ _ => True) db txn record keyed).advances
  | attempt txn page mode =>
    exact (Approach.still.wait (db.locks.onward_request txn page mode) :
      Approach (fun _ _ => True) txn db _).retains.advances
  | giveUp txn =>
    exact (Approach.still.wait (Locks.Onward.refl txn db.locks).stopWaiting :
      Approach (fun _ _ => True) txn db _).retains.advances
  | advance i => exact (attempt_takeTurn (fun _ _ => True) keyed i fun _ => trivial).advances
  | hasMore scan =>
    exact ((scan.turn_hasMore db).1.approach fun _ _ => True).retains.advances
  | step scan => exact ((scan.turn_step db).approach fun _ _ => True).retains.advances
  | collect scan => exact ((scan.turn_collect db).approach fun _ _ => True).retains.advances
  | insertInto table txn tuple =>
    exact (attempt_insertInto (fun _ _ => True) txn tuple keyed fun _ _ => trivial).advances
  | deleteFrom table txn record =>
    exact (attempt_deleteFrom (fun _ _ => True) db txn record table).advances
  | mark handle txn => exact guarded.elim
  | alter handle page =>
    exact (db.retains_modifyHeld handle (fun old held => .inr (guarded old held)) _).advances
  | release txn page => exact guarded.elim
  | drop page => exact (db.retains_dropPage page).advances
  | flush page =>
    apply Retains.advances
    simp only [perform, flush]
    split
    · exact db.retains_writeOut page
    · exact .refl db
  | flushTxn txn order => exact (db.retains_flushPages order).advances
  | flushAll order => exact (db.retains_writeOutAll order).advances
  | openTable place schema pageSize =>
    exact still (db.locks_openTable place schema pageSize) (db.cache_openTable place schema pageSize)
  | attachTable place schema pageSize name primaryKey =>
    exact still (db.locks_attachTable place schema pageSize name primaryKey)
      (db.cache_attachTable place schema pageSize name primaryKey)
  | clearCatalog => exact still rfl rfl
  | append table => exact still rfl rfl
  | loadLoose table page =>
    apply Retains.advances
    simp only [perform, loadLoose]
    split <;> exact .of_frames rfl fun _ => rfl
  | storeHeld table handle =>
    apply Retains.advances
    simp only [perform]
    split
    · exact .refl db
    · simp only [storeHeld]
      split
      · exact .refl db
      · exact db.retains_modifyHeld handle (fun _ _ => .inl rfl) _
  | outside volume => exact still rfl rfl

/-! ### Runs -/

/-- Whether every page that is marked as changed, or has been changed since its transaction began, is
locked exclusively by the transaction. -/
structure Owned (l : Ledger) (db : Database) : Prop where
  changed : ∀ {page : PageId} {frame : Frame} {txn : TxnId}, db.cache.frames[page]? = some frame →
    frame.page.changedBy = some txn → db.locks.mode? txn page = some .exclusive
  pending : ∀ {txn : TxnId} {c : Change}, c ∈ l.pending txn →
    db.locks.mode? txn c.record.page = some .exclusive

namespace Owned
variable {l : Ledger} {db db' : Database}

private theorem retains (h : Owned l db) (retained : Retains db db') : Owned l db' where
  changed cached marked := by
    obtain ⟨old, held, marked⟩ := retained.changed cached marked
    exact retained.locked (h.changed held marked)
  pending listed := retained.locked (h.pending listed)

private theorem edit (h : Owned l db) {c : Change} (edit : Edit c.txn c.record c.content db db') :
    Owned (l.add c) db' where
  changed cached marked := by
    rw [edit.locks]
    rcases edit.cached_cases cached with ⟨-, before⟩ | ⟨old, rfl, -, -, rfl⟩
    · exact h.changed before marked
    · cases marked
      exact edit.exclusive
  pending listed := by
    rw [edit.locks]
    rcases Ledger.mem_pending_add.mp listed with before | ⟨rfl, rfl⟩
    · exact h.pending before
    · exact edit.exclusive

private theorem close (h : Owned l db) (sound : db.Sound) {txn : TxnId} (commit : Bool)
    {order : List PageId} (listed : order.Perm (db.cache.dirtyPagesOf txn)) :
    Owned (l.close txn commit) (db.completeIn txn commit order).2 := by
  have completed := sound.completed commit listed
  constructor
  · intro page frame writer cached marked
    have other : writer ≠ txn := by
      rintro rfl
      exact completed.undone cached marked
    rw [completed.others_locked other]
    -- a page visited is clean or gone now, whatever was changed by another transaction is as it was
    by_cases visited : page ∈ order
    · obtain ⟨old, held, -⟩ := Cache.mem_dirtyPagesOf.mp (listed.mem_iff.mp visited)
      rcases completed.settled visited held with gone | ⟨new, kept, -, clean, -⟩
      · rw [gone] at cached
        cases cached
      · rw [kept] at cached
        cases cached
        rw [clean] at marked
        cases marked
    · rw [completed.others_cached visited] at cached
      exact h.changed cached marked
  · intro writer c made
    obtain ⟨other, before⟩ := Ledger.mem_pending_close.mp made
    rw [completed.others_locked other]
    exact h.pending before

private theorem perform (h : Owned l db) (sound : db.Sound) {action : Action} (fits : action.Fits db)
    (guarded : db.Guarded action (db.perform action).1) :
    Owned (l.note (action, (db.perform action).1)) (db.perform action).2 := by
  by_cases ends : ∃ txn commit order, action = .complete txn commit order
  · obtain ⟨txn, commit, order, rfl⟩ := ends
    exact h.close sound commit fits
  · have goes_on : ∀ txn commit order, action ≠ .complete txn commit order :=
      fun txn commit order same => ends ⟨txn, commit, order, same⟩
    rw [Ledger.note_of_change goes_on]
    obtain ⟨mid, retained, last⟩ := advances_of_guarded sound.keyed guarded goes_on
    cases made : Change.of? action (db.perform action).1 with
    | none =>
      rw [made] at last
      exact last ▸ h.retains retained
    | some c =>
      rw [made] at last
      exact (h.retains retained).edit last

end Owned

private theorem owned_after_run {settings : Settings} {volume : Volume} {start db : Database}
    {trace : List (Action × Reply)} (opened : ofVolume settings volume = .ok start)
    (run : Run Guarded start trace db) : Owned (.along trace) db := by
  induction run using Run.inductionOn with
  | first =>
    constructor
    · intro page frame txn cached
      rw [Prepared.uncached (.opened opened)] at cached
      cases cached
    · intro txn c listed
      cases listed
  | next earlier action fits may ih =>
    rw [Ledger.along_concat]
    exact ih.perform (earlier.sound (sound_ofVolume opened)) fits may

/-- Whatever transactions do and whatever becomes of tables and files: a page marked as changed is
locked exclusively by the transaction that has changed it, and by nobody else. No page has been changed
by two transactions that go on, and a transaction that fetches a page finds it clean or changed by
itself. -/
theorem writers_alone {settings : Settings} {volume : Volume} {start db : Database}
    {trace : List (Action × Reply)} (opened : ofVolume settings volume = .ok start)
    (run : Run Guarded start trace db) :
    (∀ {page : PageId} {frame : Frame} {txn : TxnId}, db.cache.frames[page]? = some frame →
      frame.page.changedBy = some txn → db.locks.mode? txn page = some .exclusive ∧
        ∀ other, db.locks.holds other page → other = txn) ∧
    (∀ {txn other : TxnId} {c c' : Change}, c ∈ (Ledger.along trace).pending txn →
      c' ∈ (Ledger.along trace).pending other → c'.record.page = c.record.page → other = txn) ∧
    ∀ {txn : TxnId} {page : PageId} {access : Access} {frame : Frame} {db' : Database},
      db.fetch txn page access = (.ok frame, db') →
        frame.page.changedBy = none ∨ frame.page.changedBy = some txn := by
  have sound := run.sound (sound_ofVolume opened)
  have owned := owned_after_run opened run
  refine ⟨?alone, ?apart, ?fetched⟩
  case alone =>
    intro page frame txn cached marked
    have locked := owned.changed cached marked
    exact ⟨locked, fun other => sound.locks.alone locked⟩
  case apart =>
    intro txn other c c' listed listed' same
    have locked := owned.pending listed
    have locked' := owned.pending listed'
    refine sound.locks.alone locked ?_
    rw [← same, Locks.holds, locked']
    rfl
  case fetched =>
    intro txn page access frame db' fetched
    have after := retains_fetch db txn page access
    have quiet := quiet_fetch db txn page access
    rw [fetched] at after quiet
    obtain ⟨cached, ⟨held, locked, -⟩, -⟩ := fetch_eq_ok fetched
    cases marked : frame.page.changedBy with
    | none => exact .inl rfl
    | some writer =>
      have holds : db'.locks.holds txn page := by rw [Locks.holds, locked]; rfl
      have exclusive := (owned.retains after).changed cached marked
      exact .inr (congrArg some ((quiet.locks.sound sound.locks).alone exclusive holds).symm)

/-- A row was inserted by the first transaction, whose page was taken out of the cache, and another
one after that. The second transaction has asked for the page. -/
private def writingSample : Database :=
  ((((Prepared.sample.perform (Prepared.insertion 1 7)).2.perform (.drop ⟨0, 0⟩)).2.perform
    (Prepared.insertion 1 8)).2.perform (Prepared.insertion 2 9)).2

theorem writers_alone_dropped : ∃ start trace frame,
    ofVolume { pageSize := 16 } .empty = .ok start ∧ Run Guarded start trace writingSample ∧
      writingSample.cache.frames[(⟨0, 0⟩ : PageId)]? = some frame ∧
      frame.page.changedBy = some 1 ∧ ((Ledger.along trace).pending 1).length = 2 ∧
      writingSample.locks.mode? 1 ⟨0, 0⟩ = some .exclusive ∧
      ∀ other, writingSample.locks.holds other ⟨0, 0⟩ → other = 1 := by
  have opened : ofVolume { pageSize := 16 } .empty =
    .ok ⟨{ pageSize := 16 }, .empty, .empty, .empty, .empty 50, 1, 0⟩ := rfl
  have run : Run Guarded _ _ writingSample :=
    ((((Run.start.next (.attachTable (.file 0) ⟨[⟨.int, none⟩]⟩ 16 "numbers" "") trivial trivial).next
      (Prepared.insertion 1 7) rfl trivial).next (.drop ⟨0, 0⟩) trivial trivial).next
        (Prepared.insertion 1 8) rfl trivial).next (Prepared.insertion 2 9) rfl trivial
  have marks : (writingSample.cache.frames[(⟨0, 0⟩ : PageId)]?.map fun frame =>
      frame.page.changedBy) = some (some 1) := by decide +kernel
  obtain ⟨frame, cached, marked⟩ := Option.map_eq_some_iff.mp marks
  obtain ⟨alone, -, -⟩ := writers_alone opened run
  exact ⟨_, _, frame, opened, run, cached, marked, by decide +kernel, alone cached marked⟩

end Database
end PagedStore
