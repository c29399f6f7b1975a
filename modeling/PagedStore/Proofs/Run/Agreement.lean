import PagedStore.Proofs.Run.Completion
import PagedStore.Proofs.Run.Ledger

/-! Along runs of transactions, the files and the cache are as the ledger of the run tells. -/
namespace PagedStore

/-- Whether a database is as a ledger tells: the files hold the committed rows, and each cached page
shows the rows that the transaction is to see which has changed it, and which alone has it locked. -/
structure Agrees (initial : RecordId → Option (List Value)) (l : Ledger) (db : Database) : Prop where
  sound : db.Sound
  fitting : ∀ {page : PageId} {frame : Frame}, db.cache.frames[page]? = some frame →
    frame.page.Sound ∧ ∃ table, db.catalog.table page.table = .ok table ∧
      frame.page.schema = table.schema ∧ frame.page.size = table.pageSize
  readable : ∀ {page : PageId} {frame : Frame}, db.cache.frames[page]? = some frame →
    ∃ p, db.load page = .ok p
  shown : ∀ {page : PageId} {frame : Frame}, db.cache.frames[page]? = some frame → ∀ slot,
    frame.page.keptRow? slot = l.view initial frame.page.changedBy ⟨page, slot⟩
  owned : ∀ {page : PageId} {frame : Frame} {txn : TxnId}, db.cache.frames[page]? = some frame →
    frame.page.changedBy = some txn → db.locks.mode? txn page = some .exclusive
  pending : ∀ {txn : TxnId} {c : Change}, c ∈ l.pending txn → ∃ frame,
    db.cache.frames[c.record.page]? = some frame ∧ frame.page.changedBy = some txn
  disk : ∀ {page : PageId} {p : Page}, db.load page = .ok p → ∀ slot,
    p.row? slot = l.rows initial ⟨page, slot⟩
  beyond : ∀ {page : PageId} {table : Table}, db.catalog.table page.table = .ok table →
    table.pages db.volume ≤ page.number → ∀ slot, l.rows initial ⟨page, slot⟩ = none

namespace Agrees
open Database
variable {initial : RecordId → Option (List Value)} {l : Ledger} {db db' : Database}

/-- A transaction that has a page locked sees there what it is to see. -/
theorem seen (h : Agrees initial l db) {page : PageId} {frame : Frame}
    (cached : db.cache.frames[page]? = some frame) {txn : TxnId} (locked : db.locks.holds txn page)
    (slot : Nat) : frame.page.keptRow? slot = l.seenBy initial txn ⟨page, slot⟩ := by
  rw [h.shown cached]
  cases changed : frame.page.changedBy with
  | none =>
    refine (Ledger.seenBy_of_untouched fun c listed here => ?_).symm
    obtain ⟨frame', cached', changed'⟩ := h.pending listed
    rw [here, cached] at cached'
    cases cached'
    rw [changed] at changed'
    cases changed'
  | some writer =>
    have self : txn = writer := h.sound.locks.alone (h.owned cached changed) locked
    rw [self]
    rfl

private theorem disk_quiet (h : Agrees initial l db) {txn : TxnId} (quiet : Quiet txn db db')
    {page : PageId} {p : Page} (loaded : db'.load page = .ok p) (slot : Nat) :
    p.row? slot = l.rows initial ⟨page, slot⟩ := by
  obtain ⟨table, known, read⟩ := load_eq_ok_iff.mp loaded
  have own := table.table_eq_of_load read
  rw [quiet.catalog] at known
  have grown := quiet.grown table (by rwa [Knows, ← own])
  by_cases inside : page.number < table.pages db.volume
  · refine h.disk (load_eq_ok_iff.mpr ⟨table, known, ?_⟩) slot
    rw [← grown.load_eq own inside, read]
  · have behind := Nat.not_lt.mp inside
    obtain ⟨blank, read', rows⟩ := grown.load_blank own behind (table.shown_of_load read).1
    rw [read] at read'
    cases read'
    rw [h.beyond known behind, Page.row?, rows]
    rfl

/-- While pages come and go, nothing changes that a ledger tells of. -/
theorem quiet (h : Agrees initial l db) {txn : TxnId} (quiet : Quiet txn db db') (sound : db'.Sound) :
    Agrees initial l db' where
  sound := sound
  fitting {page frame} cached := by
    rcases quiet.frames page with same | ⟨-, loaded⟩
    · rw [quiet.catalog]
      exact h.fitting (same ▸ cached)
    · obtain ⟨table, known, read⟩ := load_eq_ok_iff.mp (loaded frame cached)
      have shown := (table.shown_of_load read).2
      exact ⟨shown.sound, table, known, shown.schema_eq, shown.size_eq⟩
  readable {page frame} cached := by
    rcases quiet.frames page with same | ⟨-, loaded⟩
    · obtain ⟨p, read⟩ := h.readable (same ▸ cached)
      exact ⟨p, quiet.load_of_ok read⟩
    · exact ⟨_, loaded frame cached⟩
  shown {page frame} cached slot := by
    rcases quiet.frames page with same | ⟨-, loaded⟩
    · exact h.shown (same ▸ cached) slot
    · obtain ⟨table, -, read⟩ := load_eq_ok_iff.mp (loaded frame cached)
      rw [(table.shown_of_load read).2.keptRow?_eq, h.disk_quiet quiet (loaded frame cached),
        (shown_of_load (loaded frame cached)).2]
      rfl
  owned {page frame txn} cached changed := by
    refine quiet.locks.exclusive (h.owned (quiet.to_dirty cached ?_) changed)
    rw [changed]
    exact Option.some_ne_none _
  pending listed := by
    obtain ⟨frame, cached, changed⟩ := h.pending listed
    exact ⟨frame, quiet.of_dirty cached (by rw [changed]; exact Option.some_ne_none _), changed⟩
  disk := h.disk_quiet quiet
  beyond {page table} known behind := by
    rw [quiet.catalog] at known
    refine h.beyond known (Nat.le_trans (quiet.grown table ?_).pages_le behind)
    rwa [Knows, h.sound.filed known]

/-- Only the transaction that edits a page can have changed it before, as it has the page locked. -/
private theorem writer_eq (h : Agrees initial l db) {txn writer : TxnId} {record : RecordId}
    {content : Option Tuple} (edit : Edit txn record content db db') {old : Frame}
    (held : db.cache.frames[record.page]? = some old) (changed : old.page.changedBy = some writer) :
    writer = txn := by
  refine (h.sound.locks.alone (h.owned held changed) ?_).symm
  rw [Locks.holds, edit.exclusive]
  rfl

private theorem edit (h : Agrees initial l db) {c : Change} (edit : Edit c.txn c.record c.content db db')
    (typed : ∀ tuple, c.content = some tuple → tuple.IsTyped) (sound : db'.Sound) :
    Agrees initial (l.add c) db' where
  sound := sound
  fitting {page frame} cached := by
    rw [edit.catalog]
    rcases edit.cached_cases cached with ⟨-, before⟩ | ⟨old, rfl, held, takes, rfl⟩
    · exact h.fitting before
    · obtain ⟨whole, table, known, schema, size⟩ := h.fitting held
      exact ⟨(whole.withSlot takes typed).changed c.txn, table, known, schema, size⟩
  readable {page frame} cached := by
    rw [edit.load_eq]
    rcases edit.cached_cases cached with ⟨-, before⟩ | ⟨old, rfl, held, -⟩
    · exact h.readable before
    · exact h.readable held
  shown {page frame} cached slot := by
    rcases edit.cached_cases cached with ⟨elsewhere, before⟩ | ⟨old, rfl, held, takes, rfl⟩
    · rw [h.shown before]
      cases frame.page.changedBy with
      | none => rfl
      | some writer =>
        show _ = (l.add c).seenBy initial writer _
        rw [Ledger.seenBy_add, if_neg fun whole => elsewhere (congrArg RecordId.page whole.2)]
        rfl
    · have locked : db.locks.holds c.txn c.record.page := by
        rw [Locks.holds, edit.exclusive]
        rfl
      show (old.page.withSlot c.record.slot c.content).keptRow? slot = (l.add c).seenBy initial c.txn _
      rw [Page.keptRow?_withSlot takes.inside, Ledger.seenBy_add, h.seen held locked]
      by_cases same : slot = c.record.slot
      · rw [if_pos same, if_pos ⟨rfl, by rw [same]⟩]
      · rw [if_neg same, if_neg fun whole => same (congrArg RecordId.slot whole.2)]
  owned {page frame txn} cached changed := by
    rw [edit.locks]
    rcases edit.cached_cases cached with ⟨-, before⟩ | ⟨old, rfl, -, -, rfl⟩
    · exact h.owned before changed
    · cases changed
      exact edit.exclusive
  pending {txn c'} listed := by
    obtain ⟨old, held, -, frames⟩ := edit.found
    rw [frames]
    rcases Ledger.mem_pending_add.mp listed with listed | ⟨rfl, rfl⟩
    · obtain ⟨frame, cached, changed⟩ := h.pending listed
      split
      · rename_i here
        rw [here, held] at cached
        cases cached
        exact ⟨_, rfl, congrArg some (h.writer_eq edit held changed).symm⟩
      · exact ⟨frame, cached, changed⟩
    · rw [if_pos rfl]
      exact ⟨_, rfl, rfl⟩
  disk {page p} loaded := h.disk (edit.load_eq page ▸ loaded)
  beyond {page table} known behind := by
    rw [edit.catalog] at known
    rw [edit.volume] at behind
    exact h.beyond known behind

section Close
variable {txn : TxnId} {order : List PageId}

/-- What a transaction has changed is in the cache as its own. -/
theorem changed_of_mem (listed : order.Perm (db.cache.dirtyPagesOf txn)) {page : PageId}
    (mem : page ∈ order) :
    ∃ frame, db.cache.frames[page]? = some frame ∧ frame.page.changedBy = some txn :=
  Cache.mem_dirtyPagesOf.mp (listed.mem_iff.mp mem)

variable (h : Agrees initial l db)
include h

theorem onDisk {page : PageId} {frame : Frame} (cached : db.cache.frames[page]? = some frame) :
    db.OnDisk page := by
  obtain ⟨p, loaded⟩ := h.readable cached
  exact onDisk_of_load loaded

variable (listed : order.Perm (db.cache.dirtyPagesOf txn))
include listed

private theorem untouched {page : PageId} (outside : page ∉ order) :
    ∀ c ∈ l.pending txn, c.record.page ≠ page := by
  intro c pending here
  obtain ⟨frame, cached, changed⟩ := h.pending pending
  refine outside (listed.mem_iff.mpr (Cache.mem_dirtyPagesOf.mpr ⟨frame, ?_, changed⟩))
  exact here ▸ cached

/-- Every changed page can be written, and read again. -/
theorem not_stuck (commit : Bool) : ∀ page ∈ order, ¬ db.Stuck commit order page := by
  intro page mem stuck
  obtain ⟨frame, cached, -⟩ := changed_of_mem listed mem
  obtain ⟨p, loaded⟩ := h.readable cached
  cases commit with
  | false =>
    obtain ⟨fault, failed⟩ := stuck
    rw [loaded] at failed
    cases failed
  | true =>
    obtain ⟨before, after, frame', fault, -, cached', failed⟩ := stuck
    rw [cached] at cached'
    cases cached'
    have confined := (confined_forEachPage confined_commitPage h.sound.filed h.sound.keyed before).1
    obtain ⟨whole, table, known, -, size⟩ := h.fitting cached
    obtain ⟨table', known', inside⟩ := h.onDisk cached
    rw [known] at known'
    cases known'
    have own := h.sound.keyed cached
    have more : table.pages db.volume ≤ table.pages (forEachPage commitPage db before).2.volume :=
      Nat.div_le_div_right (confined.lengths table.id)
    have written := table.store_eq_ok_iff.mpr ⟨whole.length_image.trans size,
      own.symm ▸ Nat.le_trans (Nat.le_of_lt inside) more, rfl⟩
    have stored := Database.store_eq_ok_iff.mpr ⟨table, by rw [confined.catalog, own, known], written⟩
    rw [stored] at failed
    cases failed

/-- What becomes of a changed page: it is clean and shows the committed rows, as its file does. -/
theorem settled (commit : Bool) {page : PageId} (mem : page ∈ order) : ∃ new p,
    (db.completeIn txn commit order).2.cache.frames[page]? = some new ∧
    new.page.changedBy = none ∧
    (new.page.Sound ∧ ∃ table, db.catalog.table page.table = .ok table ∧
      new.page.schema = table.schema ∧ new.page.size = table.pageSize) ∧
    (db.completeIn txn commit order).2.load page = .ok p ∧
    ∀ slot, new.page.keptRow? slot = p.row? slot ∧
      p.row? slot = (l.close txn commit).rows initial ⟨page, slot⟩ := by
  obtain ⟨frame, cached, changed⟩ := changed_of_mem listed mem
  have completed := h.sound.completed commit listed
  rcases completed.settled mem cached with gone | ⟨new, held, -, clean, step⟩
  · exact absurd ((completed.gone mem).mp gone) (h.not_stuck listed commit page mem)
  · obtain ⟨whole, table, known, schema, size⟩ := h.fitting cached
    cases commit with
    | true =>
      obtain ⟨same, has⟩ := step
      obtain ⟨table', known', loaded⟩ := has.load_eq (completed.catalog ▸ h.sound.filed)
      rw [completed.catalog, known] at known'
      cases known'
      rw [same, Page.image_cleaned, ← schema, ← h.sound.keyed cached, whole.ofImage_image] at loaded
      refine ⟨new, frame.page.stored, held, clean, ⟨same ▸ whole.cleaned, table, known, same ▸ schema,
        same ▸ size⟩, h.sound.keyed cached ▸ loaded, fun slot => ?_⟩
      rw [Page.row?_stored_eq, same, Ledger.rows_close]
      refine ⟨rfl, (h.shown cached slot).trans ?_⟩
      rw [changed]
      rfl
    | false =>
      obtain ⟨table', known', read⟩ := load_eq_ok_iff.mp step
      rw [completed.catalog, known] at known'
      cases known'
      have shown := (table.shown_of_load read).2
      refine ⟨new, new.page, held, clean, ⟨shown.sound, table, known, shown.schema_eq, shown.size_eq⟩,
        step, fun slot => ⟨shown.keptRow?_eq slot, ?_⟩⟩
      refine h.disk (load_eq_ok_iff.mpr ⟨table, known, ?_⟩) slot
      rw [← completed.undisturbed rfl, read]

/-- The end of a transaction succeeds. -/
theorem complete_ok (commit : Bool) : (db.completeIn txn commit order).1 = .ok () := by
  cases he : (db.completeIn txn commit order).1 with
  | ok done => rfl
  | error fault =>
    obtain ⟨page, mem, stuck⟩ := (h.sound.completed commit listed).failed.mp ⟨fault, he⟩
    exact absurd stuck (h.not_stuck listed commit page mem)

theorem onDisk_of_mem : ∀ page ∈ order, db.OnDisk page := by
  intro page mem
  obtain ⟨frame, cached, -⟩ := changed_of_mem listed mem
  exact h.onDisk cached

theorem pages_complete (commit : Bool) (table : Table) :
    table.pages (db.completeIn txn commit order).2.volume = table.pages db.volume := by
  rw [Table.pages_eq, Table.pages_eq,
    (h.sound.completed commit listed).length_eq h.sound.filed (h.onDisk_of_mem listed)]

/-- A page that the transaction has not changed is read as before. -/
theorem load_complete (commit : Bool) {page : PageId} (outside : page ∉ order) :
    (db.completeIn txn commit order).2.load page = db.load page :=
  (h.sound.completed commit listed).load_eq h.sound.filed (h.onDisk_of_mem listed) outside

private theorem close (commit : Bool) :
    Agrees initial (l.close txn commit) (db.completeIn txn commit order).2 := by
  have completed := h.sound.completed commit listed
  -- Each page is one that the transaction has changed, or it is as before.
  have cases_of {page : PageId} {frame : Frame}
      (cached : (db.completeIn txn commit order).2.cache.frames[page]? = some frame) :
      (page ∈ order ∧ frame.page.changedBy = none) ∨
        (page ∉ order ∧ db.cache.frames[page]? = some frame) := by
    by_cases mem : page ∈ order
    · obtain ⟨new, p, held, clean, -⟩ := h.settled listed commit mem
      rw [held] at cached
      cases cached
      exact .inl ⟨mem, clean⟩
    · exact .inr ⟨mem, (completed.others_cached mem).symm.trans cached⟩
  have rows_outside {page : PageId} (outside : page ∉ order) (slot : Nat) :
      (l.close txn commit).rows initial ⟨page, slot⟩ = l.rows initial ⟨page, slot⟩ :=
    Ledger.rows_close_of_untouched commit (h.untouched listed outside)
  refine ⟨h.sound.of_completeIn txn commit order, ?fitting, ?readable, ?shown, ?owned, ?pending, ?disk,
    ?beyond⟩
  case fitting =>
    intro page frame cached
    rw [completed.catalog]
    rcases cases_of cached with ⟨mem, -⟩ | ⟨-, before⟩
    · obtain ⟨new, p, held, -, fitting, -⟩ := h.settled listed commit mem
      rw [held] at cached
      cases cached
      exact fitting
    · exact h.fitting before
  case readable =>
    intro page frame cached
    rcases cases_of cached with ⟨mem, -⟩ | ⟨outside, before⟩
    · obtain ⟨new, p, -, -, -, loaded, -⟩ := h.settled listed commit mem
      exact ⟨p, loaded⟩
    · rw [h.load_complete listed commit outside]
      exact h.readable before
  case shown =>
    intro page frame cached slot
    rcases cases_of cached with ⟨mem, -⟩ | ⟨outside, before⟩
    · obtain ⟨new, p, held, clean, -, -, rows⟩ := h.settled listed commit mem
      rw [held] at cached
      cases cached
      rw [clean]
      exact (rows slot).1.trans (rows slot).2
    · rw [h.shown before, Ledger.view_close commit _ (h.untouched listed outside)]
      exact completed.undone cached
  case owned =>
    intro page frame writer cached changed
    have other : writer ≠ txn := fun self => completed.undone cached (self ▸ changed)
    rw [completed.others_locked other]
    rcases cases_of cached with ⟨-, clean⟩ | ⟨-, before⟩
    · rw [clean] at changed
      cases changed
    · exact h.owned before changed
  case pending =>
    intro writer c listed'
    obtain ⟨other, before⟩ := Ledger.mem_pending_close.mp listed'
    obtain ⟨frame, cached, changed⟩ := h.pending before
    have outside : c.record.page ∉ order := by
      intro mem
      obtain ⟨frame', cached', changed'⟩ := changed_of_mem listed mem
      rw [cached] at cached'
      cases cached'
      rw [changed] at changed'
      exact other (Option.some.inj changed')
    exact ⟨frame, (completed.others_cached outside).trans cached, changed⟩
  case disk =>
    intro page p loaded slot
    by_cases mem : page ∈ order
    · obtain ⟨new, p', -, -, -, loaded', rows⟩ := h.settled listed commit mem
      rw [loaded] at loaded'
      cases loaded'
      exact (rows slot).2
    · rw [rows_outside mem]
      exact h.disk (h.load_complete listed commit mem ▸ loaded) slot
  case beyond =>
    intro page table known behind slot
    rw [completed.catalog] at known
    rw [h.pages_complete listed] at behind
    have outside : page ∉ order := by
      intro mem
      obtain ⟨table', known', inside⟩ := h.onDisk_of_mem listed page mem
      rw [known] at known'
      cases known'
      exact Nat.not_le.mpr inside behind
    rw [rows_outside outside]
    exact h.beyond known behind slot

end Close

/-- What a transaction does agrees with what is noted of it. -/
theorem step (h : Agrees initial l db) {action : Action} (fits : action.Fits db)
    (ordinary : Ordinary db action (db.perform action).1) :
    Agrees initial (l.note (action, (db.perform action).1)) (db.perform action).2 := by
  have sound := h.sound.perform fits
  by_cases ending : ∃ txn commit order, action = .complete txn commit order
  · obtain ⟨txn, commit, order, rfl⟩ := ending
    exact h.close fits commit
  · rw [Ledger.note_of_change fun txn commit order same => ending ⟨txn, commit, order, same⟩]
    have moves := (h.sound.completes_or_moves ordinary.usual ordinary.2).resolve_left ending
    rcases moves.cases with ⟨made, txn, quiet⟩ | ⟨c, mid, made, quiet, edit⟩
    · rw [made]
      exact h.quiet quiet sound
    · rw [made]
      exact (h.quiet quiet (h.sound.of_quiet quiet)).edit edit (Change.typed_of_fits fits made) sound

end Agrees

theorem Prepared.agrees {settings : Settings} {volume : Volume} {start : Database}
    (h : Prepared settings volume start) : Agrees start.contents .empty start := by
  refine ⟨h.sound, ?_, ?_, ?_, ?_, fun listed => absurd listed List.not_mem_nil, ?_, ?_⟩
  · intro page frame cached
    rw [h.uncached] at cached
    cases cached
  · intro page frame cached
    rw [h.uncached] at cached
    cases cached
  · intro page frame cached
    rw [h.uncached] at cached
    cases cached
  · intro page frame txn cached
    rw [h.uncached] at cached
    cases cached
  · intro page p loaded slot
    show _ = start.contents _
    simp only [Database.contents, loaded]
  · intro page table known behind slot
    show start.contents _ = none
    simp only [Database.contents, Database.load, known]
    rw [table.load_eq start.volume (h.sound.filed known).symm, if_neg (Nat.not_lt.mpr behind)]

/-- Along every run of transactions, the database is as the ledger of the run tells. -/
theorem Run.agrees {settings : Settings} {volume : Volume} {start db : Database}
    {trace : List (Action × Reply)} (prepared : Prepared settings volume start)
    (run : Run Ordinary start trace db) : Agrees start.contents (Ledger.along trace) db := by
  induction run using Run.inductionOn with
  | first => exact prepared.agrees
  | next _ _ fits ordinary ih =>
    rw [Ledger.along_concat]
    exact ih.step fits ordinary

end PagedStore
