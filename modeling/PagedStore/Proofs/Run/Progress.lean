import PagedStore.Proofs.Database.Crowded
import PagedStore.Proofs.Database.Progress
import PagedStore.Proofs.Run.Changes
import PagedStore.Proofs.Run.Completion
import PagedStore.Proofs.Run.Tidy

/-! What transactions do comes to an end where tables have page numbers left, as every cached page is one that a
table has. Where a crowded table has none left, an insertion empties pages that are on disk. -/
namespace PagedStore

/-- Ways past the locks and the cache: a lock that is given back early, and a page that is marked as
changed by whoever holds on to it. -/
def Action.Unguarded : Action → Prop
  | .release _ _ => True
  | .mark _ _ => True
  | _ => False

/-- Everything that transactions may do, also past the database's own insertion and deletion and past
its locks; the files and tables are left alone. -/
def Unruly (db : Database) (action : Action) (reply : Reply) : Prop :=
  (action.Usual db ∨ action.Unguarded) ∧ reply.ends

namespace Database

theorem OnDisk.quiet {txn : TxnId} {db db' : Database} {page : PageId} (h : db.OnDisk page)
    (filed : db.catalog.Filed) (quiet : Quiet txn db db') : db'.OnDisk page := by
  obtain ⟨table, known, inside⟩ := h
  have grown := quiet.grown table (by rwa [Knows, filed known])
  exact ⟨table, quiet.catalog ▸ known, Nat.lt_of_lt_of_le inside grown.pages_le⟩

/-- Whether a database is in order and every cached page is one that a known table has. -/
structure Backed (db : Database) : Prop where
  sound : db.Sound
  onDisk : ∀ {page : PageId} {frame : Frame}, db.cache.frames[page]? = some frame → db.OnDisk page

private theorem Moves.backed {db db' : Database} {change : Option Change} (h : Moves db change db')
    (backed : db.Backed) (sound : db'.Sound) : db'.Backed := by
  have filed := backed.sound.filed
  have brought {txn : TxnId} {mid : Database} (quiet : Quiet txn db mid) {page : PageId} {frame : Frame}
      (cached : mid.cache.frames[page]? = some frame) : mid.OnDisk page := by
    rcases quiet.frames page with same | ⟨-, loaded⟩
    · exact (backed.onDisk (same ▸ cached)).quiet filed quiet
    · exact onDisk_of_load (loaded frame cached)
  refine ⟨sound, ?_⟩
  intro page frame cached
  cases change with
  | none =>
    obtain ⟨txn, quiet⟩ := h
    exact brought quiet cached
  | some c =>
    obtain ⟨mid, quiet, edit⟩ := h
    have before : ∃ frame, mid.cache.frames[page]? = some frame := by
      rcases edit.cached_cases cached with ⟨-, before⟩ | ⟨old, here, held, -⟩
      · exact ⟨frame, before⟩
      · exact ⟨old, here ▸ held⟩
    obtain ⟨_, held⟩ := before
    obtain ⟨table, known, inside⟩ := brought quiet held
    exact ⟨table, edit.catalog ▸ known, edit.volume ▸ inside⟩

/-- An unruly action ends a transaction or moves pages, or it changes no more than locks and marks. -/
theorem Backed.cases {db : Database} (h : db.Backed) {action : Action}
    (unruly : Unruly db action (db.perform action).1) :
    (∃ txn commit order, action = .complete txn commit order) ∨
    Moves db (Change.of? action (db.perform action).1) (db.perform action).2 ∨
    (Change.of? action (db.perform action).1 = none ∧
      (db.perform action).2.catalog = db.catalog ∧ (db.perform action).2.volume = db.volume ∧
      ∀ page : PageId, (db.perform action).2.cache.frames[page]? = db.cache.frames[page]? ∨
        ∃ txn, (db.perform action).2.cache.frames[page]? = db.cache.frames[page]?.map
          fun frame : Frame => { frame with page := frame.page.changed txn }) := by
  rcases unruly with ⟨usual | past, ends⟩
  · exact (h.sound.completes_or_moves usual ends).imp_right .inl
  · cases action with
    | release txn page => exact .inr (.inr ⟨rfl, rfl, rfl, fun _ => .inl rfl⟩)
    | mark handle txn =>
      refine .inr (.inr ⟨rfl, rfl, rfl, fun page => ?_⟩)
      simp only [perform, Cache.frames_modifyHeld]
      split
      · exact .inr ⟨txn, rfl⟩
      · exact .inl rfl
    | _ => exact past.elim

private theorem Backed.step {db : Database} (h : db.Backed) {action : Action} (fits : action.Fits db)
    (unruly : Unruly db action (db.perform action).1) : (db.perform action).2.Backed := by
  have sound := h.sound.perform fits
  rcases h.cases unruly with ⟨txn, commit, order, rfl⟩ | moves | ⟨-, catalog, volume, frames⟩
  · have completed := h.sound.completed commit fits
    refine ⟨sound, ?_⟩
    intro page frame cached
    have before : ∃ old, db.cache.frames[page]? = some old := by
      by_cases listed : page ∈ order
      · obtain ⟨old, held, -⟩ := Cache.mem_dirtyPagesOf.mp (fits.mem_iff.mp listed)
        exact ⟨old, held⟩
      · exact ⟨frame, (completed.others_cached listed).symm.trans cached⟩
    obtain ⟨old, held⟩ := before
    exact (h.onDisk held).of_lengths completed.catalog completed.lengths
  · exact moves.backed h sound
  · refine ⟨sound, ?_⟩
    intro page frame cached
    have before : ∃ old, db.cache.frames[page]? = some old := by
      rcases frames page with same | ⟨txn, marked⟩
      · exact ⟨frame, same ▸ cached⟩
      · obtain ⟨old, held, -⟩ := Option.map_eq_some_iff.mp (marked ▸ cached)
        exact ⟨old, held⟩
    obtain ⟨old, held⟩ := before
    exact (h.onDisk held).of_lengths catalog fun file => Nat.le_of_eq (by rw [volume])

end Database

/-! ### Runs -/

theorem Prepared.backed {settings : Settings} {volume : Volume} {db : Database}
    (h : Prepared settings volume db) : db.Backed := by
  refine ⟨h.sound, ?_⟩
  intro page frame cached
  rw [h.uncached] at cached
  cases cached

theorem Run.backed {allowed : Database → Action → Reply → Prop} {db db' : Database}
    {trace : List (Action × Reply)} (run : Run allowed db trace db')
    (unruly : ∀ {mid action reply}, allowed mid action reply → Unruly mid action reply)
    (backed : db.Backed) : db'.Backed := by
  induction run using Run.inductionOn with
  | first => exact backed
  | next _ _ fits may ih => exact ih.step fits (unruly may)

/-! ### Progress -/

/-- Whether the table to insert into, if there is one, can get a page with a number of its own. -/
def Action.HasRoom (db : Database) : Action → Prop
  | .insert _ id _ =>
    ∀ table, db.catalog.table id = .ok table → table.pages db.volume < 4294967296
  | .insertInto table _ _ => table.pages db.volume < 4294967296
  | _ => True

private theorem Reply.ends_of_not_endless {result : Except Fault RecordId}
    (h : ¬ Database.endless result) : (record result).ends := by
  simpa [ends] using h

/-- Where every cached page is in the files, an insertion does not look for room for ever. -/
theorem Database.Backed.ends {db : Database} (h : db.Backed) {action : Action}
    (usual : action.Usual db ∨ action.Unguarded) (room : action.HasRoom db) :
    (db.perform action).1.ends := by
  cases action with
  | insert txn id tuple =>
    exact Reply.ends_of_not_endless (not_endless_insert h.sound.keyed h.sound.filed h.onDisk room)
  | insertInto table txn tuple =>
    have known : db.Knows table := ((usual.resolve_right id).resolve_left id).resolve_left id
    exact Reply.ends_of_not_endless (not_endless_insertInto h.sound.keyed known h.onDisk room)
  | delete txn record => exact Reply.ends_of_not_endless (not_endless_delete record h.sound.keyed)
  | deleteFrom table txn record =>
    exact Reply.ends_of_not_endless (not_endless_deleteFrom record table)
  | storeHeld table handle => exact (usual.elim (Or.elim · id (Or.elim · id id)) id).elim
  | _ => rfl

/-- After every run of transactions, each of their actions comes to an end if it finds room. -/
theorem Run.ends {settings : Settings} {volume : Volume} {start db : Database}
    {trace : List (Action × Reply)} (prepared : Prepared settings volume start)
    (run : Run Unruly start trace db) {action : Action}
    (usual : action.Usual db ∨ action.Unguarded) (room : action.HasRoom db) :
    (db.perform action).1.ends :=
  (run.backed id prepared.backed).ends usual room

/-! ### Crowded tables -/

/-- Whether a trace is made up of turns of an insertion, each of which goes on with what the one before has
left to do. -/
inductive Insertion.Goes (first : Insertion) : List (Action × Reply) → Insertion → Prop
  | start : Goes first [] first
  | turn {trace : List (Action × Reply)} {i next : Insertion} : Goes first trace i →
      Goes first (trace ++ [(.advance i, .turn (.goesOn next))]) next

theorem Ordinary.managed {db : Database} {action : Action} {reply : Reply} (h : Ordinary db action reply) :
    action.Managed := by
  cases action with
  | insertInto table txn tuple => exact h.1.elim id id
  | deleteFrom table txn record => exact h.1.elim id id
  | mark handle txn => exact h.1.elim id id
  | alter handle page => exact h.1.elim id id
  | storeHeld table handle => exact h.1.elim id id
  | _ => exact trivial

namespace Database

/-- Among transactions that do what they usually do, an insertion into a crowded table comes to any of the table's
pages, and to its end. The page that it has come past is cached. -/
private theorem Crowded.goes {table : Table} {db : Database} (crowded : db.Crowded table) (sound : db.Sound)
    (known : db.Knows table) (txn : TxnId) (tuple : Tuple) (typed : tuple.IsTyped) (short : tuple.IsShort)
    {count : Nat} (inside : count ≤ table.pages db.volume) :
    ∃ trace mid, Run Ordinary.Short db trace mid ∧
      Insertion.Goes ⟨table, txn, tuple, 0, none⟩ trace
        ⟨table, txn, tuple, count, some (table.pages db.volume)⟩ ∧
      mid.Crowded table ∧ mid.volume = db.volume ∧ mid.catalog = db.catalog ∧
      ∀ position, count = position + 1 → table.pageAt position ∈ mid.cache.frames := by
  induction count with
  | zero =>
    refine ⟨_, _, Run.start.next (.advance ⟨table, txn, tuple, 0, none⟩) typed
      ⟨⟨.inr ⟨known, ?_⟩, rfl⟩, short⟩, .turn .start, crowded, rfl, rfl, nofun⟩
    rintro ⟨⟩
  | succ count ih =>
    obtain ⟨trace, mid, run, goes, crowded', volume, catalog, -⟩ := ih (Nat.le_of_succ_le inside)
    obtain ⟨last, turned, passed, cached, volume', catalog'⟩ :=
      crowded'.turn txn tuple (run.sound sound).keyed (congrArg table.pages volume.symm) inside
    let i : Insertion := ⟨table, txn, tuple, count, some (table.pages db.volume)⟩
    have performed : mid.perform (.advance i) = (.turn (.goesOn { i with position := count + 1 }), last) := by
      rw [perform, turned]
      rfl
    have more : i.appends → table.pages mid.volume < 4294967296 := fun adds =>
      absurd (of_decide_eq_true adds) (Nat.not_le.mpr inside)
    have known' : mid.Knows table := by rwa [Knows, catalog]
    have fits : Action.Fits mid (.advance i) := typed
    refine ⟨_, last, run.step fits ⟨⟨.inr ⟨known', more⟩, rfl⟩, short⟩ performed, goes.turn, passed,
      volume'.trans volume, catalog'.trans catalog, fun position same => ?_⟩
    cases same
    exact cached

/-- After the last page of a crowded table, an insertion adds one. -/
private theorem Crowded.appends {table : Table} {db : Database} (crowded : db.Crowded table) (sound : db.Sound)
    (known : db.Knows table) (txn : TxnId) (tuple : Tuple) (typed : tuple.IsTyped) (short : tuple.IsShort) :
    ∃ trace mid i next, Run Ordinary.Short db trace mid ∧
      Insertion.Goes ⟨table, txn, tuple, 0, none⟩ trace i ∧
      mid.Crowded table ∧ mid.volume = db.volume ∧ mid.catalog = db.catalog ∧
      (∀ position, table.pages db.volume = position + 1 → table.pageAt position ∈ mid.cache.frames) ∧
      mid.perform (.advance i) = (.turn (.goesOn next), (mid.appendPage table).2) := by
  obtain ⟨trace, mid, run, goes, crowded', volume, catalog, cached⟩ :=
    crowded.goes sound known txn tuple typed short (Nat.le_refl _)
  refine ⟨trace, mid, _, ⟨table, txn, tuple, table.pages db.volume, none⟩, run, goes, crowded', volume,
    catalog, cached, ?_⟩
  simp only [perform, takeTurn, if_neg (Nat.lt_irrefl _)]
  rfl

end Database

theorem Prepared.overMarks (content : Content) : Prepared { pageSize := 1, cachePages := 1 }
    (Volume.empty.put 0 content) (Database.overMarks content) :=
  .created _ _ _ _ (.opened rfl)

namespace Database

/-- What a turn of an insertion into the full table that has used up the page numbers does to the first page, which is
not cached by then. Nobody has locks. -/
structure Emptying (trace : List (Action × Reply)) (db : Database) (i next : Insertion) (old new : Page) :
    Prop where
  run : Run Ordinary.Short (overMarks allMarks) trace db
  goes : Insertion.Goes ⟨marksTable, 1, mark, 0, none⟩ trace i
  reply : (db.perform (.advance i)).1 = .turn (.goesOn next)
  catalog : (db.perform (.advance i)).2.catalog = db.catalog
  loaded : db.load ⟨0, 0⟩ = .ok old
  full : old.freeCount = 0
  emptied : (db.perform (.advance i)).2.load ⟨0, 0⟩ = .ok new
  free : new.freeCount ≠ 0
  blank : ∀ slot, new.tuple? slot = none
  uncached : ⟨0, 0⟩ ∉ (db.perform (.advance i)).2.cache.frames
  alone : ∀ txn, (db.perform (.advance i)).2.Alone txn

theorem Emptying.goes_on {trace : List (Action × Reply)} {db : Database} {i next : Insertion} {old new : Page}
    (h : Emptying trace db i next old new) : Insertion.Goes ⟨marksTable, 1, mark, 0, none⟩
      (trace ++ [(.advance i, (db.perform (.advance i)).1)]) next :=
  h.reply ▸ h.goes.turn

theorem first_page_emptied : ∃ trace db i next old new, Emptying trace db i next old new := by
  have used : marksTable.pages (overMarks allMarks).volume = 4294967296 :=
    (pages_overMarks _).trans length_allMarks
  have prepared := Prepared.overMarks allMarks
  obtain ⟨trace, db, i, next, run, goes, crowded, volume, catalog, last, performed⟩ :=
    crowded_allMarks.appends prepared.sound (knows_overMarks _) 1 mark rfl nofun
  have tidy := tidy_run prepared (run.mono fun short => short.1.managed)
  have first : ⟨0, 0⟩ ∉ db.cache.frames := by
    intro cached
    cases tidy.eq_of_mem cached (last 4294967295 used)
  rw [← volume] at used
  have known : db.Knows marksTable := by
    rw [Knows, catalog]
    exact knows_overMarks _
  obtain ⟨old, loaded, full⟩ := crowded.full 0 (by rw [used]; decide)
  obtain ⟨new, emptied, blank, free⟩ := load_appendPage_of_full known (Nat.le_of_eq used.symm)
  -- The number of the page added is zero again.
  rw [used] at emptied
  refine ⟨trace, db, i, next, old, new, run, goes, ?_, ?_, loaded, full, ?_, free, blank, ?_, ?_⟩ <;>
    rw [performed]
  · rfl
  · exact emptied
  · exact first
  · exact fun txn => ⟨(crowded.undisturbed txn).idle, (crowded.undisturbed txn).room,
      (crowded.undisturbed txn).unlocked⟩

end Database

end PagedStore
