import Mathlib.Data.List.Basic
import PagedStore.Proofs.Database.Faults
import PagedStore.Proofs.Run.Changes

/-! Cached pages have the schemas of the known tables, as long as no table becomes known whose cached
pages were read in another schema. -/
namespace PagedStore

def Page.Suits (p : Page) (table : Table) : Prop :=
  p.schema = table.schema ∧ p.size = table.pageSize

namespace Database

def Welcomes (db : Database) (table : Table) : Prop :=
  ∀ ⦃page : PageId⦄ ⦃frame : Frame⦄, db.cache.frames[page]? = some frame → page.table = table.id →
    frame.page.Suits table

def Suited (db : Database) : Prop :=
  ∀ ⦃page : PageId⦄ ⦃frame : Frame⦄ ⦃table : Table⦄, db.cache.frames[page]? = some frame →
    db.catalog.table page.table = .ok table → frame.page.Suits table

/-- Whether the same tables are known and each cached page is as it was cached before, or as the known
table of its number is, in schema and size. -/
structure Inherits (db db' : Database) : Prop where
  catalog : db'.catalog = db.catalog
  pages : ∀ {page : PageId} {frame : Frame}, db'.cache.frames[page]? = some frame →
    (∃ old, db.cache.frames[page]? = some old ∧ frame.page.schema = old.page.schema ∧
      frame.page.size = old.page.size) ∨
    ∃ table, db.catalog.table page.table = .ok table ∧ frame.page.Suits table

namespace Inherits
variable {db mid db' : Database}

private theorem of_frames (catalog : db'.catalog = db.catalog)
    (frames : ∀ page : PageId, db'.cache.frames[page]? = db.cache.frames[page]?) : Inherits db db' :=
  ⟨catalog, fun {page frame} cached => .inl ⟨frame, frames page ▸ cached, rfl, rfl⟩⟩

private theorem trans (h : Inherits db mid) (h' : Inherits mid db') : Inherits db db' where
  catalog := h'.catalog.trans h.catalog
  pages cached := by
    rcases h'.pages cached with ⟨old, held, schema, size⟩ | ⟨table, known, suits⟩
    · rcases h.pages held with ⟨older, held', schema', size'⟩ | ⟨table, known, suits⟩
      · exact .inl ⟨older, held', schema.trans schema', size.trans size'⟩
      · exact .inr ⟨table, known, schema.trans suits.1, size.trans suits.2⟩
    · exact .inr ⟨table, h.catalog ▸ known, suits⟩

private theorem knows (h : Inherits db db') {table : Table} (known : db.Knows table) : db'.Knows table := by
  rwa [Knows, h.catalog]

theorem suited (h : Inherits db db') (suited : db.Suited) : db'.Suited := by
  intro page frame table cached known
  rw [h.catalog] at known
  rcases h.pages cached with ⟨old, held, schema, size⟩ | ⟨table', known', suits⟩
  · obtain ⟨schema', size'⟩ := suited held known
    exact ⟨schema.trans schema', size.trans size'⟩
  · rw [known] at known'
    cases known'
    exact suits

end Inherits

/-- A page that was read suits its table. -/
theorem suits_of_load {db : Database} {page : PageId} {p : Page} (loaded : db.load page = .ok p) :
    ∃ table, db.catalog.table page.table = .ok table ∧ p.Suits table := by
  obtain ⟨table, known, read⟩ := load_eq_ok_iff.mp loaded
  have shown := (table.shown_of_load read).2
  exact ⟨table, known, shown.schema_eq, shown.size_eq⟩

/-! ### Going from page to page -/

private theorem inherits_fetch (db : Database) (txn : TxnId) (page : PageId) (access : Access) :
    Inherits db (db.fetch txn page access).2 := by
  rcases db.fetch_cases txn page access with
    ⟨-, _, -, he⟩ | ⟨-, ⟨_, -, he⟩ | ⟨-, ⟨_, -, he⟩ | ⟨content, loaded, he⟩⟩⟩
  · rw [he]
    exact .of_frames rfl fun _ => rfl
  · rw [he]
    exact .of_frames rfl fun _ => rfl
  · rw [he]
    exact .of_frames rfl fun _ => rfl
  · rw [he]
    refine ⟨rfl, fun {id frame} cached => ?_⟩
    rcases db.cache.bringIn_cases content with ⟨-, same⟩ | ⟨brought, -, rfl, here, others⟩
    · exact .inl ⟨frame, same ▸ cached, rfl, rfl⟩
    · by_cases own : id = brought.page.id
      · subst own
        rw [here] at cached
        cases cached
        rw [(shown_of_load loaded).1]
        exact .inr (suits_of_load loaded)
      · rcases others id own with stays | ⟨-, gone⟩
        · exact .inl ⟨frame, stays ▸ cached, rfl, rfl⟩
        · rw [gone] at cached
          cases cached

private theorem Approach.inherits {grows : Table → Volume → Prop} {txn : TxnId} {db db' : Database}
    (h : Approach grows txn db db') : Inherits db db' := by
  induction h with
  | still => exact .of_frames rfl fun _ => rfl
  | fetch page access _ ih => exact ih.trans (inherits_fetch _ txn page access)
  | visit page access _ _ ih =>
    exact (ih.trans (inherits_fetch _ txn page access)).trans (.of_frames rfl fun _ => rfl)
  | append table _ _ ih => exact ih.trans (.of_frames rfl fun _ => rfl)
  | wait _ _ ih => exact ih.trans (.of_frames rfl fun _ => rfl)

theorem Edit.inherits {txn : TxnId} {record : RecordId} {content : Option Tuple} {db db' : Database}
    (h : Edit txn record content db db') : Inherits db db' := by
  refine ⟨h.catalog, fun {page frame} cached => ?_⟩
  rcases h.cached_cases cached with ⟨-, before⟩ | ⟨old, rfl, held, -, rfl⟩
  · exact .inl ⟨frame, before, rfl, rfl⟩
  · exact .inl ⟨old, held, rfl, rfl⟩

private theorem Attempt.inherits {grows : Table → Volume → Prop} {txn : TxnId}
    {content : RecordId → Option Tuple} {done : Option RecordId} {db db' : Database}
    (h : Attempt grows txn content db done db') : Inherits db db' := by
  obtain ⟨mid, way, edit⟩ := h
  cases done with
  | none => exact edit ▸ way.inherits
  | some record => exact way.inherits.trans edit.inherits

/-! ### Writing and reading again -/

theorem inherits_dropPage (db : Database) (page : PageId) : Inherits db (db.dropPage page) := by
  refine ⟨rfl, fun {id frame} cached => ?_⟩
  rw [dropPage, Cache.frames_drop] at cached
  split at cached
  · cases cached
  · exact .inl ⟨frame, cached, rfl, rfl⟩

private theorem inherits_writeOut (db : Database) (page : PageId) : Inherits db (db.writeOut page).2 := by
  rw [writeOut]
  split
  · exact .of_frames rfl fun _ => rfl
  · split
    · exact .of_frames rfl fun _ => rfl
    · refine ⟨rfl, fun {id frame} cached => ?_⟩
      rw [Cache.frames_unpin, Cache.frames_modify] at cached
      split at cached
      · obtain ⟨old, held, rfl⟩ := Option.map_eq_some_iff.mp cached
        exact .inl ⟨old, held, rfl, rfl⟩
      · exact .inl ⟨frame, cached, rfl, rfl⟩

theorem inherits_commitPage (db : Database) (page : PageId) : Inherits db (db.commitPage page).2 :=
  kept_commitPage (motive := Inherits db) (db.inherits_writeOut page)
    fun written => written.trans (inherits_dropPage _ page)

theorem inherits_revertPage (db : Database) (page : PageId) : Inherits db (db.revertPage page).2 := by
  rcases db.revertPage_cases page with ⟨p, loaded, he⟩ | ⟨fault, -, he⟩
  · rw [he]
    refine ⟨rfl, fun {id frame} cached => ?_⟩
    rw [Cache.frames_unpin, Cache.frames_modify] at cached
    split at cached
    · rename_i here
      obtain ⟨old, -, rfl⟩ := Option.map_eq_some_iff.mp cached
      exact .inr (here ▸ suits_of_load loaded)
    · exact .inl ⟨frame, cached, rfl, rfl⟩
  · rw [he]
    exact inherits_dropPage db page

private theorem inherits_forEachPage {step : Database → PageId → Except Fault Unit × Database}
    (each : ∀ db page, Inherits db (step db page).2) (db : Database) (pages : List PageId) :
    Inherits db (forEachPage step db pages).2 :=
  kept_forEachPage (motive := Inherits db) (fun {mid} page before => before.trans (each mid page))
    (.of_frames rfl fun _ => rfl) pages

private theorem inherits_writeOutAll (db : Database) (pages : List PageId) :
    Inherits db (db.writeOutAll pages).2 :=
  kept_writeOutAll (motive := Inherits db)
    (fun {mid} page before => before.trans (mid.inherits_writeOut page)) (.of_frames rfl fun _ => rfl)
    pages

private theorem inherits_completeIn (db : Database) (txn : TxnId) (commit : Bool) (pages : List PageId) :
    Inherits db (db.completeIn txn commit pages).2 := by
  have visited : Inherits db (forEachPage (if commit then commitPage else revertPage) db pages).2 := by
    cases commit with
    | true => exact inherits_forEachPage inherits_commitPage db pages
    | false => exact inherits_forEachPage inherits_revertPage db pages
  exact visited.trans (.of_frames rfl fun _ => rfl)

/-! ### What every action preserves -/

/-- Whether an action, which had a reply, leaves cached pages and known tables in step: a table becomes
known only where all cached pages of its number suit it, and a page is altered in its tuples only. -/
def Respects (db : Database) : Action → Reply → Prop
  | .attachTable .., .table (.ok table) => db.Welcomes table
  | .alter handle page, _ =>
    ∀ old, db.cache.held? handle = some old → page.schema = old.schema ∧ page.size = old.size
  | _, _ => True

private theorem respects_of_plain {db : Database} {action : Action} {reply : Reply} (plain : action.Plain) :
    db.Respects action reply := by
  cases action with
  | attachTable place schema pageSize name primaryKey => exact plain.elim
  | alter handle page => exact plain.elim
  | _ => exact trivial

private theorem inherits_modifyHeld {db : Database} {handle : Handle} {change : Page → Page}
    (same : ∀ old, db.cache.held? handle = some old →
      (change old).schema = old.schema ∧ (change old).size = old.size) :
    Inherits db { db with cache := db.cache.modifyHeld handle change } := by
  refine ⟨rfl, fun {page frame} cached => ?_⟩
  rw [Cache.frames_modifyHeld] at cached
  split at cached
  · rename_i current
    obtain ⟨old, held, rfl⟩ := Option.map_eq_some_iff.mp cached
    obtain ⟨schema, size⟩ := same old.page (by
      rw [Cache.held?, if_pos current.1, ← current.2]
      exact Cache.page?_eq_some_iff.mpr ⟨old, held, rfl⟩)
    exact .inl ⟨old, held, schema, size⟩
  · exact .inl ⟨frame, cached, rfl, rfl⟩

namespace Suited
variable {db : Database}

private theorem openTable (h : db.Suited) (place : Place) (schema : Schema) (pageSize : Nat) :
    (db.openTable place schema pageSize).2.Suited := by
  rw [Database.openTable]
  split <;> exact h

private theorem attachTable (h : db.Suited) {place : Place} {schema : Schema} {pageSize : Nat}
    {name primaryKey : String}
    (welcome : ∀ table, (db.attachTable place schema pageSize name primaryKey).1 = .ok table →
      db.Welcomes table) :
    (db.attachTable place schema pageSize name primaryKey).2.Suited := by
  have opened := h.openTable place schema pageSize
  have cache := db.cache_openTable place schema pageSize
  rw [Database.attachTable] at welcome ⊢
  cases he : db.openTable place schema pageSize with
  | mk result mid =>
    rw [he] at opened cache welcome
    cases result with
    | error fault => exact opened
    | ok added =>
      intro page frame table cached known
      rcases Catalog.table_of_add known with ⟨here, rfl⟩ | ⟨-, before⟩
      · exact welcome table rfl (cache ▸ cached) here
      · exact opened cached before

/-- Whatever respects the known tables leaves every cached page suited to them. -/
theorem perform (h : db.Suited) (keyed : db.cache.Keyed) {action : Action}
    (may : db.Respects action (db.perform action).1) : (db.perform action).2.Suited := by
  have inherited {db' : Database} (way : Inherits db db') : db'.Suited := way.suited h
  cases action with
  | begin => exact h
  | fetch txn page access => exact inherited (db.inherits_fetch txn page access)
  | insert txn table tuple =>
    exact inherited (attempt_insert (fun _ _ => True) txn tuple keyed table
      fun _ _ _ _ => trivial).inherits
  | delete txn record => exact inherited (attempt_delete (fun _ _ => True) db txn record keyed).inherits
  | attempt txn page mode => exact h
  | giveUp txn => exact h
  | advance i => exact inherited (attempt_takeTurn (fun _ _ => True) keyed i fun _ => trivial).inherits
  | hasMore scan => exact inherited ((scan.turn_hasMore db).1.approach fun _ _ => True).inherits
  | step scan => exact inherited ((scan.turn_step db).approach fun _ _ => True).inherits
  | collect scan => exact inherited ((scan.turn_collect db).approach fun _ _ => True).inherits
  | complete txn commit order => exact inherited (db.inherits_completeIn txn commit order)
  | insertInto table txn tuple =>
    exact inherited (attempt_insertInto (fun _ _ => True) txn tuple keyed fun _ _ => trivial).inherits
  | deleteFrom table txn record =>
    exact inherited (attempt_deleteFrom (fun _ _ => True) db txn record table).inherits
  | mark handle txn => exact inherited (inherits_modifyHeld fun _ _ => ⟨rfl, rfl⟩)
  | alter handle page => exact inherited (inherits_modifyHeld may)
  | release txn page => exact h
  | drop page => exact inherited (db.inherits_dropPage page)
  | flush page =>
    simp only [Database.perform, flush]
    split
    · exact inherited (db.inherits_writeOut page)
    · exact h
  | flushTxn txn order => exact inherited (inherits_forEachPage inherits_commitPage db order)
  | flushAll order => exact inherited (db.inherits_writeOutAll order)
  | openTable place schema pageSize => exact h.openTable place schema pageSize
  | attachTable place schema pageSize name primaryKey =>
    refine h.attachTable fun table attached => ?_
    rw [Database.perform] at may
    cases he : db.attachTable place schema pageSize name primaryKey with
    | mk result after =>
      rw [he] at may attached
      cases attached
      exact may
  | clearCatalog =>
    intro page frame table _ known
    obtain ⟨entry, found, -⟩ := Catalog.table_eq_ok_iff.mp known
    simp [Database.perform, Database.clearCatalog, Catalog.empty] at found
  | append table => exact h
  | loadLoose table page =>
    simp only [Database.perform, Database.loadLoose]
    split
    · exact h
    · exact h
  | storeHeld table handle =>
    simp only [Database.perform]
    split
    · exact h
    · simp only [Database.storeHeld]
      split
      · exact h
      · have clean : Inherits db { db with cache := db.cache.modifyHeld handle Page.cleaned } :=
          inherits_modifyHeld fun _ _ => ⟨rfl, rfl⟩
        exact inherited (clean.trans (.of_frames rfl fun _ => rfl))
  | outside volume => exact h

end Suited

private theorem suited_ofVolume {settings : Settings} {volume : Volume} {db : Database}
    (opened : ofVolume settings volume = .ok db) : db.Suited := by
  intro page frame table cached
  rw [(Prepared.opened opened).uncached] at cached
  cases cached

/-! ### Tuples of the tables' schemas -/

private theorem suits_of_fetch {db db' : Database} (suited : db.Suited) {txn : TxnId} {page : PageId}
    {access : Access} {frame : Frame} (fetched : db.fetch txn page access = (.ok frame, db'))
    {table : Table} (known : db.catalog.table page.table = .ok table) : frame.page.Suits table := by
  have way := db.inherits_fetch txn page access
  rw [fetched] at way
  exact way.suited suited (fetch_eq_ok fetched).1 (way.catalog ▸ known)

/-- Whether an operation was refused as its tuple has not the schema of a page or a table. -/
def misfits {α : Type} : Except Fault α → Bool
  | .error fault => isMisfit fault
  | .ok _ => false
where
  isMisfit : Fault → Bool
    | .schemaConflict _ => true
    | _ => false

private theorem not_misfits_of_ofFetching {α : Type} {fault : Fault} (expected : fault.ofFetching) :
    ¬ misfits (.error fault : Except Fault α) := by
  cases fault with
  | schemaConflict table => exact absurd expected Bool.false_ne_true
  | _ => exact Bool.false_ne_true

section Insertion
variable {db : Database} (txn : TxnId) {tuple : Tuple} {table : Table}

private theorem not_misfits_tryPage (suited : db.Suited) {page : PageId}
    (known : db.catalog.table page.table = .ok table) (agrees : tuple.schema.agrees table.schema) :
    ¬ misfits (db.tryPage txn tuple page).1 := by
  have trial := db.trial txn tuple page
  generalize (db.tryPage txn tuple page).1 = result, (db.tryPage txn tuple page).2 = db' at trial ⊢
  cases trial with
  | unfetched failed => exact not_misfits_of_ofFetching (ofFetching_of_fetch (congrArg Prod.fst failed))
  | full _ _ => exact Bool.false_ne_true
  | refused fetched free refused =>
    rw [← (suits_of_fetch suited fetched known).1] at agrees
    obtain ⟨record, after, inserted⟩ := Page.exists_insert agrees free
    cases refused.symm.trans inserted
  | placed _ _ _ => exact Bool.false_ne_true

private theorem not_misfits_tryPages (keyed : db.cache.Keyed) (suited : db.Suited)
    (known : db.Knows table) (agrees : tuple.schema.agrees table.schema) (position left : Nat) :
    ¬ misfits (db.tryPages table txn tuple position left).1 := by
  induction left generalizing db position with
  | zero => exact Bool.false_ne_true
  | succ left ih =>
    have first := not_misfits_tryPage txn suited
      (show db.catalog.table (table.pageAt position).table = .ok table from known) agrees
    have way := attempt_tryPage (fun _ _ => False) txn tuple keyed (table.pageAt position)
    rw [tryPages]
    cases he : db.tryPage txn tuple (table.pageAt position) with
    | mk result mid =>
      rw [he] at first way
      rcases result with fault | (_ | record)
      · exact first
      · have onward := way.inherits
        exact ih (way.approach.keyed keyed) (onward.suited suited) (onward.knows known) (position + 1)
      · exact Bool.false_ne_true

private theorem not_misfits_tryAppended (keyed : db.cache.Keyed) (suited : db.Suited)
    (known : db.Knows table) (agrees : tuple.schema.agrees table.schema) (position limit : Nat) :
    ¬ misfits (db.tryAppended table txn tuple position limit).1 := by
  induction limit generalizing db position with
  | zero => exact Bool.false_ne_true
  | succ limit ih =>
    simp only [tryAppended]
    have grown : Inherits db (db.appendPage table).2 := .of_frames rfl fun _ => rfl
    have keyed : (db.appendPage table).2.cache.Keyed := keyed
    generalize (db.appendPage table).2 = added at grown keyed
    have suited := grown.suited suited
    have known := grown.knows known
    have first := not_misfits_tryPages txn keyed suited known agrees position
      (table.pages added.volume - position)
    have way := attempt_tryPages (fun _ _ => False) txn tuple keyed table position
      (table.pages added.volume - position)
    cases he : added.tryPages table txn tuple position (table.pages added.volume - position) with
    | mk result mid =>
      rw [he] at first way
      rcases result with fault | (_ | record)
      · exact first
      · have onward := way.inherits
        exact ih (way.approach.keyed keyed) (onward.suited suited) (onward.knows known) _
      · exact Bool.false_ne_true

private theorem not_misfits_insertInto (keyed : db.cache.Keyed) (suited : db.Suited)
    (known : db.Knows table) (agrees : tuple.schema.agrees table.schema) :
    ¬ misfits (db.insertInto table txn tuple).1 := by
  rw [insertInto_eq, if_pos agrees]
  have first := not_misfits_tryPages txn keyed suited known agrees 0 (table.pages db.volume)
  have way := attempt_tryPages (fun _ _ => False) txn tuple keyed table 0 (table.pages db.volume)
  simp only
  cases he : db.tryPages table txn tuple 0 (table.pages db.volume) with
  | mk result mid =>
    rw [he] at first way
    rcases result with fault | (_ | record)
    · exact first
    · have onward := way.inherits
      exact not_misfits_tryAppended txn (way.approach.keyed keyed) (onward.suited suited)
        (onward.knows known) agrees _ _
    · exact Bool.false_ne_true

private theorem not_misfits_insert (sound : db.Sound) (suited : db.Suited) {id : TableId}
    (known : db.catalog.table id = .ok table) (agrees : tuple.schema.agrees table.schema) :
    ¬ misfits (db.insert txn id tuple).1 := by
  have into := not_misfits_insertInto txn sound.keyed suited
    (by rwa [Knows, sound.filed known]) agrees
  rw [insert_eq txn tuple sound.keyed, known]
  simp only
  cases he : db.insertInto table txn tuple with
  | mk result after =>
    rw [he] at into
    cases result with
    | error fault => exact into
    | ok record => exact Bool.false_ne_true

end Insertion

end Database

private theorem Run.suited {start db : Database} {trace : List (Action × Reply)}
    (run : Run Database.Respects start trace db) (sound : start.Sound) (suited : start.Suited) :
    db.Suited := by
  induction run using Run.inductionOn with
  | first => exact suited
  | next earlier _ _ may ih => exact ih.perform (earlier.sound sound).keyed may

/-- Whatever was asked of a database and happened to its files: as long as tables became known only
where all cached pages of their numbers suited them, each page that is fetched has the schema and the
size of the pages of the table that is known by its number, and a tuple of a known table's schema is
never refused for its schema. -/
theorem fetched_pages_suit {settings : Settings} {volume : Volume} {start db : Database}
    {trace : List (Action × Reply)} (opened : Database.ofVolume settings volume = .ok start)
    (run : Run Database.Respects start trace db) :
    (∀ {txn : TxnId} {page : PageId} {access : Access} {frame : Frame} {table : Table},
      (db.perform (.fetch txn page access)).1 = .frame (.ok frame) →
      db.catalog.table page.table = .ok table → frame.page.Suits table) ∧
    ∀ {txn : TxnId} {id : TableId} {tuple : Tuple} {table : Table},
      db.catalog.table id = .ok table → tuple.schema.agrees table.schema →
      ∀ other, (db.perform (.insert txn id tuple)).1 ≠ .record (.error (.schemaConflict other)) := by
  have sound := Database.sound_ofVolume opened
  have suited := run.suited sound (Database.suited_ofVolume opened)
  constructor
  · intro txn page access frame table fetched known
    have result : db.fetch txn page access = (.ok frame, (db.fetch txn page access).2) :=
      Prod.ext (Reply.frame.inj fetched) rfl
    exact Database.suits_of_fetch suited result known
  · intro txn id tuple table known agrees other refused
    have fits := Database.not_misfits_insert txn (run.sound sound) suited known agrees
    have result : (db.insert txn id tuple).1 = .error (.schemaConflict other) :=
      Reply.record.inj refused
    rw [result] at fits
    exact fits rfl

private def numbers (columns : Nat) : Schema :=
  ⟨List.replicate columns ⟨.int, none⟩⟩

private def registration (columns : Nat) : Action :=
  .attachTable (.file 0) (numbers columns) 64 "t" ""

private def bareSample : Database :=
  ⟨{ pageSize := 64 }, .empty, .empty, .empty, .empty 50, 1, 0⟩

private def narrowSample : Database :=
  (((bareSample.perform (registration 1)).2.perform
    (.insert 1 0 ⟨numbers 1, [.int 7], none⟩)).2.perform (.complete 1 true [⟨0, 0⟩])).2

private theorem run_narrowSample (allowed : Database → Action → Reply → Prop)
    (registers : allowed bareSample (registration 1) (bareSample.perform (registration 1)).1)
    (plain : ∀ {db action reply}, action.Plain → allowed db action reply) :
    ∃ trace, Run allowed bareSample trace narrowSample := by
  have listed : [⟨0, 0⟩].Perm (((bareSample.perform (registration 1)).2.perform
      (.insert 1 0 ⟨numbers 1, [.int 7], none⟩)).2.cache.dirtyPagesOf 1) := by decide +kernel
  exact ⟨_, ((Run.start.next (registration 1) trivial registers).next
    (.insert 1 0 ⟨numbers 1, [.int 7], none⟩) rfl (plain trivial)).next (.complete 1 true [⟨0, 0⟩])
    listed (plain trivial)⟩

private def widenedSample : Database :=
  ((narrowSample.perform (.drop ⟨0, 0⟩)).2.perform (registration 2)).2

/-- The page is read again in the new schema. -/
theorem fetched_pages_suit_reread : ∃ trace frame table,
    Database.ofVolume { pageSize := 64 } .empty = .ok bareSample ∧
    Run Database.Respects bareSample trace widenedSample ∧
    (widenedSample.perform (.fetch 2 ⟨0, 0⟩ .read)).1 = .frame (.ok frame) ∧
    widenedSample.catalog.table 0 = .ok table ∧ table.schema = numbers 2 ∧ frame.page.Suits table ∧
    ∀ other, (widenedSample.perform (.insert 2 0 ⟨numbers 2, [.int 1, .int 2], none⟩)).1 ≠
      .record (.error (.schemaConflict other)) := by
  have welcome {db : Database} (empty : db.cache.frames.isEmpty) (table : Table) :
      db.Welcomes table := by
    intro page frame cached
    rw [Std.ExtTreeMap.isEmpty_iff.mp empty] at cached
    cases cached
  have registers : bareSample.Respects (registration 1) (bareSample.perform (registration 1)).1 :=
    welcome (by decide +kernel) _
  obtain ⟨trace, run⟩ := run_narrowSample Database.Respects registers Database.respects_of_plain
  have run : Run Database.Respects bareSample _ widenedSample :=
    (run.next (.drop ⟨0, 0⟩) trivial trivial).next (registration 2) trivial
      (welcome (by decide +kernel) _)
  obtain ⟨frame, fetched, -⟩ := ok_of_toOption_map (show (widenedSample.fetch 2 ⟨0, 0⟩ .read).1.toOption.map
    (fun frame : Frame => frame.page.schema) = some (numbers 2) by decide +kernel)
  obtain ⟨table, known, schema⟩ := ok_of_toOption_map (show
    (widenedSample.catalog.table 0).toOption.map Table.schema = some (numbers 2) by decide +kernel)
  have result : (widenedSample.perform (.fetch 2 ⟨0, 0⟩ .read)).1 = .frame (.ok frame) :=
    (Database.reply_fetch _ _ _ _).trans (congrArg _ fetched)
  have opened : Database.ofVolume { pageSize := 64 } .empty = .ok bareSample := rfl
  have suits := fetched_pages_suit opened run
  exact ⟨_, frame, table, opened, run, result, known, schema, suits.1 result known,
    suits.2 known (by rw [schema]; rfl)⟩

private def outdatedSample : Database :=
  (narrowSample.perform (registration 2)).2

/-- The page that is fetched is still in the old schema, and a tuple of the new one is refused. -/
theorem fetched_page_outdated : ∃ trace frame table,
    Database.ofVolume { pageSize := 64 } .empty = .ok bareSample ∧
    Run (fun _ action _ => action.Plain ∨ ∃ columns, action = registration columns) bareSample trace
      outdatedSample ∧
    (outdatedSample.perform (.fetch 2 ⟨0, 0⟩ .read)).1 = .frame (.ok frame) ∧
    outdatedSample.catalog.table 0 = .ok table ∧ table.schema = numbers 2 ∧
    frame.page.schema = numbers 1 ∧
    (outdatedSample.perform (.insert 2 0 ⟨numbers 2, [.int 1, .int 2], none⟩)).1 =
      .record (.error (.schemaConflict 0)) := by
  obtain ⟨trace, run⟩ := run_narrowSample (fun _ action _ => action.Plain ∨
    ∃ columns, action = registration columns) (.inr ⟨1, rfl⟩) .inl
  obtain ⟨frame, fetched, old⟩ := ok_of_toOption_map (show
    (outdatedSample.fetch 2 ⟨0, 0⟩ .read).1.toOption.map (fun frame : Frame => frame.page.schema) =
      some (numbers 1) by decide +kernel)
  obtain ⟨table, known, new⟩ := ok_of_toOption_map (show
    (outdatedSample.catalog.table 0).toOption.map Table.schema = some (numbers 2) by decide +kernel)
  have refused : (outdatedSample.insert 2 0 ⟨numbers 2, [.int 1, .int 2], none⟩).1 =
      .error (.schemaConflict 0) := by decide +kernel
  exact ⟨_, frame, table, rfl, run.next (registration 2) trivial (.inr ⟨2, rfl⟩),
    (Database.reply_fetch _ _ _ _).trans (congrArg _ fetched), known, new, old,
    (Database.reply_insert _ _ _ _).trans (congrArg _ refused)⟩

end PagedStore
