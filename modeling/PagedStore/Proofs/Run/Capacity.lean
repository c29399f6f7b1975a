import PagedStore.Proofs.Database.Twin.Scan
import PagedStore.Proofs.Database.Twin.Update
import PagedStore.Proofs.Run.Mirror

/-! How many pages a cache has room for makes no difference, as long as it does not run full of changed
pages. -/
namespace PagedStore

namespace Database

/-- In a database in step with its files, in which all texts are short, clean pages are as in their
files. -/
theorem Mirrored.echoes {db : Database} (h : db.Mirrored) (verbatim : db.Verbatim) : db.Echoes := by
  intro page frame cached clean
  have loaded := h.clean cached clean
  refine ⟨_, loaded, ?_⟩
  have slots : frame.page.stored.nameless.slots = frame.page.nameless.slots := by
    refine (h.whole cached).nameless_slots_eq (kept_of_load loaded).1 rfl rfl rfl fun slot => ?_
    rw [Page.row?_stored_eq, verbatim cached]
  have same : frame.page.stored.nameless =
    { frame.page.nameless with slots := frame.page.stored.nameless.slots, changedBy := none } := rfl
  rw [same, slots, ← clean]
  rfl

/-! ### The end of transactions -/

private theorem completeIn_frame (db : Database) (txn : TxnId) (commit : Bool) (pages : List PageId) :
    ∃ volume cache, (db.completeIn txn commit pages).2 =
      { db with volume := volume, cache := cache, locks := db.locks.forget txn } := by
  have all {step : Database → PageId → Except Fault Unit × Database}
      (one : ∀ db page, ∃ volume cache, (step db page).2 = { db with volume := volume, cache := cache })
      (db : Database) : ∃ volume cache,
        (forEachPage step db pages).2 = { db with volume := volume, cache := cache } := by
    induction pages generalizing db with
    | nil => exact ⟨_, _, rfl⟩
    | cons page pages ih =>
      obtain ⟨volume, cache, he⟩ := one db page
      obtain ⟨volume', cache', he'⟩ := ih (step db page).2
      refine ⟨volume', cache', ?_⟩
      show (forEachPage step (step db page).2 pages).2 = _
      rw [he', he]
  have written (db : Database) (page : PageId) :
      ∃ volume cache, (db.commitPage page).2 = { db with volume := volume, cache := cache } := by
    cases cached : db.cache.frames[page]? with
    | none =>
      rw [commitPage_of_absent cached]
      exact ⟨_, _, rfl⟩
    | some frame =>
      rcases commitPage_cases cached with ⟨v, -, he⟩ | ⟨fault, -, he⟩
      · rw [he]
        exact ⟨_, _, rfl⟩
      · rw [he]
        exact ⟨_, _, rfl⟩
  have reverted (db : Database) (page : PageId) :
      ∃ volume cache, (db.revertPage page).2 = { db with volume := volume, cache := cache } := by
    rcases db.revertPage_cases page with ⟨p, -, he⟩ | ⟨fault, -, he⟩
    · rw [he]
      exact ⟨_, _, rfl⟩
    · rw [he]
      exact ⟨_, _, rfl⟩
  have visited : ∃ volume cache, (forEachPage (if commit then commitPage else revertPage) db pages).2 =
      { db with volume := volume, cache := cache } := by
    cases commit with
    | true => exact all written db
    | false => exact all reverted db
  obtain ⟨volume, cache, he⟩ := visited
  refine ⟨volume, cache, ?_⟩
  simp only [completeIn, he]

private theorem mem_dirtyPagesOf_iff {db : Database} {txn : TxnId} {page : PageId} :
    page ∈ db.cache.dirtyPagesOf txn ↔ ∃ p, db.changed? page = some p ∧ p.changedBy = some txn := by
  rw [Cache.mem_dirtyPagesOf]
  constructor
  · rintro ⟨frame, cached, changed⟩
    refine ⟨frame.page.nameless, ?_, changed⟩
    rw [changed?_of_cached cached, Page.isDirty, changed]
    rfl
  · rintro ⟨p, held, changed⟩
    cases cached : db.cache.frames[page]? with
    | none =>
      rw [changed?_of_absent cached] at held
      cases held
    | some frame =>
      rw [changed?_of_cached cached] at held
      split at held
      · cases held
        exact ⟨frame, rfl, changed⟩
      · cases held

/-- Where two files of a table have the same page, they have the same bytes there. -/
private theorem HasImage.byte_eq {db db' : Database} (filed : db.catalog.Filed)
    (catalog : db'.catalog = db.catalog) {page : PageId} {image : List UInt8}
    (h : db.HasImage page image) (h' : db'.HasImage page image)
    {file : TableId} {position : Nat} (within : db.Within page file position) :
    (db'.volume.content file).byte position = (db.volume.content file).byte position := by
  obtain ⟨table, known, inside, shown⟩ := h
  obtain ⟨table', known', inside', shown'⟩ := h'
  obtain ⟨rfl, table'', known'', first, last⟩ := within
  rw [catalog, known] at known'
  rw [known] at known''
  cases known'
  cases known''
  rw [← filed known]
  have room := table.lt_pages_iff.mp inside
  have room' := table.lt_pages_iff.mp inside'
  have byte {v : Volume}
      (room : page.number * table.pageSize + table.pageSize ≤ (v.content table.id).length) :
      (table.imageAt v page.number)[position - page.number * table.pageSize]? =
        some ((v.content table.id).byte position) := by
    have within : position - page.number * table.pageSize <
      min table.pageSize ((v.content table.id).length - page.number * table.pageSize) := by omega
    rw [Table.imageAt, Content.read, List.getElem?_map, List.getElem?_range' within]
    simp [Nat.add_sub_cancel' first]
  have both := (byte room).symm.trans ((congrArg (·[_]?) (shown.trans shown'.symm)).trans (byte room'))
  exact (Option.some.inj both).symm

section Ending
variable {initial : RecordId → Option (List Value)} {l : Ledger} {db : Database} {txn : TxnId}
  {order : List PageId} (agrees : Agrees initial l db) (listed : order.Perm (db.cache.dirtyPagesOf txn))
include agrees listed

private theorem changed?_completeIn (commit : Bool) (page : PageId) :
    (db.completeIn txn commit order).2.changed? page =
      if page ∈ order then none else db.changed? page := by
  split
  · rename_i mem
    obtain ⟨new, -, held, clean, -⟩ := agrees.settled listed commit mem
    rw [changed?_of_cached held, Page.isDirty, clean]
    rfl
  · rename_i outside
    exact changed?_congr ((agrees.sound.completed commit listed).others_cached outside)

private theorem hasImage_completeIn {page : PageId} (mem : page ∈ order) {frame : Frame}
    (cached : db.cache.frames[page]? = some frame) :
    (db.completeIn txn true order).2.HasImage page frame.page.image := by
  have completed := agrees.sound.completed true listed
  rcases completed.settled mem cached with gone | ⟨new, -, -, -, same, has⟩
  · exact absurd ((completed.gone mem).mp gone) (agrees.not_stuck listed true page mem)
  · rwa [same, Page.image_cleaned] at has

end Ending

namespace Twins
variable {initial initial' : RecordId → Option (List Value)} {l l' : Ledger} {db db' : Database}
  (h : Twins db db') (agrees : Agrees initial l db) (agrees' : Agrees initial' l' db') {txn : TxnId}
  {order order' : List PageId} (listed : order.Perm (db.cache.dirtyPagesOf txn))
  (listed' : order'.Perm (db'.cache.dirtyPagesOf txn))
include h

private theorem cached {page : PageId} {frame frame' : Frame} (held : db.cache.frames[page]? = some frame)
    (held' : db'.cache.frames[page]? = some frame') : frame'.page.nameless = frame.page.nameless := by
  have same := h.shows_eq page
  rw [shows_of_cached h.echoes held, shows_of_cached h.echoes' held'] at same
  exact Except.ok.inj same

include listed listed'

private theorem mem_order_iff (page : PageId) : page ∈ order' ↔ page ∈ order := by
  rw [listed.mem_iff, listed'.mem_iff, mem_dirtyPagesOf_iff, mem_dirtyPagesOf_iff, h.changed]

include agrees agrees'

private theorem content_completeIn (commit : Bool) (file : TableId) :
    (db'.completeIn txn commit order').2.volume.content file =
      (db.completeIn txn commit order).2.volume.content file := by
  have completed := agrees.sound.completed commit listed
  have completed' := agrees'.sound.completed commit listed'
  cases commit with
  | false => rw [completed.undisturbed rfl, completed'.undisturbed rfl, h.content]
  | true =>
    refine Content.ext ?_ fun position => ?_
    · rw [completed.length_eq agrees.sound.filed (agrees.onDisk_of_mem listed),
        completed'.length_eq agrees'.sound.filed (agrees'.onDisk_of_mem listed'), h.content]
    · by_cases inside : ∃ page ∈ order, db.Within page file position
      · obtain ⟨page, mem, own, table, known, first, last⟩ := inside
        have mem' := (h.mem_order_iff listed listed' page).mpr mem
        obtain ⟨frame, held, -⟩ := Agrees.changed_of_mem listed mem
        obtain ⟨frame', held', -⟩ := Agrees.changed_of_mem listed' mem'
        have has := hasImage_completeIn agrees listed mem held
        have has' := hasImage_completeIn agrees' listed' mem' held'
        rw [Page.image_congr (h.cached held held')] at has'
        refine HasImage.byte_eq (completed.catalog ▸ agrees.sound.filed) ?_ has has'
          ⟨own, table, completed.catalog ▸ known, first, last⟩
        rw [completed.catalog, completed'.catalog, h.catalog]
      · have outside : ∀ page ∈ order, ¬ db.Within page file position :=
          fun page mem within => inside ⟨page, mem, within⟩
        rw [completed.bytes outside, completed'.bytes fun page mem within => ?_, h.content]
        refine outside page ((h.mem_order_iff listed listed' page).mp mem) ?_
        rwa [Within, h.catalog] at within

private theorem completeIn (commit : Bool) (echoes : (db.completeIn txn commit order).2.Echoes)
    (echoes' : (db'.completeIn txn commit order').2.Echoes) :
    (db'.completeIn txn commit order').1 = (db.completeIn txn commit order).1 ∧
      Twins (db.completeIn txn commit order).2 (db'.completeIn txn commit order').2 := by
  obtain ⟨volume, cache, he⟩ := db.completeIn_frame txn commit order
  obtain ⟨volume', cache', he'⟩ := db'.completeIn_frame txn commit order'
  refine ⟨(agrees'.complete_ok listed' commit).trans (agrees.complete_ok listed commit).symm,
    agrees.sound.of_completeIn txn commit order, agrees'.sound.of_completeIn txn commit order', ?_, ?_,
    ?_, ?_, h.content_completeIn agrees agrees' listed listed' commit, fun page => ?_, echoes, echoes'⟩
  · rw [he, he', h.policy]
  · rw [he, he', h.catalog]
  · rw [he, he', h.locks]
  · rw [he, he', h.nextTxn]
  · rw [changed?_completeIn agrees listed, changed?_completeIn agrees' listed', h.changed]
    exact if_congr (h.mem_order_iff listed listed' page) rfl rfl

end Twins

end Database

/-! ### Alike actions and replies -/

/-- Whether the same is asked twice: scans may differ by the names of columns in the tuples still to
come, and the pages that a transaction has changed may be visited in another order. -/
inductive Action.Alike : Action → Action → Prop
  | same (action : Action) : Alike action action
  | hasMore {s s' : Scan} : s'.nameless = s.nameless → Alike (.hasMore s) (.hasMore s')
  | step {s s' : Scan} : s'.nameless = s.nameless → Alike (.step s) (.step s')
  | collect {s s' : Scan} : s'.nameless = s.nameless → Alike (.collect s) (.collect s')
  | complete (txn : TxnId) (commit : Bool) (order order' : List PageId) :
      Alike (.complete txn commit order) (.complete txn commit order')

private theorem Action.alike_of_eq {trace trace' : List (Action × Reply)}
    (same : trace'.map Prod.fst = trace.map Prod.fst) :
    List.Forall₂ (fun step step' => step.1.Alike step'.1) trace trace' :=
  forall₂_of_asked_eq .same same

/-- Whether the same is answered twice, apart from the names of columns in stored tuples and from the
serial numbers of copies of pages. -/
def Reply.Alike : Reply → Reply → Prop
  | .frame result, .frame result' =>
    result'.map (fun frame => frame.page.nameless) = result.map fun frame => frame.page.nameless
  | .more result s, .more result' s' => result' = result ∧ s'.nameless = s.nameless
  | .next result s, .next result' s' =>
    result'.map (Except.map Tuple.nameless) = result.map (Except.map Tuple.nameless) ∧
      s'.nameless = s.nameless
  | .rows results s, .rows results' s' =>
    results'.map (Except.map Tuple.nameless) = results.map (Except.map Tuple.nameless) ∧
      s'.nameless = s.nameless
  | reply, reply' => reply' = reply

def Reply.Roomy : Reply → Prop
  | .frame result => Database.Roomy result
  | .record result => Database.Roomy result
  | .more result _ => Database.Roomy result
  | .next result _ => ∀ given ∈ result, Database.Roomy given
  | .turn taken => ∀ given ∈ taken.result?, Database.Roomy given
  | .rows results _ => ∀ given ∈ results, Database.Roomy given
  | _ => True

instance : DecidablePred Reply.Roomy
  | .frame result | .record result | .more result _ =>
    inferInstanceAs (Decidable (Database.Roomy result))
  | .next result _ => inferInstanceAs (Decidable (∀ given ∈ result, Database.Roomy given))
  | .turn taken => inferInstanceAs (Decidable (∀ given ∈ taken.result?, Database.Roomy given))
  | .rows results _ => inferInstanceAs (Decidable (∀ given ∈ results, Database.Roomy given))
  | .nothing | .txn _ | .granted _ | .gaveUp _ | .done _ | .table _ | .page _ | .handle _ => isTrue trivial

namespace Database.Twins
variable {initial initial' : RecordId → Option (List Value)} {l l' : Ledger} {db db' : Database}

private theorem perform (h : Twins db db') (agrees : Agrees initial l db) (agrees' : Agrees initial' l' db')
    {action action' : Action} (alike : action.Alike action') (fits : action.Fits db)
    (fits' : action'.Fits db') (ordinary : Ordinary db action (db.perform action).1)
    (ordinary' : Ordinary db' action' (db'.perform action').1)
    (roomy : (db.perform action).1.Roomy) (roomy' : (db'.perform action').1.Roomy)
    (echoes : (db.perform action).2.Echoes) (echoes' : (db'.perform action').2.Echoes) :
    (db.perform action).1.Alike (db'.perform action').1 ∧
      Twins (db.perform action).2 (db'.perform action').2 := by
  cases alike with
  | hasMore same =>
    obtain ⟨told, left, twins⟩ := h.hasMore same roomy roomy'
    exact ⟨⟨told, left⟩, twins⟩
  | step same =>
    obtain ⟨told, left, twins⟩ := h.step same roomy roomy'
    exact ⟨⟨told, left⟩, twins⟩
  | collect same =>
    obtain ⟨told, left, twins⟩ := h.collect same roomy roomy'
    exact ⟨⟨told, left⟩, twins⟩
  | complete txn commit order order' =>
    obtain ⟨told, twins⟩ := h.completeIn agrees agrees' fits fits' commit echoes echoes'
    exact ⟨congrArg Reply.done told, twins⟩
  | same =>
    cases action with
    | begin =>
      have next : db'.nextTxn = db.nextTxn := h.nextTxn
      refine ⟨congrArg Reply.txn next, ?_⟩
      exact ⟨⟨h.sound.keyed, h.sound.filed, h.sound.locks⟩,
        ⟨h.sound'.keyed, h.sound'.filed, h.sound'.locks⟩, h.policy, h.catalog, h.locks,
        congrArg (· + 1) next, h.content, h.changed, echoes, echoes'⟩
    | fetch txn page access => exact h.fetch txn page access roomy roomy'
    | insert txn table tuple =>
      obtain ⟨told, twins⟩ := h.insert txn tuple table (Reply.not_endless ordinary.2)
        (Reply.not_endless ordinary'.2) roomy roomy'
      rw [Except.map_id] at told
      exact ⟨congrArg Reply.record told, twins⟩
    | delete txn record =>
      obtain ⟨told, twins⟩ := h.delete txn record roomy roomy'
      rw [Except.map_id] at told
      exact ⟨congrArg Reply.record told, twins⟩
    | attempt txn page mode => exact (h.tryLock txn page mode).imp_left (congrArg Reply.granted)
    | giveUp txn => exact (h.giveUp txn).imp_left (congrArg Reply.gaveUp)
    | advance i =>
      obtain ⟨known, room⟩ := ordinary.1.resolve_left id
      exact (h.takeTurn known room roomy roomy').imp_left (congrArg Reply.turn)
    | hasMore s =>
      obtain ⟨told, left, twins⟩ := h.hasMore rfl roomy roomy'
      exact ⟨⟨told, left⟩, twins⟩
    | step s =>
      obtain ⟨told, left, twins⟩ := h.step rfl roomy roomy'
      exact ⟨⟨told, left⟩, twins⟩
    | collect s =>
      obtain ⟨told, left, twins⟩ := h.collect rfl roomy roomy'
      exact ⟨⟨told, left⟩, twins⟩
    | complete txn commit order =>
      obtain ⟨told, twins⟩ := h.completeIn agrees agrees' fits fits' commit echoes echoes'
      exact ⟨congrArg Reply.done told, twins⟩
    | _ => exact (ordinary.1.elim id id).elim

end Database.Twins

/-! ### Runs -/

private theorem Run.echoes {settings : Settings} {volume : Volume} {start db : Database}
    {trace : List (Action × Reply)} (prepared : Prepared settings volume start)
    (run : Run Ordinary.Short start trace db) : db.Echoes := by
  have maintained : Run Maintained start trace db :=
    run.mono fun short => .inl ⟨.inl short.1.usual, short.1.2⟩
  exact (maintained.mirrored prepared.mirrored).echoes (run.verbatim prepared.sound prepared.verbatim)

section Runs
variable {settings settings' : Settings} {volume volume' : Volume} {start start' : Database}
  (prepared : Prepared settings volume start) (prepared' : Prepared settings' volume' start')
include prepared prepared'

/-- Runs from twins in which the same is asked get the same answers and end in twins. -/
private theorem Run.twins {db db' : Database} {trace trace' : List (Action × Reply)}
    (twins : Database.Twins start start') (run : Run Ordinary.Short start trace db)
    (run' : Run Ordinary.Short start' trace' db')
    (asked : List.Forall₂ (fun step step' => step.1.Alike step'.1) trace trace')
    (roomy : ∀ step ∈ trace, step.2.Roomy) (roomy' : ∀ step ∈ trace', step.2.Roomy) :
    List.Forall₂ (fun step step' => step.2.Alike step'.2) trace trace' ∧ Database.Twins db db' := by
  revert roomy roomy'
  refine Run.inductionOn₂ (motive := fun trace db trace' db' => (∀ step ∈ trace, step.2.Roomy) →
      (∀ step ∈ trace', step.2.Roomy) →
      List.Forall₂ (fun step step' => step.2.Alike step'.2) trace trace' ∧ Database.Twins db db')
    run run' asked (fun _ _ => ⟨.nil, twins⟩) ?_
  intro trace trace' mid mid' action action' earlier earlier' alike fits fits' may may' ih roomy roomy'
  obtain ⟨told, twins⟩ := ih (fun step listed => roomy step (List.mem_append_left _ listed))
    fun step listed => roomy' step (List.mem_append_left _ listed)
  have last {trace : List (Action × Reply)} {step : Action × Reply} : step ∈ trace ++ [step] :=
    List.mem_append_right _ (List.mem_singleton.mpr rfl)
  obtain ⟨answer, twins⟩ := twins.perform ((earlier.mono And.left).agrees prepared)
    ((earlier'.mono And.left).agrees prepared') alike fits fits' may.1 may'.1 (roomy _ last)
    (roomy' _ last) ((earlier.next action fits may).echoes prepared)
    ((earlier'.next _ fits' may').echoes prepared')
  exact ⟨forall₂_concat_iff.mpr ⟨told, answer⟩, twins⟩

end Runs

def Database.withCachePages (db : Database) (pages : Nat) : Database :=
  { db with settings := { db.settings with cachePages := pages }, cache := .empty pages }

namespace Prepared
variable {settings : Settings} {volume : Volume} {db : Database} (h : Prepared settings volume db)
include h

/-- So a database is prepared where it is opened in the same way but for the size of the cache. -/
private theorem withCachePages {pages : Nat} (some_room : 0 < pages) :
    Prepared { settings with cachePages := pages } volume (db.withCachePages pages) := by
  induction h with
  | opened h =>
    refine .opened ?_
    rw [Database.ofVolume] at h ⊢
    split at h
    · cases h
    · rename_i usable
      cases h
      exact if_neg fun unusable => usable <| unusable.imp_right fun none_left =>
        absurd none_left (Nat.ne_of_gt some_room)
  | @created db place schema name primaryKey _ ih =>
    have same : (db.createTable place schema name primaryKey).2.withCachePages pages =
        ((db.withCachePages pages).createTable place schema name primaryKey).2 := by
      simp only [Database.createTable, Database.attachTable, Database.openTable,
        Database.withCachePages]
      cases Table.openAt db.volume db.nextTable place schema db.settings.pageSize with
      | error fault => rfl
      | ok outcome => rfl
    rw [same]
    exact .created place schema name primaryKey ih

private theorem twins (pages : Nat) : Database.Twins db (db.withCachePages pages) := by
  have absent (page : PageId) : (db.withCachePages pages).cache.frames[page]? = none :=
    Cache.frames_empty pages page
  have sound := h.sound
  refine ⟨sound, ⟨?_, sound.filed, sound.locks⟩, rfl, rfl, rfl, rfl, fun _ => rfl, fun page => ?_,
    .of_uncached h.uncached, .of_uncached absent⟩
  · intro page frame cached
    rw [absent] at cached
    cases cached
  · rw [Database.changed?_of_absent (absent page), Database.changed?_of_absent (h.uncached page)]

end Prepared

private def pairVolume : Volume :=
  Volume.empty.put 0 (Content.empty.padTo 32)

private def pairSample : Database :=
  (Database.createTable ⟨{ pageSize := 16 }, pairVolume, .empty, .empty, .empty 50, 1, 0⟩ (.file 0)
    ⟨[⟨.int, none⟩]⟩ "numbers" "").2

private def pairInserted (start : Database) : Reply × Database :=
  ((start.perform (.fetch 1 ⟨0, 0⟩ .read)).2.perform (.fetch 1 ⟨0, 1⟩ .read)).2.perform
    (Prepared.insertion 1 7)

end PagedStore
