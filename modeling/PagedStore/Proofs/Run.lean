import Mathlib.Data.List.Forall2
import Mathlib.Data.List.Induction
import PagedStore.Proofs.Database.Completion
import PagedStore.Proofs.Database.Quiet
import PagedStore.Proofs.Database.Underway
import PagedStore.Proofs.Scan

/-! Runs of a database: what can be asked of it, step by step, in any order and by any transaction. -/
namespace PagedStore

/-- What can be asked of a database, or happen to it. Giving a transaction up is its abort, whose reply
nobody sees. Where pages are visited in no certain order, the order is part of the action. What takes a lock may wait
for it, while others act: it attempts to get it until it does or gives up. An insertion may be made at once or turn
by turn. -/
inductive Action where
  | begin
  | fetch (txn : TxnId) (page : PageId) (access : Access)
  | insert (txn : TxnId) (table : TableId) (tuple : Tuple)
  | delete (txn : TxnId) (record : Option RecordId)
  | attempt (txn : TxnId) (page : PageId) (mode : LockMode)
  | giveUp (txn : TxnId)
  | advance (insertion : Insertion)
  | hasMore (scan : Scan)
  | step (scan : Scan)
  | collect (scan : Scan)
  | complete (txn : TxnId) (commit : Bool) (order : List PageId)
  | insertInto (table : Table) (txn : TxnId) (tuple : Tuple)
  | deleteFrom (table : Table) (txn : TxnId) (record : Option RecordId)
  | mark (handle : Handle) (txn : TxnId)
  | alter (handle : Handle) (page : Page)
  | release (txn : TxnId) (page : PageId)
  | drop (page : PageId)
  | flush (page : PageId)
  | flushTxn (txn : TxnId) (order : List PageId)
  | flushAll (order : List PageId)
  | openTable (place : Place) (schema : Schema) (pageSize : Nat)
  | attachTable (place : Place) (schema : Schema) (pageSize : Nat) (name primaryKey : String)
  | clearCatalog
  | append (table : Table)
  | loadLoose (table : Table) (page : PageId)
  | storeHeld (table : Table) (handle : Handle)
  | outside (volume : Volume)

inductive Reply where
  | nothing
  | txn (txn : TxnId)
  | frame (result : Except Fault Frame)
  | record (result : Except Fault RecordId)
  | granted (granted : Bool)
  | gaveUp (fault : Fault)
  | turn (turn : Insertion.Turn)
  | more (result : Except Fault Bool) (scan : Scan)
  | next (result : Option (Except Fault Tuple)) (scan : Scan)
  | rows (results : List (Except Fault Tuple)) (scan : Scan)
  | done (result : Except Fault Unit)
  | table (result : Except Fault Table)
  | page (page : PageId)
  | handle (result : Except Fault Handle)

namespace Database

def perform (db : Database) : Action → Reply × Database
  | .begin => (.txn db.begin.1, db.begin.2)
  | .fetch txn page access => ((db.fetch txn page access).map .frame id)
  | .insert txn table tuple => (db.insert txn table tuple).map .record id
  | .delete txn record => (db.delete txn record).map .record id
  | .attempt txn page mode => (db.tryLock txn page mode).map .granted id
  | .giveUp txn => (db.giveUp txn).map .gaveUp id
  | .advance insertion => (db.takeTurn insertion).map .turn id
  | .hasMore scan => (.more (scan.hasMore db).1 (scan.hasMore db).2.1, (scan.hasMore db).2.2)
  | .step scan => (.next (scan.step db).1 (scan.step db).2.1, (scan.step db).2.2)
  | .collect scan => (.rows (scan.collect db).1 (scan.collect db).2.1, (scan.collect db).2.2)
  | .complete txn commit order => (db.completeIn txn commit order).map .done id
  | .insertInto table txn tuple => (db.insertInto table txn tuple).map .record id
  | .deleteFrom table txn record => (db.deleteFrom table txn record).map .record id
  | .mark handle txn =>
    (.nothing, { db with cache := db.cache.modifyHeld handle fun page => page.changed txn })
  | .alter handle page => (.nothing, { db with cache := db.cache.modifyHeld handle fun _ => page })
  | .release txn page => (.nothing, db.releasePage txn page)
  | .drop page => (.nothing, db.dropPage page)
  | .flush page => (db.flush page).map .done id
  | .flushTxn _ order => (forEachPage commitPage db order).map .done id
  | .flushAll order => (db.writeOutAll order).map .done id
  | .openTable place schema pageSize => (db.openTable place schema pageSize).map .table id
  | .attachTable place schema pageSize name primaryKey =>
    (db.attachTable place schema pageSize name primaryKey).map .table id
  | .clearCatalog => (.nothing, db.clearCatalog)
  | .append table => (db.appendPage table).map .page id
  | .loadLoose table page => (db.loadLoose table page).map .handle id
  | .storeHeld table handle =>
    match db.cache.held? handle with
    | none => (.nothing, db)
    | some page => (db.storeHeld table handle page).map .done id
  | .outside volume => (.nothing, { db with volume := volume })

/-! ### Replies -/

section Replies
variable (db : Database)

theorem reply_fetch (txn : TxnId) (page : PageId) (access : Access) :
    (db.perform (.fetch txn page access)).1 = .frame (db.fetch txn page access).1 :=
  rfl

theorem reply_insert (txn : TxnId) (table : TableId) (tuple : Tuple) :
    (db.perform (.insert txn table tuple)).1 = .record (db.insert txn table tuple).1 :=
  rfl

end Replies

end Database

/-- Whether the data of an action is as it can be: tuples have the types of their schemas, changed
pages keep their names, and the pages visited are those there are to visit. -/
def Action.Fits (db : Database) : Action → Prop
  | .insert _ _ tuple => tuple.IsTyped
  | .insertInto _ _ tuple => tuple.IsTyped
  | .advance insertion => insertion.tuple.IsTyped
  | .complete txn _ order => order.Perm (db.cache.dirtyPagesOf txn)
  | .flushTxn txn order => order.Perm (db.cache.dirtyPagesOf txn)
  | .flushAll order => order.Perm db.cache.dirtyPages
  | .alter handle page => page.id = handle.page
  | _ => True

/-- The actions with their replies that lead from one database to another, where each is one that is
allowed. -/
inductive Run (allowed : Database → Action → Reply → Prop) (db : Database) :
    List (Action × Reply) → Database → Prop
  | start : Run allowed db [] db
  | step {trace : List (Action × Reply)} {mid db' : Database} {action : Action} {reply : Reply} :
      Run allowed db trace mid → action.Fits mid → allowed mid action reply →
      mid.perform action = (reply, db') → Run allowed db (trace ++ [(action, reply)]) db'

/-- A run goes on with any action that is allowed. -/
theorem Run.next {allowed : Database → Action → Reply → Prop} {db mid : Database}
    {trace : List (Action × Reply)} (h : Run allowed db trace mid) (action : Action)
    (fits : action.Fits mid) (may : allowed mid action (mid.perform action).1) :
    Run allowed db (trace ++ [(action, (mid.perform action).1)]) (mid.perform action).2 :=
  h.step fits may rfl

private theorem Run.of_nil {allowed : Database → Action → Reply → Prop} {db db' : Database}
    (h : Run allowed db [] db') : db' = db := by
  generalize none_taken : ([] : List (Action × Reply)) = whole at h
  cases h with
  | start => rfl
  | step _ _ _ _ => exact absurd none_taken.symm (List.append_ne_nil_of_right_ne_nil _ (by simp))

/-- A run ends with its last action. -/
theorem Run.of_concat {allowed : Database → Action → Reply → Prop} {db db' : Database}
    {trace : List (Action × Reply)} {action : Action} {reply : Reply}
    (h : Run allowed db (trace ++ [(action, reply)]) db') :
    ∃ mid, Run allowed db trace mid ∧ action.Fits mid ∧ allowed mid action reply ∧
      mid.perform action = (reply, db') := by
  generalize same : trace ++ [(action, reply)] = whole at h
  cases h with
  | start => exact absurd same (List.append_ne_nil_of_right_ne_nil _ (by simp))
  | step earlier fits may performed =>
    obtain ⟨rfl, last⟩ := List.append_inj' same rfl
    cases last
    exact ⟨_, earlier, fits, may, performed⟩

/-- What holds at the start, and goes on to hold with every action performed, holds after every run. -/
@[elab_as_elim]
theorem Run.inductionOn {allowed : Database → Action → Reply → Prop} {start : Database}
    {motive : ∀ trace db, Run allowed start trace db → Prop} {trace : List (Action × Reply)}
    {db : Database} (run : Run allowed start trace db) (first : motive [] start .start)
    (next : ∀ {trace : List (Action × Reply)} {mid : Database} (earlier : Run allowed start trace mid)
      (action : Action) (fits : action.Fits mid) (may : allowed mid action (mid.perform action).1),
      motive trace mid earlier → motive _ _ (earlier.next action fits may)) :
    motive trace db run := by
  induction run with
  | start => exact first
  | step earlier fits may performed ih =>
    obtain ⟨rfl, rfl⟩ := Prod.ext_iff.mp performed
    exact next earlier _ fits may ih

theorem forall₂_concat_iff {α β : Type} {R : α → β → Prop} {l : List α} {l' : List β} {a : α}
    {b : β} : List.Forall₂ R (l ++ [a]) (l' ++ [b]) ↔ List.Forall₂ R l l' ∧ R a b := by
  rw [← List.forall₂_reverse_iff, List.reverse_append, List.reverse_append]
  exact List.forall₂_cons.trans ((and_comm).trans (and_congr_left' List.forall₂_reverse_iff))

/-- Where the same actions are performed, alike actions are. -/
theorem forall₂_of_asked_eq {alike : Action → Action → Prop} (same_alike : ∀ action, alike action action)
    {trace trace' : List (Action × Reply)} (same : trace'.map Prod.fst = trace.map Prod.fst) :
    List.Forall₂ (fun step step' => alike step.1 step'.1) trace trace' := by
  have each : List.Forall₂ alike (trace.map Prod.fst) (trace'.map Prod.fst) := by
    rw [same]
    exact List.forall₂_same.mpr fun action _ => same_alike action
  rwa [List.forall₂_map_left_iff, List.forall₂_map_right_iff] at each

/-- What holds of two databases at the start, and goes on to hold with every two actions that are alike,
holds after two runs in which alike actions are performed. -/
theorem Run.inductionOn₂ {allowed allowed' : Database → Action → Reply → Prop}
    {alike : Action → Action → Prop} {start start' : Database}
    {motive : List (Action × Reply) → Database → List (Action × Reply) → Database → Prop}
    {trace trace' : List (Action × Reply)} {db db' : Database} (run : Run allowed start trace db)
    (run' : Run allowed' start' trace' db')
    (asked : List.Forall₂ (fun step step' => alike step.1 step'.1) trace trace')
    (first : motive [] start [] start')
    (next : ∀ {trace trace' : List (Action × Reply)} {mid mid' : Database} {action action' : Action},
      Run allowed start trace mid → Run allowed' start' trace' mid' → alike action action' →
      action.Fits mid → action'.Fits mid' → allowed mid action (mid.perform action).1 →
      allowed' mid' action' (mid'.perform action').1 → motive trace mid trace' mid' →
      motive (trace ++ [(action, (mid.perform action).1)]) (mid.perform action).2
        (trace' ++ [(action', (mid'.perform action').1)]) (mid'.perform action').2) :
    motive trace db trace' db' := by
  induction run using Run.inductionOn generalizing trace' db' with
  | first =>
    cases List.forall₂_nil_left_iff.mp asked
    obtain rfl := run'.of_nil
    exact first
  | next earlier action fits may ih =>
    cases trace' using List.reverseRecOn with
    | nil => exact absurd asked.length_eq (by simp)
    | append_singleton trace' step =>
      obtain ⟨action', reply'⟩ := step
      obtain ⟨before, both⟩ := forall₂_concat_iff.mp asked
      obtain ⟨mid', earlier', fits', may', performed⟩ := run'.of_concat
      obtain ⟨rfl, rfl⟩ := Prod.ext_iff.mp performed
      exact next earlier earlier' both fits fits' may may' (ih earlier' before)

/-- A run is one also where more is allowed. -/
theorem Run.mono {allowed allowed' : Database → Action → Reply → Prop} {db db' : Database}
    {trace : List (Action × Reply)} (h : Run allowed db trace db')
    (more : ∀ {mid action reply}, allowed mid action reply → allowed' mid action reply) :
    Run allowed' db trace db' := by
  induction h using Run.inductionOn with
  | first => exact .start
  | next _ action fits may ih => exact ih.next action fits (more may)

namespace Database

/-! ### Opening tables -/

section Opening
variable (db : Database) (place : Place) (schema : Schema) (pageSize : Nat)
  (name primaryKey : String)

@[simp] theorem cache_openTable : (db.openTable place schema pageSize).2.cache = db.cache := by
  rw [openTable]
  split <;> rfl

@[simp] theorem locks_openTable : (db.openTable place schema pageSize).2.locks = db.locks := by
  rw [openTable]
  split <;> rfl

/-- A table becomes known over files that are as they were, or nothing happens. -/
theorem attachTable_cases :
    (∃ fault, db.attachTable place schema pageSize name primaryKey = (.error fault, db)) ∨
    ∃ table v, (∀ id, v.content id = db.volume.content id) ∧
      db.attachTable place schema pageSize name primaryKey = (.ok table,
        { db with
          volume := v
          nextTable := db.nextTable + 1
          catalog := db.catalog.add table name primaryKey }) := by
  simp only [attachTable, openTable]
  cases opened : Table.openAt db.volume db.nextTable place schema pageSize with
  | error fault => exact .inl ⟨fault, rfl⟩
  | ok outcome => exact .inr ⟨outcome.1, outcome.2, (Table.openAt_eq_ok opened).2.2.2, rfl⟩

@[simp] theorem cache_attachTable :
    (db.attachTable place schema pageSize name primaryKey).2.cache = db.cache := by
  rcases db.attachTable_cases place schema pageSize name primaryKey with ⟨_, he⟩ | ⟨_, _, -, he⟩ <;>
  rw [he]

@[simp] theorem locks_attachTable :
    (db.attachTable place schema pageSize name primaryKey).2.locks = db.locks := by
  rcases db.attachTable_cases place schema pageSize name primaryKey with ⟨_, he⟩ | ⟨_, _, -, he⟩ <;>
  rw [he]

end Opening

/-! ### What every action preserves -/

/-- Whether pages are cached under their own names, known tables are known by their own numbers, and
exclusive locks are. -/
structure Sound (db : Database) : Prop where
  keyed : db.cache.Keyed
  filed : db.catalog.Filed
  locks : db.locks.Sound

namespace Sound
variable {db db' : Database}

theorem of_quiet (h : db.Sound) {txn : TxnId} (quiet : Quiet txn db db') : db'.Sound :=
  ⟨quiet.keyed h.keyed, quiet.catalog ▸ h.filed, quiet.locks.sound h.locks⟩

theorem of_approach (h : db.Sound) {grows : Table → Volume → Prop} {txn : TxnId}
    (way : Approach grows txn db db') : db'.Sound :=
  ⟨way.keyed h.keyed, way.catalog_eq ▸ h.filed, way.onward.sound h.locks⟩

theorem of_edit (h : db.Sound) {txn : TxnId} {record : RecordId} {content : Option Tuple}
    (edit : Edit txn record content db db') : db'.Sound :=
  ⟨edit.keyed h.keyed, edit.catalog ▸ h.filed, edit.locks ▸ h.locks⟩

private theorem of_attempt (h : db.Sound) {grows : Table → Volume → Prop} {txn : TxnId}
    {content : RecordId → Option Tuple} {done : Option RecordId}
    (attempt : Attempt grows txn content db done db') : db'.Sound := by
  obtain ⟨mid, way, edit⟩ := attempt
  cases done with
  | none => exact edit ▸ h.of_approach way
  | some record => exact (h.of_approach way).of_edit edit

private theorem of_cache (h : db.Sound) {cache : Cache} (keyed : cache.Keyed) :
    Sound { db with cache := cache } :=
  ⟨keyed, h.filed, h.locks⟩

theorem of_confined (h : db.Sound) {pages : List PageId}
    (confined : Confined pages db db' ∧ db'.cache.Keyed) : db'.Sound :=
  ⟨confined.2, confined.1.catalog ▸ h.filed, confined.1.locks ▸ h.locks⟩

private theorem keyed_modifyHeld {c : Cache} (h : c.Keyed) {handle : Handle} {change : Page → Page}
    (same : ∀ p, p.id = handle.page → (change p).id = handle.page) :
    (c.modifyHeld handle change).Keyed := by
  rw [Cache.modifyHeld]
  split
  · exact keyed_modify h same
  · exact h

private theorem of_writeOut (h : db.Sound) (page : PageId) : (db.writeOut page).2.Sound := by
  rw [writeOut]
  split
  · exact h
  · split
    · exact h
    · exact ⟨keyed_modify h.keyed fun _ same => same, h.filed, h.locks⟩

private theorem of_writeOutAll (h : db.Sound) (pages : List PageId) :
    (db.writeOutAll pages).2.Sound :=
  kept_writeOutAll (motive := Sound) (fun page sound => sound.of_writeOut page) h pages

private theorem of_openTable (h : db.Sound) (place : Place) (schema : Schema) (pageSize : Nat) :
    (db.openTable place schema pageSize).2.Sound := by
  rw [openTable]
  split
  · exact h
  · exact ⟨h.keyed, h.filed, h.locks⟩

private theorem of_attachTable (h : db.Sound) (place : Place) (schema : Schema) (pageSize : Nat)
    (name primaryKey : String) : (db.attachTable place schema pageSize name primaryKey).2.Sound := by
  have opened := h.of_openTable place schema pageSize
  rw [attachTable]
  split
  · rename_i he
    rw [he] at opened
    exact opened
  · rename_i he
    rw [he] at opened
    exact ⟨opened.keyed, opened.filed.add _ name primaryKey, opened.locks⟩

theorem of_completeIn (h : db.Sound) (txn : TxnId) (commit : Bool) (pages : List PageId) :
    (db.completeIn txn commit pages).2.Sound := by
  have each : (forEachPage (if commit then commitPage else revertPage) db pages).2.Sound := by
    cases commit with
    | true => exact h.of_confined (confined_forEachPage confined_commitPage h.filed h.keyed pages)
    | false => exact h.of_confined (confined_forEachPage confined_revertPage h.filed h.keyed pages)
  exact ⟨each.keyed, each.filed, each.locks.forget txn⟩

/-- Whatever is asked of a database in order, or happens to it, leaves it in order. -/
theorem perform (h : db.Sound) {action : Action} (fits : action.Fits db) :
    (db.perform action).2.Sound := by
  cases action with
  | begin => exact ⟨h.keyed, h.filed, h.locks⟩
  | fetch txn page access =>
    exact h.of_approach (Approach.still.fetch page access : Approach (fun _ _ => True) txn db _)
  | insert txn table tuple =>
    exact h.of_attempt (attempt_insert (fun _ _ => True) txn tuple h.keyed table
      fun _ _ _ _ => trivial)
  | delete txn record => exact h.of_attempt (attempt_delete (fun _ _ => True) db txn record h.keyed)
  | attempt txn page mode => exact ⟨h.keyed, h.filed, (db.locks.onward_request txn page mode).sound h.locks⟩
  | giveUp txn => exact ⟨h.keyed, h.filed, h.locks.stopWaiting txn⟩
  | advance i => exact h.of_attempt (attempt_takeTurn (fun _ _ => True) h.keyed i fun _ => trivial)
  | hasMore scan => exact h.of_approach ((scan.turn_hasMore db).1.approach fun _ _ => True)
  | step scan => exact h.of_approach ((scan.turn_step db).approach fun _ _ => True)
  | collect scan => exact h.of_approach ((scan.turn_collect db).approach fun _ _ => True)
  | complete txn commit order => exact h.of_completeIn txn commit order
  | insertInto table txn tuple =>
    exact h.of_attempt (attempt_insertInto (fun _ _ => True) txn tuple h.keyed
      fun _ _ => trivial)
  | deleteFrom table txn record =>
    exact h.of_attempt (attempt_deleteFrom (fun _ _ => True) db txn record table)
  | mark handle txn => exact h.of_cache (keyed_modifyHeld h.keyed fun _ same => same)
  | alter handle page => exact h.of_cache (keyed_modifyHeld h.keyed fun _ _ => fits)
  | release txn page => exact ⟨h.keyed, h.filed, h.locks.release txn page⟩
  | drop page => exact h.of_cache (keyed_drop h.keyed page)
  | flush page =>
    simp only [Database.perform, flush]
    split
    · exact h.of_writeOut page
    · exact h
  | flushTxn txn order =>
    exact h.of_confined (confined_forEachPage confined_commitPage h.filed h.keyed order)
  | flushAll order => exact h.of_writeOutAll order
  | openTable place schema pageSize => exact h.of_openTable place schema pageSize
  | attachTable place schema pageSize name primaryKey =>
    exact h.of_attachTable place schema pageSize name primaryKey
  | clearCatalog => exact ⟨h.keyed, Catalog.filed_empty, h.locks⟩
  | append table => exact ⟨h.keyed, h.filed, h.locks⟩
  | loadLoose table page =>
    simp only [Database.perform, loadLoose]
    split
    · exact h
    · exact h.of_cache h.keyed
  | storeHeld table handle =>
    simp only [Database.perform]
    split
    · exact h
    · simp only [Database.storeHeld]
      split
      · exact h
      · exact ⟨keyed_modifyHeld h.keyed fun _ same => same, h.filed, h.locks⟩
  | outside volume => exact ⟨h.keyed, h.filed, h.locks⟩

end Sound

theorem sound_ofVolume {settings : Settings} {volume : Volume} {db : Database}
    (h : ofVolume settings volume = .ok db) : db.Sound := by
  rw [ofVolume] at h
  split at h
  · cases h
  · cases h
    refine ⟨?_, Catalog.filed_empty, .empty⟩
    intro id frame cached
    rw [Cache.frames_empty] at cached
    cases cached

end Database

theorem Run.sound {allowed : Database → Action → Reply → Prop} {db db' : Database}
    {trace : List (Action × Reply)} (h : Run allowed db trace db') (sound : db.Sound) : db'.Sound := by
  induction h using Run.inductionOn with
  | first => exact sound
  | next _ _ fits _ ih => exact ih.perform fits

end PagedStore
