import PagedStore.Proofs.Run

/-! The changes that a run makes to records, and what its actions do to a database apart from them. -/
namespace PagedStore

structure Change where
  txn : TxnId
  record : RecordId
  content : Option Tuple

def Action.tuple? : Action → Option Tuple
  | .insert _ _ tuple => some tuple
  | .insertInto _ _ tuple => some tuple
  | .advance insertion => some insertion.tuple
  | _ => none

namespace Change

def of? : Action → Reply → Option Change
  | .insert txn _ tuple, .record result => inserted txn tuple result
  | .insertInto _ txn tuple, .record result => inserted txn tuple result
  | .delete txn _, .record result => deleted txn result
  | .deleteFrom _ txn _, .record result => deleted txn result
  | .advance i, .turn turn =>
    turn.record?.map fun record => ⟨i.txn, record, Database.asRecord i.tuple record⟩
  | _, _ => none
where
  inserted (txn : TxnId) (tuple : Tuple) (result : Except Fault RecordId) : Option Change :=
    result.toOption.map fun record => ⟨txn, record, Database.asRecord tuple record⟩
  deleted (txn : TxnId) (result : Except Fault RecordId) : Option Change :=
    result.toOption.map fun record => ⟨txn, record, none⟩

/-- What is put anywhere is the tuple inserted, as the record that it becomes. -/
theorem content_eq {action : Action} {reply : Reply} {c : Change}
    (made : of? action reply = some c) {put : Tuple} (content : c.content = some put) :
    ∃ tuple, action.tuple? = some tuple ∧ put = { tuple with record := some c.record } := by
  unfold of? at made
  split at made
  · obtain ⟨record, -, rfl⟩ := Option.map_eq_some_iff.mp made
    exact ⟨_, rfl, (Option.some.inj content).symm⟩
  · obtain ⟨record, -, rfl⟩ := Option.map_eq_some_iff.mp made
    exact ⟨_, rfl, (Option.some.inj content).symm⟩
  · obtain ⟨record, -, rfl⟩ := Option.map_eq_some_iff.mp made
    cases content
  · obtain ⟨record, -, rfl⟩ := Option.map_eq_some_iff.mp made
    cases content
  · obtain ⟨record, -, rfl⟩ := Option.map_eq_some_iff.mp made
    exact ⟨_, rfl, (Option.some.inj content).symm⟩
  · cases made

/-- Only typed tuples are put anywhere. -/
theorem typed_of_fits {db : Database} {action : Action} {reply : Reply} {c : Change}
    (fits : action.Fits db) (made : of? action reply = some c) :
    ∀ tuple, c.content = some tuple → tuple.IsTyped := by
  intro tuple content
  obtain ⟨given, inserted, rfl⟩ := content_eq made content
  cases action with
  | insert txn id tuple =>
    cases inserted
    exact fits
  | insertInto table txn tuple =>
    cases inserted
    exact fits
  | advance i =>
    cases inserted
    exact fits
  | _ => cases inserted

def apply {α : Type} (view : Tuple → α) (contents : RecordId → Option α) (c : Change) :
    RecordId → Option α :=
  fun record => if record = c.record then c.content.map view else contents record

def replay {α : Type} (view : Tuple → α) (contents : RecordId → Option α) (changes : List Change) :
    RecordId → Option α :=
  changes.foldl (apply view) contents

section Replay
variable {α : Type} {view : Tuple → α} {contents contents' : RecordId → Option α}

@[simp] theorem replay_nil : replay view contents [] = contents :=
  rfl

theorem replay_append (earlier later : List Change) :
    replay view contents (earlier ++ later) = replay view (replay view contents earlier) later :=
  List.foldl_append

theorem replay_concat (changes : List Change) (c : Change) (record : RecordId) :
    replay view contents (changes ++ [c]) record =
      if record = c.record then c.content.map view else replay view contents changes record := by
  rw [replay_append]
  rfl

/-- What becomes of a record depends on what was there before and on nothing else. -/
theorem replay_congr {record : RecordId} (same : contents record = contents' record)
    (changes : List Change) :
    replay view contents changes record = replay view contents' changes record := by
  induction changes generalizing contents contents' with
  | nil => exact same
  | cons c changes ih =>
    apply ih
    rw [apply, apply, same]

/-- A record stays as it is if no record of its page changes. -/
theorem replay_of_untouched {changes : List Change} {record : RecordId}
    (untouched : ∀ c ∈ changes, c.record.page ≠ record.page) :
    replay view contents changes record = contents record := by
  induction changes generalizing contents with
  | nil => rfl
  | cons c changes ih =>
    refine (ih fun c' listed => untouched c' (List.mem_cons_of_mem c listed)).trans (if_neg fun same => ?_)
    exact untouched c List.mem_cons_self (congrArg RecordId.page same).symm

end Replay

def along (trace : List (Action × Reply)) : List Change :=
  trace.filterMap fun (action, reply) => of? action reply

theorem along_concat (trace : List (Action × Reply)) (action : Action) (reply : Reply) :
    along (trace ++ [(action, reply)]) = along trace ++ (of? action reply).toList := by
  rw [along, List.filterMap_append]
  cases h : of? action reply <;> simp [along, h]

end Change

/-! ### Transactions -/

/-- What a transaction does by way of the database: reading, inserting, deleting, waiting and ending. -/
def Action.Plain : Action → Prop
  | .begin => True
  | .fetch _ _ _ => True
  | .insert _ _ _ => True
  | .delete _ _ => True
  | .attempt _ _ _ => True
  | .giveUp _ => True
  | .hasMore _ => True
  | .step _ => True
  | .collect _ => True
  | .complete _ _ _ => True
  | _ => False

/-- The turns of an insertion into a known table. A page is added only as long as it gets a number of its own. -/
def Action.Underway (db : Database) : Action → Prop
  | .advance i => db.Knows i.table ∧ (i.appends → i.table.pages db.volume < 4294967296)
  | _ => False

/-- Insertions and deletions past the database's own, by way of a table that it knows. -/
def Action.Direct (db : Database) : Action → Prop
  | .insertInto table _ _ => db.Knows table
  | .deleteFrom table _ _ => db.Knows table
  | _ => False

/-- What transactions do, by way of the database or of a table that it knows, at once or turn by turn. -/
def Action.Usual (db : Database) (action : Action) : Prop :=
  action.Plain ∨ action.Underway db ∨ action.Direct db

/-- Whether an action comes to an end: an insertion does not that adds pages for ever, as the table's
page numbers have begun again. -/
def Reply.ends : Reply → Bool
  | .record result => !Database.endless result
  | _ => true

theorem Reply.not_endless {result : Except Fault RecordId} (h : (record result).ends) :
    ¬ Database.endless result := by
  simpa [ends] using h

/-- What transactions do by way of the database, where nothing goes on for ever. Insertions are made at once or turn
by turn, and others may act between the turns. -/
def Ordinary (db : Database) (action : Action) (reply : Reply) : Prop :=
  (action.Plain ∨ action.Underway db) ∧ reply.ends

theorem Ordinary.usual {db : Database} {action : Action} {reply : Reply} (h : Ordinary db action reply) :
    action.Usual db :=
  h.1.imp_right .inl

def Tuple.IsShort (tuple : Tuple) : Prop :=
  ∀ content, Value.text content ∈ tuple.values →
    (Text.Utf8.encode content).length ≤ textCapacity

def Action.Short : Action → Prop
  | .insert _ _ tuple => tuple.IsShort
  | .insertInto _ _ tuple => tuple.IsShort
  | .advance insertion => insertion.tuple.IsShort
  | _ => True

def Ordinary.Short (db : Database) (action : Action) (reply : Reply) : Prop :=
  Ordinary db action reply ∧ action.Short

namespace Database

def Moves (db : Database) (change : Option Change) (db' : Database) : Prop :=
  match change with
  | none => ∃ txn, Quiet txn db db'
  | some c => ∃ mid, Quiet c.txn db mid ∧ Edit c.txn c.record c.content mid db'

/-- No record changes, or the one that is told of does in the end. -/
theorem Moves.cases {db db' : Database} {change : Option Change} (h : Moves db change db') :
    (change = none ∧ ∃ txn, Quiet txn db db') ∨ ∃ c mid, change = some c ∧ Quiet c.txn db mid ∧
      Edit c.txn c.record c.content mid db' := by
  cases change with
  | none => exact .inl ⟨rfl, h⟩
  | some c =>
    obtain ⟨mid, quiet, edit⟩ := h
    exact .inr ⟨c, mid, rfl, quiet, edit⟩

private theorem moves_approach {txn : TxnId} {db db' : Database}
    (h : Approach (fun _ _ => False) txn db db') : Moves db none db' :=
  ⟨txn, h.quiet nofun⟩

private theorem moves_attempt {txn : TxnId} {content : RecordId → Option Tuple} {db db' : Database}
    {done : Option RecordId} (h : Attempt db.MayGrow txn content db done db') :
    Moves db (done.map fun record => ⟨txn, record, content record⟩) db' := by
  obtain ⟨mid, way, edit⟩ := h
  have quiet := way.quiet fun _ _ => id
  cases done with
  | none => exact ⟨txn, edit ▸ quiet⟩
  | some record => exact ⟨mid, quiet, edit⟩

/-- What a transaction does ends it, or moves pages and changes a record at most. -/
theorem Sound.completes_or_moves {db : Database} (sound : db.Sound) {action : Action}
    (usual : action.Usual db) (ends : (db.perform action).1.ends) :
    (∃ txn commit order, action = .complete txn commit order) ∨
      Moves db (Change.of? action (db.perform action).1) (db.perform action).2 := by
  cases action with
  | complete txn commit order => exact .inl ⟨txn, commit, order, rfl⟩
  | begin =>
    exact .inr ⟨0, rfl, rfl, .refl 0 db.locks, fun _ _ => .of_content_eq rfl,
      fun _ _ => Nat.le_max_left _ _, fun _ => rfl, fun _ => .inl rfl⟩
  | fetch txn page access => exact .inr ⟨txn, quiet_fetch db txn page access⟩
  | insert txn id tuple =>
    refine .inr (moves_attempt (attempt_insert _ txn tuple sound.keyed id fun table v known may =>
      ⟨?_, may.resolve_right (Reply.not_endless ends)⟩))
    rwa [Knows, sound.filed known]
  | delete txn record => exact .inr (moves_attempt (attempt_delete _ db txn record sound.keyed))
  | attempt txn page mode => exact .inr ⟨txn, .of_locks (db.locks.onward_request txn page mode)⟩
  | giveUp txn => exact .inr ⟨txn, .of_locks (Locks.Onward.refl txn db.locks).stopWaiting⟩
  | advance i =>
    have underway : Action.Underway db (.advance i) := (usual.resolve_left id).resolve_right id
    exact .inr (moves_attempt (attempt_takeTurn _ sound.keyed i fun adds => ⟨underway.1, underway.2 adds⟩))
  | hasMore scan => exact .inr (moves_approach ((scan.turn_hasMore db).1.approach _))
  | step scan => exact .inr (moves_approach ((scan.turn_step db).approach _))
  | collect scan => exact .inr (moves_approach ((scan.turn_collect db).approach _))
  | insertInto table txn tuple =>
    exact .inr (moves_attempt (attempt_insertInto _ txn tuple sound.keyed
      fun _ may => ⟨(usual.resolve_left id).resolve_left id, may.resolve_right (Reply.not_endless ends)⟩))
  | deleteFrom table txn record =>
    exact .inr (moves_attempt (attempt_deleteFrom _ db txn record table))
  | _ => exact (usual.elim id (Or.elim · id id)).elim

end Database

/-! ### How runs begin -/

/-- A database that was opened over files and has got its tables, and nothing more yet. -/
inductive Prepared (settings : Settings) (volume : Volume) : Database → Prop
  | opened {db : Database} : Database.ofVolume settings volume = .ok db → Prepared settings volume db
  | created {db : Database} (place : Place) (schema : Schema) (name primaryKey : String) :
      Prepared settings volume db →
      Prepared settings volume (db.createTable place schema name primaryKey).2

namespace Prepared
variable {settings : Settings} {volume : Volume} {db : Database}

/-- Nothing is cached or locked yet, and the files are as they were found. -/
theorem fresh (h : Prepared settings volume db) : db.cache = .empty settings.cachePages ∧
    db.locks = .empty ∧ db.settings = settings ∧ db.catalog.Filed ∧
      ∀ id, db.volume.content id = volume.content id := by
  induction h with
  | opened h =>
    rw [Database.ofVolume] at h
    split at h
    · cases h
    · cases h
      exact ⟨rfl, rfl, rfl, Catalog.filed_empty, fun _ => rfl⟩
  | @created db place schema name primaryKey _ ih =>
    obtain ⟨cache, locks, settings, filed, same⟩ := ih
    rw [Database.createTable]
    rcases db.attachTable_cases place schema db.settings.pageSize name primaryKey with
      ⟨fault, he⟩ | ⟨table, v, content, he⟩
    · rw [he]
      exact ⟨cache, locks, settings, filed, same⟩
    · rw [he]
      exact ⟨cache, locks, settings, filed.add table name primaryKey,
        fun id => (content id).trans (same id)⟩

theorem uncached (h : Prepared settings volume db) (page : PageId) :
    db.cache.frames[page]? = none := by
  rw [h.fresh.1, Cache.frames_empty]

theorem room (h : Prepared settings volume db) : 0 < settings.cachePages := by
  induction h with
  | opened h =>
    rw [Database.ofVolume] at h
    split at h
    · cases h
    · rename_i some_room
      exact Nat.pos_of_ne_zero fun none_left => some_room (.inr none_left)
  | created _ _ _ _ _ ih => exact ih

theorem sound (h : Prepared settings volume db) : db.Sound := by
  obtain ⟨-, locks, -, filed, -⟩ := h.fresh
  refine ⟨?_, filed, locks ▸ .empty⟩
  intro id frame cached
  rw [h.uncached] at cached
  cases cached

def sample : Database :=
  (Database.createTable ⟨{ pageSize := 16 }, .empty, .empty, .empty, .empty 50, 1, 0⟩ (.file 0)
    ⟨[⟨.int, none⟩]⟩ "numbers" "").2

def insertion (txn : TxnId) (number : Int32) : Action :=
  .insert txn 0 ⟨⟨[⟨.int, none⟩]⟩, [.int number], none⟩

theorem of_sample : Prepared { pageSize := 16 } .empty sample :=
  .created _ _ _ _ (.opened rfl)

end Prepared

/-- Something was returned if something can be told of it. -/
theorem ok_of_toOption_map {ε α β : Type} {result : Except ε α} {view : α → β} {seen : β}
    (h : result.toOption.map view = some seen) : ∃ a, result = .ok a ∧ view a = seen := by
  cases result with
  | error fault => cases h
  | ok a => exact ⟨a, rfl, Option.some.inj h⟩

end PagedStore
