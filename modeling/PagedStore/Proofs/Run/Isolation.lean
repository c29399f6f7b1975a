import PagedStore.Proofs.Run.Agreement
import PagedStore.Proofs.Run.Progress

/-! Transactions see what is committed and what they have changed themselves, and nothing else. -/
namespace PagedStore

/-- Storage keeps all of a short tuple. -/
theorem Tuple.IsShort.row_eq {tuple : Tuple} (h : tuple.IsShort) : tuple.row = tuple.values := by
  refine (List.map_congr_left fun value listed => ?_).trans (List.map_id _)
  cases value with
  | int number => rfl
  | text content => exact congrArg Value.text (Text.Utf8.clip_eq_self_iff.mpr (h content listed))

private theorem Change.row_eq_of_short {action : Action} {reply : Reply} {c : Change} (short : action.Short)
    (made : of? action reply = some c) :
    ∀ tuple, c.content = some tuple → tuple.row = tuple.values := by
  intro tuple content
  obtain ⟨given, inserted, rfl⟩ := content_eq made content
  cases action with
  | insert txn id tuple =>
    cases inserted
    exact Tuple.IsShort.row_eq short
  | insertInto table txn tuple =>
    cases inserted
    exact Tuple.IsShort.row_eq short
  | advance i =>
    cases inserted
    exact Tuple.IsShort.row_eq short
  | _ => cases inserted

namespace Database

def Verbatim (db : Database) : Prop :=
  ∀ ⦃page : PageId⦄ ⦃frame : Frame⦄, db.cache.frames[page]? = some frame → ∀ slot,
    frame.page.keptRow? slot = frame.page.row? slot

namespace Verbatim
variable {db db' : Database}

private theorem of_load {page : PageId} {p : Page} (loaded : db.load page = .ok p) (slot : Nat) :
    p.keptRow? slot = p.row? slot := by
  obtain ⟨table, -, read⟩ := load_eq_ok_iff.mp loaded
  exact (table.shown_of_load read).2.keptRow?_eq slot

private theorem quiet (h : db.Verbatim) {txn : TxnId} (quiet : Quiet txn db db') : db'.Verbatim := by
  intro page frame cached
  rcases quiet.frames page with same | ⟨-, loaded⟩
  · exact h (same ▸ cached)
  · exact of_load (loaded frame cached)

private theorem edit (h : db.Verbatim) {txn : TxnId} {record : RecordId} {content : Option Tuple}
    (edit : Edit txn record content db db')
    (kept : ∀ tuple, content = some tuple → tuple.row = tuple.values) : db'.Verbatim := by
  intro page frame cached slot
  rcases edit.cached_cases cached with ⟨-, before⟩ | ⟨old, -, held, takes, rfl⟩
  · exact h before slot
  · show (old.page.withSlot record.slot content).keptRow? slot =
      (old.page.withSlot record.slot content).row? slot
    rw [Page.keptRow?_withSlot takes.inside, Page.row?_withSlot takes.inside]
    split
    · cases content with
      | none => rfl
      | some tuple => exact congrArg some (kept tuple rfl)
    · exact h held slot

private theorem close (h : db.Verbatim) (sound : db.Sound) {txn : TxnId} {order : List PageId}
    (listed : order.Perm (db.cache.dirtyPagesOf txn)) (commit : Bool) :
    (db.completeIn txn commit order).2.Verbatim := by
  have completed := sound.completed commit listed
  intro page frame cached slot
  by_cases mem : page ∈ order
  · obtain ⟨old, held, -⟩ := Cache.mem_dirtyPagesOf.mp (listed.mem_iff.mp mem)
    rcases completed.settled mem held with gone | ⟨new, held', -, -, step⟩
    · rw [gone] at cached
      cases cached
    · rw [held'] at cached
      cases cached
      cases commit with
      | true =>
        obtain ⟨same, -⟩ := step
        rw [same]
        exact h held slot
      | false => exact of_load step slot
  · exact h ((completed.others_cached mem).symm.trans cached) slot

theorem transact (h : db.Verbatim) (sound : db.Sound) {action : Action} (fits : action.Fits db)
    (usual : action.Usual db) (ends : (db.perform action).1.ends)
    (short : action.Short) : (db.perform action).2.Verbatim := by
  rcases sound.completes_or_moves usual ends with ⟨txn, commit, order, rfl⟩ | moves
  · exact h.close sound fits commit
  · rcases moves.cases with ⟨-, txn, quiet⟩ | ⟨c, mid, made, quiet, edit⟩
    · exact h.quiet quiet
    · exact (h.quiet quiet).edit edit (Change.row_eq_of_short short made)

theorem step (h : db.Verbatim) (sound : db.Sound) {action : Action} (fits : action.Fits db)
    (short : Ordinary.Short db action (db.perform action).1) : (db.perform action).2.Verbatim :=
  h.transact sound fits short.1.usual short.1.2 short.2

end Verbatim

private theorem seen_of_fetch {initial : RecordId → Option (List Value)} {l : Ledger} {db db' : Database}
    (agrees : Agrees initial l db) (verbatim : db.Verbatim) {txn : TxnId} {page : PageId}
    {access : Access} {frame : Frame} (fetched : db.fetch txn page access = (.ok frame, db')) :
    Agrees initial l db' ∧ db'.Verbatim ∧ frame.page.Sound ∧ frame.page.id = page ∧
      ∀ slot, frame.page.row? slot = l.seenBy initial txn ⟨page, slot⟩ := by
  have quiet := quiet_fetch db txn page access
  rw [fetched] at quiet
  obtain ⟨cached, ⟨mode, locked, -⟩, -⟩ := fetch_eq_ok fetched
  have agrees' := agrees.quiet quiet (agrees.sound.of_quiet quiet)
  refine ⟨agrees', verbatim.quiet quiet, (agrees'.fitting cached).1, agrees'.sound.keyed cached,
    fun slot => ?_⟩
  rw [← verbatim.quiet quiet cached]
  refine agrees'.seen cached ?_ slot
  rw [Locks.holds, locked]
  rfl

/-- Pages fetched in turn show the rows that the transaction is to see. -/
theorem Reads.seen {initial : RecordId → Option (List Value)} {l : Ledger} {table : Table}
    {txn : TxnId} {db db' : Database} {position : Nat} {shown : List Page}
    (reads : Reads table txn db position shown db') (agrees : Agrees initial l db)
    (verbatim : db.Verbatim) :
    ∀ page ∈ shown, page.Sound ∧ ∀ slot, page.row? slot = l.seenBy initial txn ⟨page.id, slot⟩ := by
  induction reads with
  | done => nofun
  | page fetched _ ih =>
    obtain ⟨agrees', verbatim', whole, own, rows⟩ := seen_of_fetch agrees verbatim fetched
    intro page listed
    rcases List.mem_cons.mp listed with rfl | listed
    · rw [own]
      exact ⟨whole, rows⟩
    · exact ih agrees' verbatim' page listed

end Database

/-! ### Scans as actions -/

def Action.scan? : Action → Option Scan
  | .hasMore scan => some scan
  | .step scan => some scan
  | .collect scan => some scan
  | _ => none

def Reply.scan? : Reply → Option Scan
  | .more _ scan => some scan
  | .next _ scan => some scan
  | .rows _ scan => some scan
  | _ => none

def Reply.yielded : Reply → List Tuple
  | .next result _ => (result.bind Except.toOption).toList
  | .rows results _ => Scan.rows results
  | _ => []

namespace Database

/-- Every action about a scan is a turn of it. -/
theorem turn_perform {db : Database} {action : Action} {s : Scan} (about : action.scan? = some s) :
    ∃ s' : Scan, (db.perform action).1.scan? = some s' ∧
      s.Turn db (db.perform action).1.yielded s' (db.perform action).2 := by
  cases action with
  | hasMore scan =>
    cases about
    exact ⟨_, rfl, (s.turn_hasMore db).1⟩
  | step scan =>
    cases about
    exact ⟨_, rfl, s.turn_step db⟩
  | collect scan =>
    cases about
    exact ⟨_, rfl, s.turn_collect db⟩
  | _ => cases about

end Database

theorem Run.verbatim {start db : Database} {trace : List (Action × Reply)}
    (run : Run Ordinary.Short start trace db) (sound : start.Sound) (verbatim : start.Verbatim) :
    db.Verbatim := by
  induction run using Run.inductionOn with
  | first => exact verbatim
  | next earlier _ fits short ih => exact ih.step (earlier.sound sound) fits short

theorem Prepared.verbatim {settings : Settings} {volume : Volume} {start : Database}
    (h : Prepared settings volume start) : start.Verbatim := by
  intro page frame cached
  rw [h.uncached] at cached
  cases cached

theorem Insertion.Goes.along_eq {first i : Insertion} {trace : List (Action × Reply)}
    (goes : first.Goes trace i) : Ledger.along trace = .empty := by
  induction goes with
  | start => rfl
  | turn _ ih =>
    rw [Ledger.along_concat, ih]
    rfl

theorem contents_overMarks {content : Content} (inside : 0 < content.length)
    (set : content.byte 0 = 0xff ∨ content.byte 0 = 1) :
    (Database.overMarks content).contents ⟨⟨0, 0⟩, 0⟩ = some [] := by
  obtain ⟨p, read, row⟩ : ∃ p, Page.ofImage ⟨0, 0⟩ ⟨[]⟩ [content.byte 0] = .ok p ∧ p.row? 0 = some [] := by
    rcases set with same | same <;> rw [same] <;> exact ⟨_, rfl, rfl⟩
  exact (Database.contents_of_load ((Database.load_overMarks content inside).trans read) 0).trans row

theorem contents_allMarks : (Database.overMarks Database.allMarks).contents ⟨⟨0, 0⟩, 0⟩ = some [] := by
  have inside : 0 < Database.allMarks.length := by
    rw [Database.length_allMarks]
    decide
  exact contents_overMarks inside (.inl (Database.byte_allMarks inside))

theorem Prepared.short_insertion (txn : TxnId) (number : Int32) :
    (insertion txn number).Short := by
  intro content listed
  simp at listed

private def sharedSample : Database :=
  (((Prepared.sample.perform (Prepared.insertion 1 7)).2.perform
    (.complete 1 true [⟨0, 0⟩])).2.perform (Prepared.insertion 2 8)).2

end PagedStore
