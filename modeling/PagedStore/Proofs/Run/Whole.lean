import PagedStore.Proofs.Run.Mirror

/-! Cached pages are always in order: their tuples have the types of the schema and know where they are. -/
namespace PagedStore

namespace Database

def Whole (db : Database) : Prop :=
  ∀ ⦃page : PageId⦄ ⦃frame : Frame⦄, db.cache.frames[page]? = some frame → frame.page.Sound

namespace Whole
variable {db db' : Database}

private theorem of_frames (h : db.Whole)
    (frames : ∀ {page : PageId} {frame : Frame}, db'.cache.frames[page]? = some frame →
      frame.page.Sound ∨ ∃ old, db.cache.frames[page]? = some old ∧
        (old.page.Sound → frame.page.Sound)) : db'.Whole := by
  intro page frame cached
  rcases frames cached with sound | ⟨old, held, keeps⟩
  · exact sound
  · exact keeps (h held)

private theorem fetch (h : db.Whole) (txn : TxnId) (page : PageId) (access : Access) :
    (db.fetch txn page access).2.Whole := by
  refine h.of_frames fun {id frame} cached => ?_
  rcases (db.quiet_fetch txn page access).frames id with same | ⟨-, loaded⟩
  · exact .inr ⟨frame, same ▸ cached, fun sound => sound⟩
  · exact .inl (kept_of_load (loaded frame cached)).1

theorem approach {grows : Table → Volume → Prop} {txn : TxnId} (h : db.Whole)
    (way : Approach grows txn db db') : db'.Whole := by
  induction way with
  | still => exact h
  | fetch page access _ ih => exact ih.fetch txn page access
  | visit page access _ _ ih => exact ih.fetch txn page access
  | append _ _ _ ih => exact ih
  | wait _ _ ih => exact ih

private theorem attempt {grows : Table → Volume → Prop} {txn : TxnId}
    {content : RecordId → Option Tuple} {done : Option RecordId} (h : db.Whole)
    (attempt : Attempt grows txn content db done db')
    (typed : ∀ record tuple, content record = some tuple → tuple.IsTyped) : db'.Whole := by
  obtain ⟨mid, way, edit⟩ := attempt
  cases done with
  | none => exact edit ▸ h.approach way
  | some record =>
    refine (h.approach way).of_frames fun {page frame} cached => .inr ?_
    rcases edit.cached_cases cached with ⟨-, before⟩ | ⟨old, rfl, held, takes, rfl⟩
    · exact ⟨frame, before, fun sound => sound⟩
    · exact ⟨old, held, fun sound => (sound.withSlot takes (typed record)).changed txn⟩

private theorem dropPage (h : db.Whole) (page : PageId) : (db.dropPage page).Whole := by
  refine h.of_frames fun {id frame} cached => .inr ⟨frame, ?_, fun sound => sound⟩
  rw [Database.dropPage, Cache.frames_drop] at cached
  split at cached
  · cases cached
  · exact cached

private theorem writeOut (h : db.Whole) (page : PageId) : (db.writeOut page).2.Whole := by
  rw [Database.writeOut]
  split
  · exact h
  · split
    · exact h
    · refine h.of_frames fun {id frame} cached => .inr ?_
      rw [Cache.frames_unpin, Cache.frames_modify] at cached
      split at cached
      · obtain ⟨old, held, rfl⟩ := Option.map_eq_some_iff.mp cached
        exact ⟨old, held, fun sound => sound.cleaned⟩
      · exact ⟨frame, cached, fun sound => sound⟩

private theorem commitPage (h : db.Whole) (page : PageId) : (db.commitPage page).2.Whole :=
  kept_commitPage (h.writeOut page) fun written => written.dropPage page

private theorem revertPage (h : db.Whole) (page : PageId) : (db.revertPage page).2.Whole := by
  rcases db.revertPage_cases page with ⟨p, loaded, he⟩ | ⟨fault, -, he⟩
  · rw [he]
    refine h.of_frames fun {id frame} cached => ?_
    rw [Cache.frames_unpin, Cache.frames_modify] at cached
    split at cached
    · obtain ⟨old, held, rfl⟩ := Option.map_eq_some_iff.mp cached
      exact .inl (kept_of_load loaded).1
    · exact .inr ⟨frame, cached, fun sound => sound⟩
  · rw [he]
    exact h.dropPage page

private theorem completeIn (h : db.Whole) (txn : TxnId) (commit : Bool) (pages : List PageId) :
    (db.completeIn txn commit pages).2.Whole := by
  cases commit with
  | true => exact kept_forEachPage (motive := Whole) (fun page h => h.commitPage page) h pages
  | false => exact kept_forEachPage (motive := Whole) (fun page h => h.revertPage page) h pages

private theorem modifyHeld (h : db.Whole) (handle : Handle) {change : Page → Page}
    (keeps : ∀ {p : Page}, p.Sound → (change p).Sound) :
    Whole { db with cache := db.cache.modifyHeld handle change } := by
  refine h.of_frames fun {id frame} cached => .inr ?_
  rw [Cache.frames_modifyHeld] at cached
  split at cached
  · obtain ⟨old, held, rfl⟩ := Option.map_eq_some_iff.mp cached
    exact ⟨old, held, keeps⟩
  · exact ⟨frame, cached, fun sound => sound⟩

end Whole

end Database

/-- Whatever can be asked of a database, where pages are altered to pages in order only. -/
def Wholesome (_ : Database) (action : Action) (_ : Reply) : Prop :=
  match action with
  | .alter _ page => page.Sound
  | _ => True

namespace Database
variable {db : Database}

/-- Whatever is asked of a database, or happens to it, leaves its cached pages in order. -/
private theorem Whole.perform (h : db.Whole) (sound : db.Sound) {action : Action} (fits : action.Fits db)
    (may : Wholesome db action (db.perform action).1) : (db.perform action).2.Whole := by
  have typed {tuple : Tuple} (fits : tuple.IsTyped) (record : RecordId) (placed : Tuple)
      (same : asRecord tuple record = some placed) : placed.IsTyped := by
    cases same
    exact fits
  have none_put (record : RecordId) (placed : Tuple) (same : none = some placed) : placed.IsTyped := by
    cases same
  cases action with
  | fetch txn page access => exact h.fetch txn page access
  | insert txn table tuple =>
    exact h.attempt (attempt_insert (fun _ _ => True) txn tuple sound.keyed table
      fun _ _ _ _ => trivial) (typed fits)
  | delete txn record => exact h.attempt (attempt_delete (fun _ _ => True) db txn record sound.keyed) none_put
  | advance i =>
    exact h.attempt (attempt_takeTurn (fun _ _ => True) sound.keyed i fun _ => trivial) (typed fits)
  | hasMore scan => exact h.approach ((scan.turn_hasMore db).1.approach fun _ _ => True)
  | step scan => exact h.approach ((scan.turn_step db).approach fun _ _ => True)
  | collect scan => exact h.approach ((scan.turn_collect db).approach fun _ _ => True)
  | complete txn commit order => exact h.completeIn txn commit order
  | insertInto table txn tuple =>
    exact h.attempt (attempt_insertInto (fun _ _ => True) txn tuple sound.keyed fun _ _ => trivial)
      (typed fits)
  | deleteFrom table txn record =>
    exact h.attempt (attempt_deleteFrom (fun _ _ => True) db txn record table) none_put
  | mark handle txn => exact h.modifyHeld handle fun sound => sound.changed txn
  | alter handle page => exact h.modifyHeld handle fun _ => may
  | drop page => exact h.dropPage page
  | flush page =>
    simp only [Database.perform, flush]
    split
    · exact h.writeOut page
    · exact h
  | flushTxn txn order =>
    exact kept_forEachPage (motive := Whole) (fun page h => h.commitPage page) h order
  | flushAll order => exact kept_writeOutAll (motive := Whole) (fun page h => h.writeOut page) h order
  | openTable place schema pageSize =>
    intro page frame cached
    exact h (db.cache_openTable place schema pageSize ▸ cached)
  | attachTable place schema pageSize name primaryKey =>
    intro page frame cached
    exact h (db.cache_attachTable place schema pageSize name primaryKey ▸ cached)
  | loadLoose table page =>
    simp only [Database.perform, loadLoose]
    split <;> exact h
  | storeHeld table handle =>
    simp only [Database.perform]
    split
    · exact h
    · simp only [Database.storeHeld]
      split
      · exact h
      · exact h.modifyHeld handle fun sound => sound.cleaned
  | begin => exact h
  | attempt txn page mode => exact h
  | giveUp txn => exact h
  | release txn page => exact h
  | clearCatalog => exact h
  | append table => exact h
  | outside volume => exact h

theorem whole_ofVolume {settings : Settings} {volume : Volume}
    (opened : ofVolume settings volume = .ok db) : db.Whole := by
  rw [ofVolume] at opened
  split at opened
  · cases opened
  · cases opened
    intro id frame cached
    rw [Cache.frames_empty] at cached
    cases cached

end Database

theorem Run.whole {start db : Database} {trace : List (Action × Reply)}
    (run : Run Wholesome start trace db) (sound : start.Sound) (whole : start.Whole) : db.Whole := by
  induction run using Run.inductionOn with
  | first => exact whole
  | next earlier _ fits may ih => exact ih.perform (earlier.sound sound) fits may

namespace Prepared

def blank : Database :=
  ⟨{ pageSize := 16 }, .empty, .empty, .empty, .empty 50, 1, 0⟩

theorem ofVolume_blank : Database.ofVolume { pageSize := 16 } .empty = .ok blank :=
  rfl

private def registration : Action :=
  .attachTable (.file 0) ⟨[⟨.int, none⟩]⟩ 16 "numbers" ""

private def filling : Database :=
  [registration, insertion 1 7, insertion 1 8, insertion 1 9].foldl
    (fun db action => (db.perform action).2) blank

def filled : Database :=
  (filling.perform (.complete 1 true [⟨0, 0⟩])).2

theorem run_filled : ∃ trace, Run Wholesome blank trace filled := by
  have inserted : Run Wholesome blank _ filling :=
    (((Run.start.next registration trivial trivial).next (insertion 1 7) rfl trivial).next
      (insertion 1 8) rfl trivial).next (insertion 1 9) rfl trivial
  have listed : [PageId.mk 0 0].Perm (filling.cache.dirtyPagesOf 1) := by decide +kernel
  exact ⟨_, inserted.next (.complete 1 true [⟨0, 0⟩]) listed trivial⟩

end Prepared

end PagedStore
