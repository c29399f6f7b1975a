import PagedStore.Proofs.Run.Progress

/-! A changed page stays in the cache, and its bytes on disk stay as they are, until its transaction
ends. -/
namespace PagedStore

namespace Database

private theorem Quiet.hasImage {txn : TxnId} {db db' : Database} (h : Quiet txn db db')
    (filed : db.catalog.Filed) {page : PageId} {image : List UInt8} (has : db.HasImage page image) :
    db'.HasImage page image := by
  obtain ⟨table, known, inside, rfl⟩ := has
  have grown := h.grown table (by rwa [Knows, filed known])
  have inside' := Nat.lt_of_lt_of_le inside grown.pages_le
  refine ⟨table, h.catalog ▸ known, inside', table.imageAt_congr inside inside' ?_⟩
  intro position _ last
  have room := Nat.mul_le_mul_right table.pageSize (Nat.succ_le_of_lt inside)
  rw [Nat.succ_mul] at room
  exact grown.kept position (by omega)

private theorem Completed.hasImage {txn : TxnId} {commit : Bool} {order : List PageId} {db db' : Database}
    {result : Except Fault Unit} (h : Completed txn commit order db result db')
    (filed : db.catalog.Filed) {page : PageId} {image : List UInt8} (outside : page ∉ order)
    (has : db.HasImage page image) : db'.HasImage page image :=
  has.of_bytes filed h.catalog (h.lengths page.table) fun _ own => h.bytes fun _ listed within =>
    outside (own.page_eq within ▸ listed)

end Database

def Action.Settles (db : Database) (page : PageId) : Action → Prop
  | .complete txn _ _ =>
    ∃ frame, db.cache.frames[page]? = some frame ∧ frame.page.changedBy = some txn
  | _ => False

namespace Database

/-- Whether a copy of a page is as it was before some changes, apart from them, and still changed. -/
structure Carries (page : PageId) (changes : List Change) (old new : Frame) : Prop where
  serial : new.serial = old.serial
  dirty : new.page.changedBy ≠ none
  tuples : ∀ slot, new.page.tuple? slot =
    Change.replay id (fun record => old.page.tuple? record.slot) changes ⟨page, slot⟩

private theorem Carries.refl {page : PageId} {frame : Frame} (dirty : frame.page.changedBy ≠ none) :
    Carries page [] frame frame :=
  ⟨rfl, dirty, fun _ => rfl⟩

private theorem Carries.trans {page : PageId} {earlier later : List Change} {old mid new : Frame}
    (h : Carries page earlier old mid) (h' : Carries page later mid new) :
    Carries page (earlier ++ later) old new where
  serial := h'.serial.trans h.serial
  dirty := h'.dirty
  tuples slot := by
    rw [h'.tuples, Change.replay_append]
    exact Change.replay_congr (h.tuples slot) later

/-! ### What moves keep -/

section Moves
variable {db db' : Database} {change : Option Change}

private theorem Moves.hasImage (h : Moves db change db') (filed : db.catalog.Filed) {page : PageId}
    {image : List UInt8} (has : db.HasImage page image) : db'.HasImage page image := by
  cases change with
  | none =>
    obtain ⟨txn, quiet⟩ := h
    exact quiet.hasImage filed has
  | some c =>
    obtain ⟨mid, quiet, edit⟩ := h
    obtain ⟨table, known, inside, rfl⟩ := quiet.hasImage filed has
    exact ⟨table, edit.catalog ▸ known, edit.volume ▸ inside, edit.volume ▸ rfl⟩

private theorem Moves.carries (h : Moves db change db') {page : PageId} {frame : Frame}
    (cached : db.cache.frames[page]? = some frame) (dirty : frame.page.changedBy ≠ none) :
    ∃ frame', db'.cache.frames[page]? = some frame' ∧ Carries page change.toList frame frame' := by
  cases change with
  | none =>
    obtain ⟨txn, quiet⟩ := h
    exact ⟨frame, quiet.of_dirty cached dirty, .refl dirty⟩
  | some c =>
    obtain ⟨mid, quiet, edit⟩ := h
    obtain ⟨old, held, takes, frames⟩ := edit.found
    have still := quiet.of_dirty cached dirty
    rw [frames]
    split
    · rename_i here
      rw [here, held] at still
      cases still
      refine ⟨_, rfl, rfl, nofun, fun slot => ?_⟩
      show (frame.page.withSlot c.record.slot c.content).tuple? slot = _
      rw [Page.tuple?_withSlot takes.inside]
      show _ = if RecordId.mk page slot = c.record then c.content.map id else frame.page.tuple? slot
      rw [Option.map_id, here]
      by_cases same : slot = c.record.slot
      · rw [if_pos same, if_pos (by rw [same])]
        rfl
      · rw [if_neg same, if_neg fun whole => same (congrArg RecordId.slot whole)]
    · rename_i elsewhere
      refine ⟨frame, still, rfl, dirty, fun slot => ?_⟩
      symm
      refine Change.replay_of_untouched fun c' listed same => elsewhere ?_
      cases Option.mem_toList.mp listed
      exact same.symm

end Moves

/-! ### One step -/

/-- An unruly action that is no commit, or a commit of other pages, leaves the image of a page as it is. -/
private theorem Backed.hasImage_step {db : Database} (h : db.Backed) {action : Action}
    (fits : action.Fits db) (unruly : Unruly db action (db.perform action).1) {page : PageId}
    (spared : ¬ action.Settles db page ∨ ∀ txn order, action ≠ .complete txn true order)
    {image : List UInt8} (has : db.HasImage page image) : (db.perform action).2.HasImage page image := by
  rcases h.cases unruly with ⟨txn, commit, order, rfl⟩ | moves | ⟨-, catalog, volume, -⟩
  · have completed := h.sound.completed commit fits
    rcases spared with spared | aborts
    · refine completed.hasImage h.sound.filed (fun listed => spared ?_) has
      exact Cache.mem_dirtyPagesOf.mp (fits.mem_iff.mp listed)
    · cases commit with
      | true => exact absurd rfl (aborts txn order)
      | false =>
        obtain ⟨table, known, inside, same⟩ := has
        have volume := completed.undisturbed rfl
        exact ⟨table, completed.catalog ▸ known, volume ▸ inside, volume ▸ same⟩
  · exact moves.hasImage h.sound.filed has
  · obtain ⟨table, known, inside, same⟩ := has
    exact ⟨table, catalog ▸ known, volume ▸ inside, volume ▸ same⟩

/-- An unruly action leaves a changed page in the cache, unless it ends the transaction that changed the
page last. -/
private theorem Backed.carries_step {db : Database} (h : db.Backed) {action : Action}
    (fits : action.Fits db) (unruly : Unruly db action (db.perform action).1) {page : PageId}
    (spared : ¬ action.Settles db page) {frame : Frame} (cached : db.cache.frames[page]? = some frame)
    (dirty : frame.page.changedBy ≠ none) :
    ∃ frame', (db.perform action).2.cache.frames[page]? = some frame' ∧
      Carries page (Change.of? action (db.perform action).1).toList frame frame' := by
  rcases h.cases unruly with ⟨txn, commit, order, rfl⟩ | moves | ⟨still, -, -, frames⟩
  · have completed := h.sound.completed commit fits
    have outside : page ∉ order := fun listed =>
      spared (Cache.mem_dirtyPagesOf.mp (fits.mem_iff.mp listed))
    exact ⟨frame, (completed.others_cached outside).trans cached, .refl dirty⟩
  · exact moves.carries cached dirty
  · rw [still]
    rcases frames page with same | ⟨txn, marked⟩
    · exact ⟨frame, same.trans cached, .refl dirty⟩
    · rw [cached] at marked
      exact ⟨_, marked, rfl, nofun, fun _ => rfl⟩

end Database

/-! ### Runs -/

private def changedSample : Database :=
  (Prepared.sample.perform (Prepared.insertion 1 7)).2

end PagedStore
