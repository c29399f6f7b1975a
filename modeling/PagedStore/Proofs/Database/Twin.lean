import PagedStore.Proofs.Database.Faults
import PagedStore.Proofs.Database.Quiet
import PagedStore.Proofs.Page.Nameless
import PagedStore.Proofs.Run

/-! Two databases that differ in nothing but which clean pages they have cached, and that answer alike
for that. -/
namespace PagedStore.Database

def changed? (db : Database) (page : PageId) : Option Page :=
  ((db.cache.page? page).filter Page.isDirty).map Page.nameless

def Echoes (db : Database) : Prop :=
  ∀ ⦃page : PageId⦄ ⦃frame : Frame⦄, db.cache.frames[page]? = some frame →
    frame.page.changedBy = none → ∃ p, db.load page = .ok p ∧ p.nameless = frame.page.nameless

/-- The page that a transaction gets when it fetches it, apart from the names of columns. -/
def shows (db : Database) (page : PageId) : Except Fault Page :=
  match db.changed? page with
  | some p => .ok p
  | none => (db.load page).map Page.nameless

section Changed
variable {db : Database} {page : PageId} {frame : Frame}

theorem changed?_of_cached (cached : db.cache.frames[page]? = some frame) :
    db.changed? page = if frame.page.isDirty then some frame.page.nameless else none := by
  rw [changed?, Cache.page?, cached, Option.map_some, Option.filter_some]
  split <;> rfl

theorem changed?_of_absent (absent : db.cache.frames[page]? = none) : db.changed? page = none := by
  rw [changed?, Cache.page?, absent]
  rfl

theorem changed?_congr {db' : Database} (same : db'.cache.frames[page]? = db.cache.frames[page]?) :
    db'.changed? page = db.changed? page := by
  rw [changed?, changed?, Cache.page?, Cache.page?, same]

theorem shows_of_cached (echoes : db.Echoes) (cached : db.cache.frames[page]? = some frame) :
    db.shows page = .ok frame.page.nameless := by
  rw [shows, changed?_of_cached cached]
  cases changed : frame.page.changedBy with
  | some writer => rw [Page.isDirty, changed, Option.isSome_some, if_pos rfl]
  | none =>
    obtain ⟨p, loaded, same⟩ := echoes cached changed
    rw [Page.isDirty, changed, Option.isSome_none, if_neg Bool.false_ne_true, loaded]
    exact congrArg Except.ok same

theorem shows_of_absent (absent : db.cache.frames[page]? = none) :
    db.shows page = (db.load page).map Page.nameless := by
  rw [shows, changed?_of_absent absent]

theorem Echoes.of_uncached (absent : ∀ page : PageId, db.cache.frames[page]? = none) : db.Echoes := by
  intro page frame cached
  rw [absent] at cached
  cases cached

end Changed

/-! ### What stays while pages come and go -/

section Quiet
variable {txn : TxnId} {db db' : Database}

theorem Quiet.changed?_eq (h : Quiet txn db db') (page : PageId) :
    db'.changed? page = db.changed? page := by
  rcases h.frames page with same | ⟨clean, loaded⟩
  · exact changed?_congr same
  · have none_here {db : Database} (clean : ∀ frame, db.cache.frames[page]? = some frame →
        frame.page.changedBy = none) : db.changed? page = none := by
      cases cached : db.cache.frames[page]? with
      | none => exact changed?_of_absent cached
      | some frame =>
        rw [changed?_of_cached cached, Page.isDirty, clean frame cached]
        rfl
    rw [none_here clean, none_here fun frame cached => (shown_of_load (loaded frame cached)).2]

theorem Echoes.quiet (h : db.Echoes) (quiet : Quiet txn db db') : db'.Echoes := by
  intro page frame cached clean
  rcases quiet.frames page with same | ⟨-, loaded⟩
  · obtain ⟨p, read, kept⟩ := h (same ▸ cached) clean
    exact ⟨p, quiet.load_of_ok read, kept⟩
  · exact ⟨frame.page, loaded frame cached, rfl⟩

end Quiet

/-- Whether two databases are alike but for the clean pages cached and the names of columns. -/
structure Twins (db db' : Database) : Prop where
  sound : db.Sound
  sound' : db'.Sound
  policy : db'.settings.policy = db.settings.policy
  catalog : db'.catalog = db.catalog
  locks : db'.locks = db.locks
  nextTxn : db'.nextTxn = db.nextTxn
  content : ∀ file, db'.volume.content file = db.volume.content file
  changed : ∀ page, db'.changed? page = db.changed? page
  echoes : db.Echoes
  echoes' : db'.Echoes

namespace Twins
variable {db db' : Database} (h : Twins db db')
include h

private theorem load_eq (page : PageId) : db'.load page = db.load page := by
  simp only [load, h.catalog, Table.load, Table.file, h.content]

theorem pages_eq (table : Table) : table.pages db'.volume = table.pages db.volume := by
  rw [Table.pages_eq, Table.pages_eq, h.content]

theorem shows_eq (page : PageId) : db'.shows page = db.shows page := by
  rw [shows, shows, h.changed, h.load_eq]

theorem knows_iff {table : Table} : db'.Knows table ↔ db.Knows table := by
  rw [Knows, Knows, h.catalog]

/-- Transactions may go from page to page in both if they take the same locks. -/
theorem quiet {txn : TxnId} {mid mid' : Database} (quiet : Quiet txn db mid)
    (quiet' : Quiet txn db' mid') (locks : mid'.locks = mid.locks) (nextTxn : mid'.nextTxn = mid.nextTxn)
    (content : ∀ file, mid'.volume.content file = mid.volume.content file) : Twins mid mid' where
  sound := h.sound.of_quiet quiet
  sound' := h.sound'.of_quiet quiet'
  policy := by rw [quiet'.settings, quiet.settings, h.policy]
  catalog := by rw [quiet'.catalog, quiet.catalog, h.catalog]
  locks := locks
  nextTxn := nextTxn
  content := content
  changed page := by rw [quiet'.changed?_eq, quiet.changed?_eq, h.changed]
  echoes := h.echoes.quiet quiet
  echoes' := h.echoes'.quiet quiet'

theorem relock {locks : Locks} (sound : locks.Sound) : Twins { db with locks } { db' with locks } where
  sound := ⟨h.sound.keyed, h.sound.filed, sound⟩
  sound' := ⟨h.sound'.keyed, h.sound'.filed, sound⟩
  policy := h.policy
  catalog := h.catalog
  locks := rfl
  nextTxn := h.nextTxn
  content := h.content
  changed := h.changed
  echoes := h.echoes
  echoes' := h.echoes'

theorem release {txn : TxnId} (page : PageId) :
    Twins (db.releasePage txn page) (db'.releasePage txn page) := by
  rw [releasePage, releasePage, h.locks]
  exact h.relock (h.sound.locks.release txn page)

theorem tryLock (txn : TxnId) (page : PageId) (mode : LockMode) :
    (db'.tryLock txn page mode).1 = (db.tryLock txn page mode).1 ∧
      Twins (db.tryLock txn page mode).2 (db'.tryLock txn page mode).2 := by
  simp only [Database.tryLock, h.locks, true_and]
  exact h.relock ((db.locks.onward_request txn page mode).sound h.sound.locks)

theorem giveUp (txn : TxnId) : (db'.giveUp txn).1 = (db.giveUp txn).1 ∧
    Twins (db.giveUp txn).2 (db'.giveUp txn).2 := by
  simp only [Database.giveUp, h.locks, h.policy, true_and]
  exact h.relock (h.sound.locks.stopWaiting txn)

end Twins

/-! ### Outcomes -/

def Roomy {α : Type} (result : Except Fault α) : Prop :=
  ∀ fault, result = .error fault → ¬ fault.noRoom

theorem roomy_ok {α : Type} (a : α) : Roomy (.ok a) := by
  intro fault failed
  cases failed

theorem roomy_error_iff {α : Type} {fault : Fault} :
    Roomy (.error fault : Except Fault α) ↔ ¬ fault.noRoom := by
  refine ⟨fun roomy => roomy fault rfl, fun room cause failed => ?_⟩
  cases failed
  exact room

instance {α : Type} : DecidablePred fun result : Except Fault α => Roomy result
  | .ok a => isTrue (roomy_ok a)
  | .error _ => decidable_of_iff _ roomy_error_iff.symm

def andThen {α β : Type} (outcome : Except Fault α × Database)
    (next : α → Database → Except Fault β × Database) : Except Fault β × Database :=
  match outcome with
  | (.error fault, db) => (.error fault, db)
  | (.ok a, db) => next a db

/-- Whether two outcomes are the same to see and leave twins, unless there was no room in a cache. -/
def Matches {α β : Type} (see : α → β) (outcome outcome' : Except Fault α × Database) : Prop :=
  Roomy outcome.1 → Roomy outcome'.1 →
    outcome'.1.map see = outcome.1.map see ∧ Twins outcome.2 outcome'.2

namespace Matches
variable {α β γ δ : Type} {see : α → β} {see' : γ → δ} {outcome outcome' : Except Fault α × Database}

theorem of_twins {db db' : Database} (twins : Twins db db') (result : Except Fault α) :
    Matches see (result, db) (result, db') :=
  fun _ _ => ⟨rfl, twins⟩

/-- Both have the same fault, or return what is the same to see. -/
theorem cases (h : Matches see outcome outcome') (roomy : Roomy outcome.1) (roomy' : Roomy outcome'.1) :
    (∃ fault mid mid', outcome = (.error fault, mid) ∧ outcome' = (.error fault, mid') ∧
      Twins mid mid') ∨
    ∃ a a' mid mid', outcome = (.ok a, mid) ∧ outcome' = (.ok a', mid') ∧ see a' = see a ∧
      Twins mid mid' := by
  obtain ⟨same, twins⟩ := h roomy roomy'
  obtain ⟨fault | a, mid⟩ := outcome
  · obtain ⟨fault' | a', mid'⟩ := outcome'
    · cases same
      exact .inl ⟨fault, mid, mid', rfl, rfl, twins⟩
    · cases same
  · obtain ⟨fault' | a', mid'⟩ := outcome'
    · cases same
    · exact .inr ⟨a, a', mid, mid', rfl, rfl, Except.ok.inj same, twins⟩

/-- What goes on alike after outcomes that match comes to outcomes that match. -/
theorem andThen (h : Matches see outcome outcome')
    {next next' : α → Database → Except Fault γ × Database}
    (goes_on : ∀ {a a' mid mid'}, outcome = (.ok a, mid) → outcome' = (.ok a', mid') → see a' = see a →
      Twins mid mid' → Matches see' (next a mid) (next' a' mid')) :
    Matches see' (Database.andThen outcome next) (Database.andThen outcome' next') := by
  intro roomy roomy'
  have before {outcome : Except Fault α × Database}
      {next : α → Database → Except Fault γ × Database}
      (roomy : Roomy (Database.andThen outcome next).1) : Roomy outcome.1 := by
    obtain ⟨fault | a, mid⟩ := outcome
    · exact roomy_error_iff.mpr (roomy_error_iff.mp roomy)
    · exact roomy_ok a
  rcases h.cases (before roomy) (before roomy') with
    ⟨fault, mid, mid', rfl, rfl, twins⟩ | ⟨a, a', mid, mid', rfl, rfl, same, twins⟩
  · exact ⟨rfl, twins⟩
  · exact goes_on rfl rfl same twins roomy roomy'

end Matches

/-! ### Fetching -/

private theorem fetch_eq_lock (db : Database) (txn : TxnId) (page : PageId) (access : Access) :
    ∃ cache, (db.fetch txn page access).2 =
      { (db.lock txn page access.mode).2 with cache := cache } := by
  rw [fetch]
  split
  · rename_i he
    rw [he]
    exact ⟨_, rfl⟩
  · rename_i he
    rw [he, provide]
    split
    · exact ⟨_, rfl⟩
    · split
      · exact ⟨_, rfl⟩
      · exact ⟨_, rfl⟩

/-- What a fetch returns that gets the lock and finds room is what is to be shown. -/
private theorem fetch_shows {db : Database} (echoes : db.Echoes) {txn : TxnId} {page : PageId} {access : Access}
    (granted : (db.lock txn page access.mode).1 = .ok ()) (roomy : Roomy (db.fetch txn page access).1) :
    (db.fetch txn page access).1.map (fun frame => frame.page.nameless) = db.shows page := by
  rcases db.fetch_cases txn page access with
    ⟨denied, -⟩ | ⟨-, ⟨frame, cached, he⟩ | ⟨absent, ⟨fault, unread, he⟩ | ⟨content, loaded, he⟩⟩⟩
  · rcases db.lock_cases txn page access.mode with ⟨taken, -⟩ | ⟨-, fault, -, he⟩
    · rw [denied] at taken
      cases taken
    · rw [he] at granted
      cases granted
  · rw [he, shows_of_cached echoes cached]
    rfl
  · rw [he, shows_of_absent absent, unread]
    rfl
  · rw [he] at roomy ⊢
    rw [shows_of_absent absent, loaded]
    rcases db.cache.bringIn_cases content with ⟨full, -⟩ | ⟨frame, brought, same, -⟩
    · exact absurd rfl (roomy _ full)
    · simp only [brought, same, Except.map]

namespace Twins
variable {db db' : Database} (h : Twins db db')
include h

private theorem lock_eq (txn : TxnId) (page : PageId) (mode : LockMode) :
    (db'.lock txn page mode).1 = (db.lock txn page mode).1 ∧
      (db'.lock txn page mode).2.locks = (db.lock txn page mode).2.locks ∧
      (db.lock txn page mode).2.nextTxn = db.nextTxn ∧
      (db'.lock txn page mode).2.nextTxn = db'.nextTxn := by
  cases asked : db.locks.request txn page mode with
  | mk granted locks =>
    cases granted with
    | true => simp only [lock, Database.tryLock, h.locks, asked, and_self]
    | false => simp only [lock, Database.tryLock, Database.giveUp, h.locks, h.policy, asked, and_self]

theorem fetch (txn : TxnId) (page : PageId) (access : Access) :
    Matches (fun frame => frame.page.nameless) (db.fetch txn page access)
      (db'.fetch txn page access) := by
  intro roomy roomy'
  obtain ⟨denial, locks, next, next'⟩ := h.lock_eq txn page access.mode
  obtain ⟨cache, he⟩ := db.fetch_eq_lock txn page access
  obtain ⟨cache', he'⟩ := db'.fetch_eq_lock txn page access
  constructor
  · cases result : (db.lock txn page access.mode).1 with
    | error fault =>
      have failed {db : Database} (refused : (db.lock txn page access.mode).1 = .error fault) :
          (db.fetch txn page access).1 = .error fault := by
        cases he : db.lock txn page access.mode with
        | mk result mid =>
          rw [he] at refused
          cases refused
          simp only [Database.fetch, he]
      rw [failed result, failed (denial.trans result)]
    | ok done =>
      rw [fetch_shows h.echoes result roomy, fetch_shows h.echoes' (denial.trans result) roomy',
        h.shows_eq]
  · refine h.quiet (db.quiet_fetch txn page access) (db'.quiet_fetch txn page access) ?_ ?_ fun file => ?_
    · rw [he, he']
      exact locks
    · rw [he, he']
      exact next'.trans (h.nextTxn.trans next.symm)
    · rw [volume_fetch, volume_fetch, h.content]

end Twins

/-! ### Changing a page -/

section Modify
variable {db : Database} {page : PageId} {frame : Frame} {p : Page} {txn : TxnId}

def replaced (db : Database) (page : PageId) (p : Page) (txn : TxnId) : Database :=
  { db with cache := db.cache.modify page fun _ => p.changed txn }

private theorem changed?_replaced (cached : db.cache.frames[page]? = some frame) (other : PageId) :
    (db.replaced page p txn).changed? other =
      if other = page then some (p.changed txn).nameless else db.changed? other := by
  have frames := db.cache.frames_modify page (fun _ => p.changed txn) other
  by_cases here : other = page
  · subst here
    rw [if_pos rfl, cached] at frames
    have held : (db.replaced other p txn).cache.frames[other]? =
      some { frame with page := p.changed txn } := frames
    rw [if_pos rfl, changed?_of_cached held]
    rfl
  · rw [if_neg here] at frames ⊢
    exact changed?_congr frames

private theorem Echoes.replaced (h : db.Echoes) : (db.replaced page p txn).Echoes := by
  intro other found cached clean
  rw [Database.replaced, Cache.frames_modify] at cached
  split at cached
  · obtain ⟨old, -, rfl⟩ := Option.map_eq_some_iff.mp cached
    cases clean
  · exact h cached clean

private theorem Sound.replaced (h : db.Sound) (own : p.id = page) : (db.replaced page p txn).Sound :=
  ⟨keyed_modify h.keyed fun _ _ => own, h.filed, h.locks⟩

theorem Twins.replaced {db' : Database} (h : Twins db db') {p' : Page} {frame' : Frame}
    (cached : db.cache.frames[page]? = some frame) (cached' : db'.cache.frames[page]? = some frame')
    (own : p.id = page) (same : p'.nameless = p.nameless) :
    Twins (db.replaced page p txn) (db'.replaced page p' txn) where
  sound := h.sound.replaced own
  sound' := h.sound'.replaced ((Page.id_congr same).trans own)
  policy := h.policy
  catalog := h.catalog
  locks := h.locks
  nextTxn := h.nextTxn
  content := h.content
  changed other := by
    have marked : (p'.changed txn).nameless = (p.changed txn).nameless :=
      congrArg (Page.changed · txn) same
    rw [changed?_replaced cached, changed?_replaced cached', h.changed, marked]
  echoes := h.echoes.replaced
  echoes' := h.echoes'.replaced

end Modify

end PagedStore.Database
