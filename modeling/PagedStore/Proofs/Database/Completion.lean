import PagedStore.Database.Completion
import PagedStore.Proofs.Catalog
import PagedStore.Proofs.Database.Fetch

/-! What the end of a transaction does to the pages that it changed, and that it does nothing else. -/
namespace PagedStore.Database

/-! ### Pages in their files -/

def Within (db : Database) (page : PageId) (file : TableId) (position : Nat) : Prop :=
  file = page.table ∧ ∃ table, db.catalog.table page.table = .ok table ∧
    page.number * table.pageSize ≤ position ∧
    position < page.number * table.pageSize + table.pageSize

/-- No byte lies in two pages. -/
theorem Within.page_eq {db : Database} {page other : PageId} {file : TableId} {position : Nat}
    (h : db.Within page file position) (h' : db.Within other file position) : other = page := by
  obtain ⟨rfl, table, known, first, last⟩ := h
  obtain ⟨same, table', known', first', last'⟩ := h'
  obtain ⟨id, number⟩ := page
  obtain ⟨id', number'⟩ := other
  cases same
  rw [known] at known'
  cases known'
  refine congrArg (PageId.mk id) (Nat.le_antisymm ?_ ?_)
  · exact Nat.lt_succ_iff.mp (Nat.lt_of_mul_lt_mul_right (a := table.pageSize) (by
      rw [Nat.succ_mul]
      exact Nat.lt_of_le_of_lt first' last))
  · exact Nat.lt_succ_iff.mp (Nat.lt_of_mul_lt_mul_right (a := table.pageSize) (by
      rw [Nat.succ_mul]
      exact Nat.lt_of_le_of_lt first last'))

def HasImage (db : Database) (page : PageId) (image : List UInt8) : Prop :=
  ∃ table, db.catalog.table page.table = .ok table ∧ page.number < table.pages db.volume ∧
    table.imageAt db.volume page.number = image

/-- What a page is read as depends on its image only. -/
theorem HasImage.load_eq {db : Database} (filed : db.catalog.Filed) {page : PageId}
    {image : List UInt8} (h : db.HasImage page image) : ∃ table,
      db.catalog.table page.table = .ok table ∧ db.load page = Page.ofImage page table.schema image := by
  obtain ⟨table, known, inside, rfl⟩ := h
  refine ⟨table, known, ?_⟩
  rw [load, known]
  exact (table.load_eq db.volume (filed known).symm).trans (if_pos inside)

theorem HasImage.load_congr {db db' : Database} (filed : db.catalog.Filed) (catalog : db'.catalog = db.catalog)
    {page : PageId} {image : List UInt8} (h : db.HasImage page image) (h' : db'.HasImage page image) :
    db'.load page = db.load page := by
  obtain ⟨table, known, loaded⟩ := h.load_eq filed
  obtain ⟨table', known', loaded'⟩ := h'.load_eq (catalog ▸ filed)
  cases (catalog ▸ known').symm.trans known
  rw [loaded, loaded']

def OnDisk (db : Database) (page : PageId) : Prop :=
  ∃ table, db.catalog.table page.table = .ok table ∧ page.number < table.pages db.volume

instance (db : Database) : DecidablePred db.OnDisk := fun page =>
  decidable_of_iff ((db.catalog.table page.table).toOption.any fun table =>
      page.number < table.pages db.volume) <| by
    rw [OnDisk]
    cases db.catalog.table page.table <;> simp [Except.toOption]

theorem OnDisk.hasImage {db : Database} {page : PageId} (h : db.OnDisk page) :
    ∃ image, db.HasImage page image := by
  obtain ⟨table, known, inside⟩ := h
  exact ⟨_, table, known, inside, rfl⟩

theorem HasImage.onDisk {db : Database} {page : PageId} {image : List UInt8}
    (h : db.HasImage page image) : db.OnDisk page := by
  obtain ⟨table, known, inside, -⟩ := h
  exact ⟨table, known, inside⟩

theorem onDisk_of_load {db : Database} {page : PageId} {p : Page} (loaded : db.load page = .ok p) :
    db.OnDisk page := by
  obtain ⟨table, known, shown⟩ := load_eq_ok_iff.mp loaded
  exact ⟨table, known, (table.shown_of_load shown).1⟩

/-- A table keeps its pages where no file gets shorter. -/
theorem OnDisk.of_lengths {db db' : Database} {page : PageId} (h : db.OnDisk page)
    (catalog : db'.catalog = db.catalog)
    (lengths : ∀ file, (db.volume.content file).length ≤ (db'.volume.content file).length) :
    db'.OnDisk page := by
  obtain ⟨table, known, inside⟩ := h
  exact ⟨table, catalog ▸ known, Nat.lt_of_lt_of_le inside (Nat.div_le_div_right (lengths table.id))⟩

/-- A page keeps its image where its bytes stay. -/
theorem HasImage.of_bytes {db db' : Database} (filed : db.catalog.Filed) {page : PageId}
    {image : List UInt8} (h : db.HasImage page image) (catalog : db'.catalog = db.catalog)
    (length : (db.volume.content page.table).length ≤ (db'.volume.content page.table).length)
    (bytes : ∀ position, db.Within page page.table position →
      (db'.volume.content page.table).byte position = (db.volume.content page.table).byte position) :
    db'.HasImage page image := by
  obtain ⟨table, known, inside, rfl⟩ := h
  have own := filed known
  have more : table.pages db.volume ≤ table.pages db'.volume := by
    rw [Table.pages_eq, Table.pages_eq, own]
    exact Nat.div_le_div_right length
  refine ⟨table, catalog ▸ known, Nat.lt_of_lt_of_le inside more, ?_⟩
  apply table.imageAt_congr inside (Nat.lt_of_lt_of_le inside more)
  intro position first last
  rw [own]
  exact bytes position ⟨rfl, table, known, first, last⟩

/-- Whether only the given pages of known tables, in the cache or in their files, may differ. -/
structure Confined (pages : List PageId) (db db' : Database) : Prop where
  settings : db'.settings = db.settings
  catalog : db'.catalog = db.catalog
  locks : db'.locks = db.locks
  frames : ∀ id, id ∉ pages → db'.cache.frames[id]? = db.cache.frames[id]?
  bytes : ∀ {file position}, (∀ id ∈ pages, ¬ db.Within id file position) →
    (db'.volume.content file).byte position = (db.volume.content file).byte position
  lengths : ∀ file, (db.volume.content file).length ≤ (db'.volume.content file).length
  ends : ∀ file, (db'.volume.content file).length = (db.volume.content file).length ∨
    ∃ id ∈ pages, ∃ table, file = id.table ∧ db.catalog.table id.table = .ok table ∧
      (db'.volume.content file).length = id.number * table.pageSize + table.pageSize

namespace Confined
variable {pages : List PageId} {db mid db' : Database}

private theorem refl (pages : List PageId) (db : Database) : Confined pages db db :=
  ⟨rfl, rfl, rfl, fun _ _ => rfl, fun _ => rfl, fun _ => Nat.le_refl _, fun _ => .inl rfl⟩

private theorem trans (h : Confined pages db mid) (h' : Confined pages mid db') : Confined pages db db' where
  settings := h'.settings.trans h.settings
  catalog := h'.catalog.trans h.catalog
  locks := h'.locks.trans h.locks
  frames id outside := (h'.frames id outside).trans (h.frames id outside)
  bytes {file position} outside := by
    rw [h'.bytes, h.bytes outside]
    intro id listed within
    simp only [Within, h.catalog] at within
    exact outside id listed within
  lengths file := Nat.le_trans (h.lengths file) (h'.lengths file)
  ends file := by
    have later := h'.ends file
    rw [h.catalog] at later
    rcases later with same | written
    · rw [same]
      exact h.ends file
    · exact .inr written

private theorem mono {pages' : List PageId} (h : Confined pages db db')
    (more : ∀ id ∈ pages, id ∈ pages') : Confined pages' db db' where
  settings := h.settings
  catalog := h.catalog
  locks := h.locks
  frames id outside := h.frames id fun listed => outside (more id listed)
  bytes outside := h.bytes fun id listed => outside id (more id listed)
  lengths := h.lengths
  ends file := (h.ends file).imp_right fun ⟨id, listed, rest⟩ => ⟨id, more id listed, rest⟩

private theorem hasImage (h : Confined pages db db') (filed : db.catalog.Filed) {page : PageId}
    {image : List UInt8} (outside : page ∉ pages) (has : db.HasImage page image) :
    db'.HasImage page image :=
  has.of_bytes filed h.catalog (h.lengths page.table) fun _ own => h.bytes fun _ listed within =>
    outside (own.page_eq within ▸ listed)

/-- Other pages are read as before, if they could be read. -/
theorem load_of_ok (h : Confined pages db db') (filed : db.catalog.Filed) {page : PageId} {p : Page}
    (outside : page ∉ pages) (loaded : db.load page = .ok p) : db'.load page = .ok p := by
  obtain ⟨table, known, shown⟩ := load_eq_ok_iff.mp loaded
  have own := table.table_eq_of_load shown
  have kept := h.hasImage filed outside ⟨table, known, (table.shown_of_load shown).1, rfl⟩
  obtain ⟨table', known', same⟩ := kept.load_eq (h.catalog ▸ filed)
  rw [h.catalog, known] at known'
  cases known'
  rw [same, ← shown, table.load_eq db.volume own, if_pos (table.shown_of_load shown).1]

end Confined

/-! ### One page after the other -/

section Turns
variable {step : Database → PageId → Except Fault Unit × Database}

private theorem forEachPage_append (db : Database) (before after : List PageId) :
    (forEachPage step db (before ++ after)).2 =
      (forEachPage step (forEachPage step db before).2 after).2 := by
  induction before generalizing db with
  | nil => rfl
  | cons page before ih => exact ih (step db page).2

/-- There is no fault where the first page has none and the others have none. -/
theorem forEachPage_cons_eq_ok_iff {db : Database} {page : PageId} {pages : List PageId} :
    (forEachPage step db (page :: pages)).1 = .ok () ↔
      (step db page).1 = .ok () ∧ (forEachPage step (step db page).2 pages).1 = .ok () := by
  simp only [forEachPage]
  cases (step db page).1 with
  | error fault => simp
  | ok done => simp

/-- There is a fault where a page has one when its turn comes. -/
theorem forEachPage_error_iff {db : Database} {pages : List PageId} :
    (∃ fault, (forEachPage step db pages).1 = .error fault) ↔
      ∃ before page after, pages = before ++ page :: after ∧
        ∃ fault, (step (forEachPage step db before).2 page).1 = .error fault := by
  induction pages generalizing db with
  | nil =>
    refine ⟨fun ⟨_, none_left⟩ => (by cases none_left), ?_⟩
    rintro ⟨before, page, after, split, -⟩
    cases before <;> cases split
  | cons first pages ih =>
    simp only [forEachPage]
    cases hs : (step db first).1 with
    | error fault =>
      refine ⟨fun _ => ⟨[], first, pages, rfl, fault, hs⟩, fun _ => ⟨fault, rfl⟩⟩
    | ok done =>
      refine ih.trans ⟨?_, ?_⟩
      · rintro ⟨before, page, after, rfl, failed⟩
        exact ⟨first :: before, page, after, rfl, failed⟩
      · rintro ⟨before, page, after, split, fault, failed⟩
        cases before with
        | nil =>
          cases split
          rw [show (forEachPage step db []).2 = db from rfl, hs] at failed
          cases failed
        | cons head before =>
          cases split
          exact ⟨before, page, after, rfl, fault, failed⟩

/-- What every turn keeps holds after all turns. -/
theorem kept_forEachPage {motive : Database → Prop}
    (turn : ∀ {db : Database} page, motive db → motive (step db page).2) {db : Database}
    (h : motive db) (pages : List PageId) : motive (forEachPage step db pages).2 := by
  induction pages generalizing db with
  | nil => exact h
  | cons page pages ih => exact ih (turn page h)

theorem confined_forEachPage (one : ∀ {db : Database} page, db.catalog.Filed → db.cache.Keyed →
      Confined [page] db (step db page).2 ∧ (step db page).2.cache.Keyed)
    {db : Database} (filed : db.catalog.Filed) (keyed : db.cache.Keyed) (pages : List PageId) :
    Confined pages db (forEachPage step db pages).2 ∧ (forEachPage step db pages).2.cache.Keyed := by
  induction pages generalizing db with
  | nil => exact ⟨.refl [] db, keyed⟩
  | cons page pages ih =>
    obtain ⟨first, keyed⟩ := one page filed keyed
    obtain ⟨others, keyed⟩ := ih (first.catalog ▸ filed) keyed
    exact ⟨(first.mono (by simp)).trans (others.mono fun _ => List.mem_cons_of_mem page), keyed⟩

end Turns

theorem keyed_drop {c : Cache} (h : c.Keyed) (page : PageId) : (c.drop page).Keyed := by
  intro id frame cached
  rw [Cache.frames_drop] at cached
  split at cached
  · cases cached
  · exact h cached

theorem keyed_modify {c : Cache} (h : c.Keyed) {page : PageId} {change : Page → Page}
    (same : ∀ p, p.id = page → (change p).id = page) : (c.modify page change).Keyed := by
  intro id frame cached
  rw [Cache.frames_modify] at cached
  split at cached
  · rename_i here
    obtain ⟨old, held, rfl⟩ := Option.map_eq_some_iff.mp cached
    exact (same old.page (here ▸ h held)).trans here.symm
  · exact h cached

theorem store_eq_ok_iff {db : Database} {page : Page} {v : Volume} : db.store page = .ok v ↔
    ∃ table, db.catalog.table page.id.table = .ok table ∧ table.store db.volume page = .ok v := by
  rw [store]
  cases db.catalog.table page.id.table <;> simp

/-- What writing a page keeps holds wherever the writing of pages stops. -/
theorem kept_writeOutAll {motive : Database → Prop}
    (turn : ∀ {db : Database} page, motive db → motive (db.writeOut page).2) {db : Database}
    (h : motive db) (pages : List PageId) : motive (db.writeOutAll pages).2 := by
  induction pages generalizing db with
  | nil => exact h
  | cons page pages ih =>
    have first := turn page h
    rw [writeOutAll]
    split
    · rename_i failed
      rw [failed] at first
      exact first
    · rename_i written
      rw [written] at first
      exact ih first

/-! ### Commit -/

/-- A commit of a page keeps what writing it and dropping it keep. -/
theorem kept_commitPage {motive : Database → Prop} {db : Database} {page : PageId}
    (written : motive (db.writeOut page).2)
    (dropped : ∀ {db : Database}, motive db → motive (db.dropPage page)) :
    motive (db.commitPage page).2 := by
  rw [commitPage]
  split
  · rename_i failed
    rw [failed] at written
    exact dropped written
  · exact written

/-- A cached page is written and clean, or cannot be written and leaves the cache. -/
theorem commitPage_cases {db : Database} {page : PageId} {frame : Frame}
    (cached : db.cache.frames[page]? = some frame) :
    (∃ v, db.store frame.page = .ok v ∧ db.commitPage page = (.ok (),
      { db with volume := v, cache := (db.cache.modify page Page.cleaned).unpin page })) ∨
    ∃ fault, db.store frame.page = .error fault ∧
      db.commitPage page = (.error fault, db.dropPage page) := by
  have content : db.cache.page? page = some frame.page := Cache.page?_eq_some_iff.mpr ⟨frame, cached, rfl⟩
  simp only [commitPage, writeOut, content]
  cases db.store frame.page with
  | error fault => exact .inr ⟨fault, rfl, rfl⟩
  | ok v => exact .inl ⟨v, rfl, rfl⟩

theorem commitPage_of_absent {db : Database} {page : PageId}
    (absent : db.cache.frames[page]? = none) : db.commitPage page = (.ok (), db) := by
  have none_left : db.cache.page? page = none := by rw [Cache.page?, absent, Option.map_none]
  simp only [commitPage, writeOut, none_left]

/-- Dropping a page touches nothing else. -/
theorem confined_dropPage (db : Database) (page : PageId) : Confined [page] db (db.dropPage page) where
  settings := rfl
  catalog := rfl
  locks := rfl
  frames id outside := by
    rw [dropPage, Cache.frames_drop, if_neg (by simpa using outside)]
  bytes _ := rfl
  lengths _ := Nat.le_refl _
  ends _ := .inl rfl

/-- Writing a page touches nothing else. -/
theorem confined_commitPage {db : Database} (page : PageId) (filed : db.catalog.Filed)
    (keyed : db.cache.Keyed) :
    Confined [page] db (db.commitPage page).2 ∧ (db.commitPage page).2.cache.Keyed := by
  cases cached : db.cache.frames[page]? with
  | none =>
    rw [commitPage_of_absent cached]
    exact ⟨.refl [page] db, keyed⟩
  | some frame =>
    rcases commitPage_cases cached with ⟨v, stored, he⟩ | ⟨fault, -, he⟩
    · obtain ⟨table, known, stored⟩ := store_eq_ok_iff.mp stored
      have own := keyed cached
      have file := filed known
      rw [he]
      refine ⟨⟨rfl, rfl, rfl, fun id outside => ?_, fun {file' position} outside => ?_, fun file' => ?_,
        fun file' => ?_⟩, keyed_modify keyed fun _ same => same⟩
      · rw [Cache.frames_unpin, Cache.frames_modify, if_neg (by simpa using outside)]
      · by_cases here : file' = table.id
        · rw [here]
          apply Table.byte_of_store stored
          have := outside page (List.mem_singleton.mpr rfl)
          have within : ¬ (frame.page.id.number * table.pageSize ≤ position ∧
              position < frame.page.id.number * table.pageSize + table.pageSize) := fun inside =>
            this ⟨by rw [here, file, own], table, own ▸ known, own ▸ inside⟩
          omega
        · exact congrArg (·.byte position) (Table.content_of_store stored file' here)
      · by_cases here : file' = table.id
        · rw [here]
          exact (Table.length_of_store stored).symm ▸ Nat.le_max_left _ _
        · exact Nat.le_of_eq (congrArg Content.length (Table.content_of_store stored file' here)).symm
      · by_cases here : file' = table.id
        · rw [here]
          have longer := Table.length_of_store stored
          rcases Nat.le_total (frame.page.id.number * table.pageSize + table.pageSize)
              (db.volume.content table.id).length with inside | beyond
          · exact .inl (longer.trans (Nat.max_eq_left inside))
          · refine .inr ⟨page, List.mem_singleton.mpr rfl, table, ?_, own ▸ known, ?_⟩
            · rw [file, own]
            · exact own ▸ longer.trans (Nat.max_eq_right beyond)
        · exact .inl (congrArg Content.length (Table.content_of_store stored file' here))
    · rw [he]
      exact ⟨confined_dropPage db page, keyed_drop keyed page⟩

/-! ### Abort -/

/-- A page is replaced by what is in its file, or cannot be read and leaves the cache. -/
theorem revertPage_cases (db : Database) (page : PageId) :
    (∃ p, db.load page = .ok p ∧ db.revertPage page = (.ok (),
      { db with cache := (db.cache.modify page fun _ => p).unpin page })) ∨
    ∃ fault, db.load page = .error fault ∧
      db.revertPage page = (.error fault, db.dropPage page) := by
  rw [revertPage]
  cases db.load page with
  | error fault => exact .inr ⟨fault, rfl, rfl⟩
  | ok p => exact .inl ⟨p, rfl, rfl⟩

/-- Reading a page again touches nothing else. -/
theorem confined_revertPage {db : Database} (page : PageId) (_ : db.catalog.Filed)
    (keyed : db.cache.Keyed) :
    Confined [page] db (db.revertPage page).2 ∧ (db.revertPage page).2.cache.Keyed := by
  rcases db.revertPage_cases page with ⟨p, loaded, he⟩ | ⟨fault, -, he⟩
  · rw [he]
    refine ⟨⟨rfl, rfl, rfl, fun id outside => ?_, fun _ => rfl, fun _ => Nat.le_refl _,
      fun _ => .inl rfl⟩, keyed_modify keyed fun _ _ => (shown_of_load loaded).1⟩
    rw [Cache.frames_unpin, Cache.frames_modify, if_neg (by simpa using outside)]
  · rw [he]
    exact ⟨confined_dropPage db page, keyed_drop keyed page⟩

theorem volume_revertPage (db : Database) (page : PageId) :
    (db.revertPage page).2.volume = db.volume := by
  rcases db.revertPage_cases page with ⟨_, -, he⟩ | ⟨_, -, he⟩
  · rw [he]
  · rw [he, dropPage]

theorem volume_forEachPage_revertPage (db : Database) (pages : List PageId) :
    (forEachPage revertPage db pages).2.volume = db.volume := by
  induction pages generalizing db with
  | nil => rfl
  | cons page pages ih => exact (ih (db.revertPage page).2).trans (db.volume_revertPage page)

/-! ### The end of a transaction -/

section Settling
variable {db : Database} {before after : List PageId} {page : PageId} {frame : Frame}
  (filed : db.catalog.Filed) (keyed : db.cache.Keyed)
  (distinct : (before ++ page :: after).Nodup) (cached : db.cache.frames[page]? = some frame)
include filed keyed distinct cached

/-- When the turn of a page to be written comes, it is cached as before. Then it leaves the cache or
is in its file for good. -/
theorem commit_turn :
    (forEachPage commitPage db before).2.cache.frames[page]? = some frame ∧
      ((∃ fault, (forEachPage commitPage db before).2.store frame.page = .error fault ∧
        (forEachPage commitPage db (before ++ page :: after)).2.cache.frames[page]? = none) ∨
      ∃ v, (forEachPage commitPage db before).2.store frame.page = .ok v ∧
        (forEachPage commitPage db (before ++ page :: after)).2.cache.frames[page]? =
          some { frame with page := frame.page.cleaned } ∧
        (forEachPage commitPage db (before ++ page :: after)).2.HasImage page frame.page.image) := by
  obtain ⟨-, ⟨later, -⟩, apart⟩ := List.nodup_append.mp distinct |>.imp_right (·.imp_left List.nodup_cons.mp)
  have earlier : page ∉ before := fun listed => apart page listed page List.mem_cons_self rfl
  obtain ⟨first, keyed'⟩ := confined_forEachPage confined_commitPage filed keyed before
  rw [forEachPage_append]
  revert first keyed'
  generalize (forEachPage commitPage db before).2 = mid
  intro first keyed'
  have held : mid.cache.frames[page]? = some frame := by rw [first.frames page earlier, cached]
  have filed' : mid.catalog.Filed := first.catalog ▸ filed
  obtain ⟨turn, keyed''⟩ := confined_commitPage page filed' keyed'
  obtain ⟨last, -⟩ := confined_forEachPage confined_commitPage (turn.catalog ▸ filed') keyed'' after
  refine ⟨held, ?_⟩
  rcases commitPage_cases held with ⟨v, stored, he⟩ | ⟨fault, stored, he⟩
  · refine .inr ⟨v, stored, (last.frames page later).trans ?_, last.hasImage (turn.catalog ▸ filed') later ?_⟩
    · rw [he, Cache.frames_unpin, Cache.frames_modify, if_pos rfl, held]
      rfl
    · obtain ⟨table, known, stored⟩ := store_eq_ok_iff.mp stored
      have own := keyed' held
      have image := Table.imageAt_of_store stored
      have reach := Table.length_of_store stored
      rw [own] at known image reach
      rw [he]
      refine ⟨table, known, table.lt_pages_iff.mpr ?_, image⟩
      exact reach.symm ▸ Nat.le_max_right _ _
  · refine .inl ⟨fault, stored, (last.frames page later).trans ?_⟩
    rw [he, dropPage, Cache.frames_drop, if_pos rfl]

/-- A page to be read again leaves the cache or is as in its file for good. -/
theorem revert_turn :
    (∃ fault, db.load page = .error fault ∧
      (forEachPage revertPage db (before ++ page :: after)).2.cache.frames[page]? = none) ∨
    ∃ p, db.load page = .ok p ∧
      (forEachPage revertPage db (before ++ page :: after)).2.cache.frames[page]? =
        some { frame with page := p } := by
  obtain ⟨-, ⟨later, -⟩, apart⟩ := List.nodup_append.mp distinct |>.imp_right (·.imp_left List.nodup_cons.mp)
  have earlier : page ∉ before := fun listed => apart page listed page List.mem_cons_self rfl
  obtain ⟨first, keyed'⟩ := confined_forEachPage confined_revertPage filed keyed before
  have volume := volume_forEachPage_revertPage db before
  rw [forEachPage_append]
  revert first keyed' volume
  generalize (forEachPage revertPage db before).2 = mid
  intro first keyed' volume
  have held : mid.cache.frames[page]? = some frame := by rw [first.frames page earlier, cached]
  have filed' : mid.catalog.Filed := first.catalog ▸ filed
  have same : mid.load page = db.load page := by rw [load, load, first.catalog, volume]
  obtain ⟨turn, keyed''⟩ := confined_revertPage page filed' keyed'
  obtain ⟨last, -⟩ := confined_forEachPage confined_revertPage (turn.catalog ▸ filed') keyed'' after
  rcases mid.revertPage_cases page with ⟨p, loaded, he⟩ | ⟨fault, loaded, he⟩
  · refine .inr ⟨p, same ▸ loaded, (last.frames page later).trans ?_⟩
    rw [he, Cache.frames_unpin, Cache.frames_modify, if_pos rfl, held]
    rfl
  · refine .inl ⟨fault, same ▸ loaded, (last.frames page later).trans ?_⟩
    rw [he, dropPage, Cache.frames_drop, if_pos rfl]

end Settling

end PagedStore.Database
