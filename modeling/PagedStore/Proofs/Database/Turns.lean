import Mathlib.Data.List.Perm.Basic
import PagedStore.Proofs.Database.Completion

/-! What the turn of each page does at the end of a transaction, and that turns may be taken in any order. -/
namespace PagedStore

/-- What the turn of a page comes to: what the page is then, if it stays in the cache, and the bytes that are
written to its file from an offset on, if any are. -/
structure Turn where
  page : PageId
  content : Option Page
  patch : Option (Nat × List UInt8)

namespace Turn

def write (t : Turn) (v : Volume) : Volume :=
  match t.patch with
  | none => v
  | some (offset, bytes) => v.put t.page.table ((v.content t.page.table).overwrite offset bytes)

def settle (t : Turn) (c : Cache) : Cache :=
  match t.content with
  | none => c.drop t.page
  | some content => (c.modify t.page fun _ => content).unpin t.page

def take (db : Database) (t : Turn) : Database :=
  { db with volume := t.write db.volume, cache := t.settle db.cache }

section Settle
variable (t : Turn) (c : Cache)

private theorem frames_settle (other : PageId) : (t.settle c).frames[other]? =
    if other = t.page then
      t.content.bind fun content => c.frames[other]?.map fun frame => { frame with page := content }
    else c.frames[other]? := by
  rw [settle]
  cases t.content with
  | none => exact c.frames_drop t.page other
  | some content => exact c.frames_modify t.page (fun _ => content) other

private theorem pinned_settle : (t.settle c).recency.pinned = c.recency.pinned.erase t.page := by
  rw [settle]
  cases t.content with
  | none => rw [Cache.recency_drop, Recency.forget]
  | some content => rfl

private theorem order_settle : (t.settle c).recency.order =
    c.recency.order.erase t.page ++ if t.content.isSome then [t.page] else [] := by
  rw [settle]
  cases t.content with
  | none => simp [Recency.forget]
  | some content => rfl

private theorem capacity_settle : (t.settle c).capacity = c.capacity := by
  rw [settle]
  cases t.content with
  | none => exact c.capacity_drop t.page
  | some content => rfl

private theorem nextSerial_settle : (t.settle c).nextSerial = c.nextSerial := by
  rw [settle]
  cases t.content with
  | none => exact c.nextSerial_drop t.page
  | some content => rfl

end Settle

end Turn

def Cache.unordered (c : Cache) : Cache :=
  { c with recency := { c.recency with order := [] }, loose := ∅ }

private theorem Cache.unordered_eq_iff {c c' : Cache} : c.unordered = c'.unordered ↔
    c.capacity = c'.capacity ∧ (∀ id : PageId, c.frames[id]? = c'.frames[id]?) ∧
      (∀ id, id ∈ c.recency.pinned ↔ id ∈ c'.recency.pinned) ∧ c.nextSerial = c'.nextSerial := by
  obtain ⟨capacity, frames, ⟨order, pinned⟩, loose, nextSerial⟩ := c
  obtain ⟨capacity', frames', ⟨order', pinned'⟩, loose', nextSerial'⟩ := c'
  simp only [unordered, Cache.mk.injEq, Recency.mk.injEq, true_and, Std.ExtTreeMap.ext_getElem?_iff,
    Std.ExtTreeSet.ext_mem_iff]

/-- A database, but for the order in which cached pages leave and for the copies outside the cache. -/
def Database.unordered (db : Database) : Database :=
  { db with cache := db.cache.unordered }

namespace Turn

structure Apart (t t' : Turn) : Prop where
  pages : t.page ≠ t'.page
  bytes : t.page.table = t'.page.table → ∀ {offset offset' bytes bytes'},
    t.patch = some (offset, bytes) → t'.patch = some (offset', bytes') →
      offset + bytes.length ≤ offset' ∨ offset' + bytes'.length ≤ offset

private theorem write_comm {t t' : Turn} (apart : t.Apart t') (v : Volume) :
    t'.write (t.write v) = t.write (t'.write v) := by
  simp only [write]
  cases first : t.patch with
  | none => rfl
  | some patch =>
    cases second : t'.patch with
    | none => rfl
    | some patch' =>
      simp only [Volume.content_put]
      by_cases same : t.page.table = t'.page.table
      · simp only [same, if_true, Volume.put_put]
        rw [Content.overwrite_comm _ (apart.bytes same first second)]
      · rw [if_neg same, if_neg (Ne.symm same), Volume.put_comm v same]

private theorem settle_comm {t t' : Turn} (different : t.page ≠ t'.page) (c : Cache) :
    (t'.settle (t.settle c)).unordered = (t.settle (t'.settle c)).unordered := by
  refine Cache.unordered_eq_iff.mpr ⟨?_, fun id => ?_, fun id => ?_, ?_⟩
  · simp only [capacity_settle]
  · simp only [frames_settle]
    grind
  · simp only [pinned_settle, Std.ExtTreeSet.mem_erase]
    grind
  · simp only [nextSerial_settle]

private theorem settle_unordered (t : Turn) (c : Cache) :
    (t.settle c.unordered).unordered = (t.settle c).unordered := by
  rw [Cache.unordered_eq_iff]
  simp only [capacity_settle, frames_settle, pinned_settle, nextSerial_settle]
  exact ⟨rfl, fun _ => rfl, fun _ => Iff.rfl, rfl⟩

private theorem take_unordered (db : Database) (t : Turn) :
    (take db.unordered t).unordered = (take db t).unordered :=
  congrArg (fun cache => { db with volume := t.write db.volume, cache := cache })
    (t.settle_unordered db.cache)

private theorem take_comm {t t' : Turn} (apart : t.Apart t') (db : Database) :
    (take (take db t) t').unordered = (take (take db t') t).unordered := by
  simp only [take, Database.unordered, write_comm apart, settle_comm apart.pages]

private theorem foldl_take_perm {turns turns' : List Turn} (perm : turns.Perm turns')
    (apart : ∀ t ∈ turns, ∀ t' ∈ turns, t ≠ t' → t.Apart t') (db : Database) :
    (turns.foldl take db).unordered = (turns'.foldl take db).unordered := by
  -- no turn looks at the order, which may be forgotten after each: then turns commute as they are
  have each (turns : List Turn) (db : Database) : (turns.foldl take db).unordered =
      turns.foldl (fun db t => (take db t).unordered) db.unordered := by
    induction turns generalizing db with
    | nil => rfl
    | cons t turns ih => rw [List.foldl_cons, List.foldl_cons, ih, take_unordered]
  rw [each, each]
  refine perm.foldl_eq' (fun t listed t' listed' db => ?_) _
  rw [take_unordered, take_unordered]
  by_cases same : t = t'
  · rw [same]
  · exact take_comm (apart t listed t' listed' same) db

private theorem diff_concat {pages gone : List PageId} {page : PageId} (kept : page ∉ gone) :
    (pages ++ [page]).diff gone = pages.diff gone ++ [page] := by
  induction gone generalizing pages with
  | nil => rfl
  | cons first gone ih =>
    obtain ⟨different, kept⟩ := List.ne_and_not_mem_of_not_mem_cons kept
    rw [List.diff_cons, List.diff_cons, ← ih kept, List.erase_append]
    split
    · rfl
    · rename_i absent
      rw [List.erase_of_not_mem absent, List.erase_of_not_mem (by simpa using Ne.symm different)]

/-- Behind the pages that had no turn are those that stay in the cache, in the order of their turns. -/
private theorem order_foldl_take {turns : List Turn} (distinct : (turns.map page).Nodup) (db : Database) :
    (turns.foldl take db).cache.recency.order = db.cache.recency.order.diff (turns.map page) ++
      (turns.filter (·.content.isSome)).map page := by
  induction turns generalizing db with
  | nil => simp
  | cons t turns ih =>
    obtain ⟨later, distinct⟩ := List.nodup_cons.mp distinct
    rw [List.foldl_cons, ih distinct, take, order_settle, List.map_cons, List.diff_cons, List.filter_cons]
    split
    · rw [diff_concat later, List.append_assoc, List.map_cons, List.singleton_append]
    · rw [List.append_nil]

end Turn

namespace Database

def turn (db : Database) (commit : Bool) (page : PageId) : Turn :=
  if commit then
    match db.cache.page? page, db.catalog.table page.table with
    | some content, .ok table =>
      if content.image.length = table.pageSize then
        ⟨page, some content.cleaned, some (page.number * table.pageSize, content.image)⟩
      else ⟨page, none, none⟩
    | _, _ => ⟨page, none, none⟩
  else ⟨page, (db.load page).toOption, none⟩

private theorem patch_turn {db : Database} {commit : Bool} {page : PageId} {offset : Nat} {bytes : List UInt8}
    (patch : (db.turn commit page).patch = some (offset, bytes)) : ∃ table,
      db.catalog.table page.table = .ok table ∧ offset = page.number * table.pageSize ∧
        bytes.length = table.pageSize := by
  rw [turn] at patch
  split at patch
  · split at patch
    · split at patch
      · cases patch
        exact ⟨_, by assumption, rfl, by assumption⟩
      · cases patch
    · cases patch
  · cases patch

def visit (db : Database) (commit : Bool) (page : PageId) : Except Fault Unit × Database :=
  if commit then db.commitPage page else db.revertPage page

theorem visit_eq (commit : Bool) : (if commit then commitPage else revertPage) = (visit · commit ·) := by
  cases commit <;> rfl

private theorem page_turn (db : Database) (commit : Bool) (page : PageId) :
    (db.turn commit page).page = page := by
  rw [turn]
  grind

private theorem commitPage_eq {db : Database} {page : PageId} (filed : db.catalog.Filed)
    (keyed : db.cache.Keyed) (cached : page ∈ db.cache.frames) (onDisk : db.OnDisk page) :
    (db.commitPage page).2 = (db.turn true page).take db ∧
    ((db.commitPage page).1 = .ok () ↔ (db.turn true page).content.isSome) := by
  obtain ⟨frame, held⟩ := Cache.exists_frame_of_mem cached
  obtain ⟨table, known, inside⟩ := onDisk
  have own : frame.page.id = page := keyed held
  have content : db.cache.page? page = some frame.page := Cache.page?_eq_some_iff.mpr ⟨frame, held, rfl⟩
  -- the file has the page, so that only its size can keep it from being written
  have stored {v : Volume} : db.store frame.page = .ok v ↔ frame.page.image.length = table.pageSize ∧
      v = db.volume.put page.table
        ((db.volume.content page.table).overwrite (page.number * table.pageSize) frame.page.image) := by
    rw [store, own, known]
    simp only [table.store_eq_ok_iff, own, filed known, Nat.le_of_lt inside, true_and]
  have turn : db.turn true page = if frame.page.image.length = table.pageSize then
      ⟨page, some frame.page.cleaned, some (page.number * table.pageSize, frame.page.image)⟩
      else ⟨page, none, none⟩ := by
    simp only [Database.turn, if_true, content, known]
  rw [turn]
  split
  · rename_i long
    rcases commitPage_cases held with ⟨v, written, he⟩ | ⟨fault, failed, -⟩
    · rw [he, (stored.mp written).2, Cache.modify_eq_of_cached held]
      exact ⟨rfl, by simp⟩
    · rw [stored.mpr ⟨long, rfl⟩] at failed
      cases failed
  · rename_i wrong
    rcases commitPage_cases held with ⟨v, written, -⟩ | ⟨fault, -, he⟩
    · exact absurd (stored.mp written).1 wrong
    · rw [he]
      exact ⟨rfl, by simp⟩

private theorem revertPage_eq (db : Database) (page : PageId) :
    (db.revertPage page).2 = (db.turn false page).take db ∧
    ((db.revertPage page).1 = .ok () ↔ (db.turn false page).content.isSome) := by
  have turn : db.turn false page = ⟨page, (db.load page).toOption, none⟩ := rfl
  rw [turn]
  rcases db.revertPage_cases page with ⟨p, loaded, he⟩ | ⟨fault, unread, he⟩
  · rw [he, loaded]
    exact ⟨rfl, iff_of_true rfl rfl⟩
  · rw [he, unread]
    exact ⟨rfl, iff_of_false nofun Bool.false_ne_true⟩

/-- What becomes of a page depends on its cached copy, and, where it is read again, on the files. -/
private theorem turn_congr {db db' : Database} {commit : Bool} {page : PageId}
    (frames : db'.cache.frames[page]? = db.cache.frames[page]?) (catalog : db'.catalog = db.catalog)
    (volume : commit = false → db'.volume = db.volume) : db'.turn commit page = db.turn commit page := by
  cases commit with
  | true => simp only [turn, if_true, Cache.page?, frames, catalog]
  | false => simp only [turn, Bool.false_eq_true, if_false, load, catalog, volume rfl]

structure Ready (db : Database) (pages : List PageId) : Prop where
  filed : db.catalog.Filed
  keyed : db.cache.Keyed
  distinct : pages.Nodup
  cached : ∀ page ∈ pages, page ∈ db.cache.frames
  onDisk : ∀ page ∈ pages, db.OnDisk page

namespace Ready
variable {db : Database} {page : PageId} {pages : List PageId}

theorem perm {order : List PageId} (h : db.Ready pages) (listed : order.Perm pages) : db.Ready order where
  filed := h.filed
  keyed := h.keyed
  distinct := listed.nodup_iff.mpr h.distinct
  cached page mem := h.cached page (listed.mem_iff.mp mem)
  onDisk page mem := h.onDisk page (listed.mem_iff.mp mem)

private theorem visit_first (h : db.Ready (page :: pages)) (commit : Bool) :
    (db.visit commit page).2 = (db.turn commit page).take db ∧
      ((db.visit commit page).1 = .ok () ↔ (db.turn commit page).content.isSome) ∧
      (db.visit commit page).2.Ready pages ∧
      ∀ other ∈ pages, (db.visit commit page).2.turn commit other = db.turn commit other := by
  obtain ⟨later, distinct⟩ := List.nodup_cons.mp h.distinct
  have turn : (db.visit commit page).2 = (db.turn commit page).take db ∧
      ((db.visit commit page).1 = .ok () ↔ (db.turn commit page).content.isSome) := by
    cases commit with
    | true =>
      exact commitPage_eq h.filed h.keyed (h.cached page List.mem_cons_self)
        (h.onDisk page List.mem_cons_self)
    | false => exact db.revertPage_eq page
  have ⟨confined, keyed⟩ : Confined [page] db (db.visit commit page).2 ∧
      (db.visit commit page).2.cache.Keyed := by
    cases commit with
    | true => exact confined_commitPage page h.filed h.keyed
    | false => exact confined_revertPage page h.filed h.keyed
  have frames {other : PageId} (mem : other ∈ pages) :
      (db.visit commit page).2.cache.frames[other]? = db.cache.frames[other]? :=
    confined.frames other fun same => later (List.mem_singleton.mp same ▸ mem)
  refine ⟨turn.1, turn.2, ⟨confined.catalog ▸ h.filed, keyed, distinct, fun other mem => ?_,
    fun other mem => ?_⟩, fun other mem => turn_congr (frames mem) confined.catalog ?_⟩
  · obtain ⟨frame, held⟩ := Cache.exists_frame_of_mem (h.cached other (List.mem_cons_of_mem page mem))
    exact Cache.mem_frames_of_eq ((frames mem).trans held)
  · exact (h.onDisk other (List.mem_cons_of_mem page mem)).of_lengths confined.catalog confined.lengths
  · rintro rfl
    exact db.volume_revertPage page

/-- All pages have the turns that they would have if they were the first. -/
theorem visit_all (h : db.Ready pages) (commit : Bool) :
    (forEachPage (visit · commit ·) db pages).2 = (pages.map (db.turn commit)).foldl Turn.take db ∧
      ((forEachPage (visit · commit ·) db pages).1 = .ok () ↔
        ∀ page ∈ pages, (db.turn commit page).content.isSome) := by
  induction pages generalizing db with
  | nil => exact ⟨rfl, iff_of_true rfl fun _ mem => absurd mem List.not_mem_nil⟩
  | cons page pages ih =>
    obtain ⟨taken, ok, ready, same⟩ := h.visit_first commit
    obtain ⟨others, others_ok⟩ := ih ready
    have others_ok := others_ok.trans (forall₂_congr fun other mem => by rw [same other mem])
    constructor
    · calc
        _ = (forEachPage (visit · commit ·) (db.visit commit page).2 pages).2 := rfl
        _ = (pages.map (db.turn commit)).foldl Turn.take (db.visit commit page).2 := by
          rw [others, List.map_congr_left same]
        _ = _ := by rw [taken, List.map_cons, List.foldl_cons]
    · rw [List.forall_mem_cons, ← ok, ← others_ok, forEachPage_cons_eq_ok_iff]

private theorem apart_turn (db : Database) (commit : Bool) {page other : PageId} (different : page ≠ other) :
    (db.turn commit page).Apart (db.turn commit other) where
  pages := by rwa [page_turn, page_turn]
  bytes := by
    intro same offset offset' bytes bytes' patch patch'
    rw [page_turn, page_turn] at same
    obtain ⟨table, known, rfl, long⟩ := patch_turn patch
    obtain ⟨table', known', rfl, long'⟩ := patch_turn patch'
    rw [same, known'] at known
    cases known
    have numbers : page.number ≠ other.number := fun equal => different (by
      cases page
      cases other
      cases same
      cases equal
      rfl)
    rw [long, long', ← Nat.succ_mul, ← Nat.succ_mul]
    rcases Nat.lt_or_gt_of_ne numbers with before | after
    · exact .inl (Nat.mul_le_mul_right _ before)
    · exact .inr (Nat.mul_le_mul_right _ after)

/-- The pages may be visited in any order. -/
theorem visit_perm (h : db.Ready pages) (commit : Bool) {order : List PageId} (listed : order.Perm pages) :
    (forEachPage (visit · commit ·) db order).2.unordered =
      (forEachPage (visit · commit ·) db pages).2.unordered := by
  rw [((h.perm listed).visit_all commit).1, (h.visit_all commit).1]
  refine Turn.foldl_take_perm (listed.map _) (fun t mem t' mem' different => ?_) db
  obtain ⟨page, -, rfl⟩ := List.mem_map.mp mem
  obtain ⟨other, -, rfl⟩ := List.mem_map.mp mem'
  exact apart_turn db commit fun same => different (same ▸ rfl)

/-- Behind all other pages that may leave are the visited ones that stay in the cache, as they were visited. -/
theorem order_visit (h : db.Ready pages) (commit : Bool) :
    (forEachPage (visit · commit ·) db pages).2.cache.recency.order =
      db.cache.recency.order.diff pages ++ pages.filter fun page => (db.turn commit page).content.isSome := by
  have own : Turn.page ∘ db.turn commit = id := funext (db.page_turn commit)
  have names (pages : List PageId) : (pages.map (db.turn commit)).map Turn.page = pages := by
    rw [List.map_map, own, List.map_id]
  rw [(h.visit_all commit).1, Turn.order_foldl_take ((names pages).symm ▸ h.distinct), names,
    List.filter_map, names]
  rfl

end Ready

end Database

end PagedStore
