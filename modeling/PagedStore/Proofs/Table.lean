import PagedStore.Proofs.Page.Image
import PagedStore.Proofs.PageFile
import PagedStore.Table

/-! Tables as rows of page images: what loading shows, and what writing and adding a page change. -/
namespace PagedStore

namespace Volume

@[simp] theorem content_put (v : Volume) (table other : TableId) (content : Content) :
    (v.put table content).content other = if other = table then content else v.content other := by
  simp only [Volume.content, put, Std.ExtTreeMap.getElem?_insert,
    Std.LawfulEqCmp.compare_eq_iff_eq, eq_comm (a := table)]
  split <;> rfl

private theorem ext_files {v v' : Volume} (same : v.files = v'.files) : v = v' :=
  congrArg Volume.mk same

theorem put_put (v : Volume) (table : TableId) (content content' : Content) :
    (v.put table content).put table content' = v.put table content' := by
  refine ext_files (Std.ExtTreeMap.ext_getElem? fun other => ?_)
  simp only [put, Std.ExtTreeMap.getElem?_insert]
  split <;> rfl

theorem put_comm (v : Volume) {table table' : TableId} (different : table ≠ table')
    (content content' : Content) :
    (v.put table content).put table' content' = (v.put table' content').put table content := by
  refine ext_files (Std.ExtTreeMap.ext_getElem? fun other => ?_)
  simp only [put, Std.ExtTreeMap.getElem?_insert, Std.LawfulEqCmp.compare_eq_iff_eq]
  grind

end Volume

namespace Table

/-- A table is opened as asked for; a file that is created for it is empty. -/
theorem openAt_eq_ok {v v' : Volume} {serial : Nat} {place : Place} {schema : Schema} {pageSize : Nat}
    {table : Table} (h : openAt v serial place schema pageSize = .ok (table, v')) :
    place.table = .ok table.id ∧ table.schema = schema ∧ table.pageSize = pageSize ∧
      ∀ id, v'.content id = v.content id := by
  unfold openAt Volume.create at h
  split at h
  · cases hp : place.table with
    | error fault =>
      rw [hp] at h
      cases h
    | ok id =>
      rw [hp] at h
      cases h
      refine ⟨rfl, rfl, rfl, fun other => ?_⟩
      rw [Volume.content_put]
      split
      · rename_i here
        rw [here]
      · rfl
  · cases h

variable (t : Table)

def imageAt (v : Volume) (number : Nat) : List UInt8 :=
  (v.content t.id).read (number * t.pageSize) t.pageSize

theorem pages_eq (v : Volume) : t.pages v = (v.content t.id).length / t.pageSize :=
  rfl

theorem lt_pages_iff {v : Volume} {number : Nat} :
    number < t.pages v ↔ number * t.pageSize + t.pageSize ≤ (v.content t.id).length :=
  (t.file v).lt_pages_iff

private theorem length_imageAt {v : Volume} {number : Nat} (h : number < t.pages v) :
    (t.imageAt v number).length = t.pageSize := by
  have := t.lt_pages_iff.mp h
  rw [imageAt, Content.length_read]
  omega

/-- Loading shows the image of the page, if the table has the page. -/
theorem load_eq (v : Volume) {page : PageId} (own : page.table = t.id) :
    t.load v page = if page.number < t.pages v then
      Page.ofImage page t.schema (t.imageAt v page.number)
      else .error (.beyondEnd page (t.pages v)) := by
  have all : ¬ t.pageSize < (t.file v).pageSize := Nat.lt_irrefl _
  rw [load, if_pos own, PageFile.read_eq, if_neg all]
  by_cases inside : page.number < t.pages v
  · rw [if_pos inside, if_pos (show page.number < (t.file v).pages from inside)]
    rfl
  · rw [if_neg inside, if_neg (show ¬ page.number < (t.file v).pages from inside)]
    rfl

theorem table_eq_of_load {v : Volume} {page : PageId} {p : Page} (h : t.load v page = .ok p) :
    page.table = t.id := by
  rw [load] at h
  split at h
  · assumption
  · cases h

/-- A loaded page is one of the table, clean and kept whole by storage. -/
theorem shown_of_load {v : Volume} {page : PageId} {p : Page} (h : t.load v page = .ok p) :
    page.number < t.pages v ∧ Page.Shown page t.schema t.pageSize p := by
  rw [t.load_eq v (t.table_eq_of_load h)] at h
  split at h
  · rename_i inside
    have shown := Page.shown_of_ofImage h
    rw [t.length_imageAt inside] at shown
    exact ⟨inside, shown⟩
  · cases h

theorem imageAt_congr {v v' : Volume} {number : Nat} (inside : number < t.pages v)
    (inside' : number < t.pages v') (same : ∀ position, number * t.pageSize ≤ position →
      position < number * t.pageSize + t.pageSize →
        (v'.content t.id).byte position = (v.content t.id).byte position) :
    t.imageAt v' number = t.imageAt v number := by
  rw [lt_pages_iff] at inside inside'
  rw [imageAt, imageAt, Content.read, Content.read, Nat.min_eq_left (by omega),
    Nat.min_eq_left (by omega)]
  apply List.map_congr_left
  intro position hp
  rw [List.mem_range'_1] at hp
  exact same position hp.1 hp.2

/-! ### Writing a page -/

/-- A page is written only in the table's size and where the file has it or ends. -/
theorem store_eq_ok_iff {v v' : Volume} {page : Page} : t.store v page = .ok v' ↔
    page.image.length = t.pageSize ∧ page.id.number ≤ t.pages v ∧
      v' = v.put t.id ((v.content t.id).overwrite (page.id.number * t.pageSize) page.image) := by
  constructor
  · intro h
    rw [store] at h
    cases written : (t.file v).write page.id page.image with
    | error fault =>
      rw [written] at h
      cases h
    | ok file =>
      rw [written] at h
      cases h
      obtain ⟨long, reached, rfl⟩ := (t.file v).write_eq_ok_iff.mp written
      exact ⟨long, reached, rfl⟩
  · rintro ⟨long, reached, rfl⟩
    rw [store, (t.file v).write_eq_ok_iff.mpr ⟨long, reached, rfl⟩]
    rfl

private theorem file_put (v : Volume) (content : Content) :
    t.file (v.put t.id content) = ⟨t.pageSize, content, t.pageSize_pos⟩ := by
  rw [file]
  congr 1
  rw [Volume.content_put, if_pos rfl]

section Store
variable {t} {v v' : Volume} {page : Page} (h : t.store v page = .ok v')
include h

theorem content_of_store (id : TableId) (other : id ≠ t.id) : v'.content id = v.content id := by
  obtain ⟨-, -, rfl⟩ := t.store_eq_ok_iff.mp h
  rw [Volume.content_put, if_neg other]

private theorem placed_of_store : (t.file v).Placed (t.file v') page.id.number page.image := by
  obtain ⟨long, reached, rfl⟩ := t.store_eq_ok_iff.mp h
  rw [file_put]
  exact PageFile.placed_of_write ((t.file v).write_eq_ok_iff.mpr ⟨long, reached, rfl⟩)

/-- Writing a page changes no byte outside it. -/
theorem byte_of_store {position : Nat} (outside : position < page.id.number * t.pageSize ∨
    page.id.number * t.pageSize + t.pageSize ≤ position) :
    (v'.content t.id).byte position = (v.content t.id).byte position := by
  rw [← Nat.succ_mul] at outside
  exact (placed_of_store h).outside position outside

theorem length_of_store : (v'.content t.id).length =
    max (v.content t.id).length (page.id.number * t.pageSize + t.pageSize) := by
  rw [← Nat.succ_mul]
  exact (placed_of_store h).length_eq

/-- A written page is found where it was put. -/
theorem imageAt_of_store : t.imageAt v' page.id.number = page.image := by
  obtain ⟨long, reached, -⟩ := t.store_eq_ok_iff.mp h
  have image := (placed_of_store h).image?_eq reached long page.id.number
  rw [if_pos rfl, PageFile.image?] at image
  split at image
  · exact Option.some.inj image
  · cases image

end Store

private theorem load_of_zeros {v : Volume} {page : PageId} (own : page.table = t.id)
    (inside : page.number < t.pages v)
    (zeros : ∀ position, page.number * t.pageSize ≤ position →
      position < page.number * t.pageSize + t.pageSize → (v.content t.id).byte position = 0) :
    ∃ p, t.load v page = .ok p ∧ ∀ slot, p.tuple? slot = none := by
  have long := t.length_imageAt inside
  have blank : t.imageAt v page.number = Page.blankImage t.pageSize := by
    refine List.ext_getElem (by rw [long, Page.blankImage, List.length_replicate]) fun i within _ => ?_
    rw [long] at within
    simp only [imageAt, Content.read, List.getElem_map, List.getElem_range', Nat.one_mul, Page.blankImage,
      List.getElem_replicate]
    exact zeros _ (Nat.le_add_right _ _) (Nat.add_lt_add_left within _)
  rw [t.load_eq v own, if_pos inside, blank]
  exact Page.ofImage_blankImage page t.fits

/-! ### Adding pages -/

/-- Whether a table's file differs only by empty pages added behind its pages. -/
structure Grown (v v' : Volume) : Prop where
  pages_le : t.pages v ≤ t.pages v'
  kept : ∀ position, position < t.pages v * t.pageSize →
    (v'.content t.id).byte position = (v.content t.id).byte position
  blank : ∀ position, t.pages v * t.pageSize ≤ position → position < t.pages v' * t.pageSize →
    (v'.content t.id).byte position = 0

namespace Grown
variable {t}

theorem of_content_eq {v v' : Volume} (h : v'.content t.id = v.content t.id) : t.Grown v v' := by
  have same : t.pages v' = t.pages v := by rw [pages_eq, h, pages_eq]
  refine ⟨Nat.le_of_eq same.symm, fun _ _ => by rw [h], fun position behind inside => ?_⟩
  rw [same] at inside
  omega

theorem trans {v v' v'' : Volume} (h : t.Grown v v') (h' : t.Grown v' v'') : t.Grown v v'' where
  pages_le := Nat.le_trans h.pages_le h'.pages_le
  kept position inside := by
    have := Nat.mul_le_mul_right t.pageSize h.pages_le
    rw [h'.kept position (by omega), h.kept position inside]
  blank position behind inside := by
    by_cases first : position < t.pages v' * t.pageSize
    · rw [h'.kept position first, h.blank position behind first]
    · exact h'.blank position (by omega) inside

/-- A page that the table had is loaded as before. -/
theorem load_eq {v v' : Volume} (h : t.Grown v v') {page : PageId} (own : page.table = t.id)
    (inside : page.number < t.pages v) : t.load v' page = t.load v page := by
  have inside' := Nat.lt_of_lt_of_le inside h.pages_le
  have room := Nat.mul_le_mul_right t.pageSize (Nat.succ_le_of_lt inside)
  rw [t.load_eq v' own, t.load_eq v own, if_pos inside, if_pos inside',
    t.imageAt_congr inside inside' fun position _ hp => h.kept position (by rw [Nat.succ_mul] at room; omega)]

/-- An added page has no tuples. -/
theorem load_blank {v v' : Volume} (h : t.Grown v v') {page : PageId} (own : page.table = t.id)
    (behind : t.pages v ≤ page.number) (inside : page.number < t.pages v') :
    ∃ p, t.load v' page = .ok p ∧ ∀ slot, p.tuple? slot = none := by
  have room := Nat.mul_le_mul_right t.pageSize (Nat.succ_le_of_lt inside)
  have start := Nat.mul_le_mul_right t.pageSize behind
  rw [Nat.succ_mul] at room
  exact t.load_of_zeros own inside fun position from_start to_end => h.blank position (by omega) (by omega)

theorem load_of_ok {v v' : Volume} (h : t.Grown v v') {page : PageId} {p : Page}
    (loaded : t.load v page = .ok p) : t.load v' page = .ok p := by
  rw [h.load_eq (t.table_eq_of_load loaded) (t.shown_of_load loaded).1, loaded]

end Grown

/-- Where page numbers do not begin again, the added page comes after the last one. -/
theorem grown_append {v : Volume} (room : t.pages v < 4294967296) :
    t.Grown v (t.append v).2 ∧ t.pages (t.append v).2 = t.pages v + 1 := by
  obtain ⟨-, placed⟩ := PageFile.placed_append (f := t.file v) room
  have file : t.file (t.append v).2 = (t.file v).append.2 := t.file_put v _
  rw [← file] at placed
  have pages : t.pages (t.append v).2 = t.pages v + 1 :=
    (placed.pages_eq (Nat.le_refl _)).trans (Nat.max_eq_right (Nat.le_succ _))
  refine ⟨⟨by omega, fun position inside => placed.outside position (.inl inside),
    fun position behind inside => ?_⟩, pages⟩
  rw [pages, Nat.succ_mul] at inside
  have within : position - t.pages v * t.pageSize < (t.file v).pageSize := show _ < t.pageSize by omega
  have blank := placed.inside _ within
  rw [List.getElem?_replicate_of_lt within] at blank
  rw [← Nat.add_sub_cancel' behind]
  exact (Option.some.inj blank).symm

/-- Where page numbers have begun again, an added page adds nothing. -/
theorem pages_append_of_full {v : Volume} (full : 4294967296 ≤ t.pages v) :
    t.pages (t.append v).2 = t.pages v := by
  have inside : pageNumber (t.file v).pages < t.pages v :=
    Nat.lt_of_lt_of_le (Nat.mod_lt _ (by decide)) full
  have room := t.lt_pages_iff.mp inside
  simp only [pages_eq, append, PageFile.append, Volume.content_put, if_true, Content.length_padTo,
    Content.length_clear]
  rw [Nat.max_eq_left]
  · rfl
  · exact room

/-- It takes the place of an old page, which has no tuples any more. -/
theorem load_append_of_full {v : Volume} (full : 4294967296 ≤ t.pages v) :
    ∃ p, t.load (t.append v).2 (t.append v).1 = .ok p ∧ ∀ slot, p.tuple? slot = none := by
  have inside : pageNumber (t.file v).pages < t.pages (t.append v).2 := by
    rw [t.pages_append_of_full full]
    exact Nat.lt_of_lt_of_le (Nat.mod_lt _ (by decide)) full
  refine t.load_of_zeros rfl inside fun position behind before => ?_
  simp only [append, PageFile.append, PageFile.offset, Volume.content_put, if_true, Content.byte_padTo,
    Content.byte_clear]
  exact if_pos ⟨behind, before⟩

theorem pages_le_append (v : Volume) : t.pages v ≤ t.pages (t.append v).2 := by
  rcases Nat.lt_or_ge (t.pages v) 4294967296 with room | full
  · rw [(t.grown_append room).2]
    exact Nat.le_succ _
  · exact Nat.le_of_eq (t.pages_append_of_full full).symm

theorem content_append (v : Volume) {id : TableId} (other : id ≠ t.id) :
    (t.append v).2.content id = v.content id := by
  simp only [append, Volume.content_put, if_neg other]

end Table

end PagedStore
