import PagedStore.Cache
import PagedStore.Proofs.Page.Image

/-! What operations on a cache do to the cached pages. Only clean pages leave to make room. -/
namespace PagedStore.Cache

theorem page?_eq_some_iff {c : Cache} {id : PageId} {page : Page} :
    c.page? id = some page ↔ ∃ frame, c.frames[id]? = some frame ∧ frame.page = page := by
  simp [page?]

theorem isClean_iff {c : Cache} {id : PageId} :
    c.isClean id ↔ ∃ frame, c.frames[id]? = some frame ∧ frame.page.changedBy = none := by
  simp only [isClean, page?]
  cases c.frames[id]? <;> simp [Page.isDirty]

@[simp] theorem frames_empty (capacity : Nat) (id : PageId) : (empty capacity).frames[id]? = none := by
  simp [empty]

@[simp] theorem frames_access (c : Cache) (id : PageId) : (c.access id).frames = c.frames :=
  rfl

@[simp] theorem frames_pin (c : Cache) (id : PageId) : (c.pin id).frames = c.frames :=
  rfl

@[simp] theorem frames_unpin (c : Cache) (id : PageId) : (c.unpin id).frames = c.frames :=
  rfl

theorem frames_modify (c : Cache) (id : PageId) (change : Page → Page) (other : PageId) :
    (c.modify id change).frames[other]? = if other = id then
      c.frames[other]?.map fun frame => { frame with page := change frame.page }
      else c.frames[other]? := by
  simp only [modify, Std.ExtTreeMap.getElem?_modify, Std.LawfulEqCmp.compare_eq_iff_eq]
  by_cases here : id = other
  · subst here
    simp
  · rw [if_neg here, if_neg (Ne.symm here)]

/-- A change of a cached page that is known puts a page that is known. -/
theorem modify_eq_of_cached {c : Cache} {id : PageId} {frame : Frame} {change : Page → Page}
    (cached : c.frames[id]? = some frame) : c.modify id change = c.modify id fun _ => change frame.page := by
  refine congrArg (fun frames => { c with frames := frames }) (Std.ExtTreeMap.ext_getElem? fun other => ?_)
  have same := c.frames_modify id change other
  have same' := c.frames_modify id (fun _ => change frame.page) other
  simp only [modify] at same same'
  rw [same, same']
  split
  · rename_i here
    rw [here, cached]
    rfl
  · rfl

private theorem modify_eq_self {c : Cache} {id : PageId} {frame : Frame} {change : Page → Page}
    (cached : c.frames[id]? = some frame) (same : change frame.page = frame.page) :
    c.modify id change = c := by
  refine congrArg (fun frames => { c with frames := frames }) (Std.ExtTreeMap.ext_getElem? fun other => ?_)
  refine (c.frames_modify id change other).trans ?_
  split
  · rename_i here
    rw [here, cached, Option.map_some, same]
  · rfl

theorem frames_drop (c : Cache) (id other : PageId) :
    (c.drop id).frames[other]? = if other = id then none else c.frames[other]? := by
  rw [drop]
  split
  · rename_i absent
    split
    · rename_i here
      rw [here]
      exact absent
    · rfl
  · simp only [Std.ExtTreeMap.getElem?_erase, Std.LawfulEqCmp.compare_eq_iff_eq, eq_comm (a := id)]

@[simp] theorem recency_drop (c : Cache) (id : PageId) :
    (c.drop id).recency = c.recency.forget id := by
  rw [drop]
  split <;> rfl

@[simp] theorem capacity_drop (c : Cache) (id : PageId) : (c.drop id).capacity = c.capacity := by
  rw [drop]
  split <;> rfl

@[simp] theorem nextSerial_drop (c : Cache) (id : PageId) : (c.drop id).nextSerial = c.nextSerial := by
  rw [drop]
  split <;> rfl

theorem frames_insert (c : Cache) (page : Page) (other : PageId) :
    (c.insert page).2.frames[other]? =
      if other = page.id then some (c.insert page).1 else c.frames[other]? := by
  simp only [insert, Std.ExtTreeMap.getElem?_insert, Std.LawfulEqCmp.compare_eq_iff_eq,
    eq_comm (a := page.id)]

theorem frames_modifyHeld (c : Cache) (h : Handle) (change : Page → Page) (other : PageId) :
    (c.modifyHeld h change).frames[other]? = if c.isCurrent h ∧ other = h.page then
      c.frames[other]?.map fun frame => { frame with page := change frame.page }
      else c.frames[other]? := by
  rw [modifyHeld]
  by_cases current : c.isCurrent h
  · simp only [current, if_true, frames_modify, true_and]
  · simp only [current, if_false, false_and, Bool.false_eq_true]

/-- A changed copy that is the cached one stays so; it is used and pinned. -/
theorem keepChanged_of_current {c : Cache} {h : Handle} {txn : TxnId} {frame : Frame}
    (cached : c.frames[h.page]? = some frame) (serial : frame.serial = h.serial)
    (changed : frame.page.changedBy = some txn) :
    c.keepChanged h txn = (.ok (), (c.access h.page).pin h.page) := by
  have current : c.isCurrent h := by
    rw [isCurrent, cached, Option.any_some, serial, decide_eq_true rfl]
  have marked : c.modifyHeld h (fun page => page.changed txn) = c := by
    rw [modifyHeld, if_pos current]
    exact modify_eq_self cached (by rw [Page.changed, ← changed])
  have held : c.held? h = some frame.page := by
    rw [held?, if_pos current, page?, cached, Option.map_some]
  simp only [keepChanged, marked, held, if_pos current]

/-- A page is cached where a copy of it is. -/
theorem mem_frames_of_eq {c : Cache} {id : PageId} {frame : Frame}
    (cached : c.frames[id]? = some frame) : id ∈ c.frames := by
  rw [Std.ExtTreeMap.mem_iff_isSome_getElem?, cached]
  rfl

theorem exists_frame_of_mem {c : Cache} {id : PageId} (cached : id ∈ c.frames) :
    ∃ frame, c.frames[id]? = some frame :=
  Option.isSome_iff_exists.mp (Std.ExtTreeMap.mem_iff_isSome_getElem?.mp cached)

theorem mem_frames_modify {c : Cache} {id other : PageId} {change : Page → Page} :
    other ∈ (c.modify id change).frames ↔ other ∈ c.frames :=
  Std.ExtTreeMap.mem_modify

theorem mem_frames_drop {c : Cache} {id other : PageId} :
    other ∈ (c.drop id).frames ↔ other ≠ id ∧ other ∈ c.frames := by
  simp only [Std.ExtTreeMap.mem_iff_isSome_getElem?, frames_drop]
  by_cases same : other = id <;> simp [same]

theorem mem_dirtyPagesOf {c : Cache} {txn : TxnId} {id : PageId} :
    id ∈ c.dirtyPagesOf txn ↔
      ∃ frame, c.frames[id]? = some frame ∧ frame.page.changedBy = some txn := by
  simp only [dirtyPagesOf, page?, List.mem_filter, Std.ExtTreeMap.mem_keys,
    Std.ExtTreeMap.mem_iff_isSome_getElem?]
  cases c.frames[id]? <;> simp

theorem mem_dirtyPages {c : Cache} {id : PageId} :
    id ∈ c.dirtyPages ↔ ∃ frame, c.frames[id]? = some frame ∧ frame.page.changedBy ≠ none := by
  simp only [dirtyPages, page?, List.mem_filter, Std.ExtTreeMap.mem_keys,
    Std.ExtTreeMap.mem_iff_isSome_getElem?]
  cases c.frames[id]? <;> simp [Page.isDirty, Option.isSome_iff_ne_none]

theorem nodup_dirtyPagesOf (c : Cache) (txn : TxnId) : (c.dirtyPagesOf txn).Nodup :=
  c.frames.nodup_keys.filter _

/-! ### Making room -/

/-- Where no page may leave, none does. -/
theorem evict_of_nil {c : Cache} (order : c.recency.order = []) :
    c.evict = (.error (.allDirty c.frames.size), c) := by
  simp [evict, order]

/-- The page next to leave does so if it is clean. -/
theorem evict_of_clean {c : Cache} {id : PageId} {others : List PageId}
    (order : c.recency.order = id :: others) (clean : c.isClean id) :
    c.evict = (.ok (), c.drop id) := by
  simp [evict, order, clean]

theorem order_pin_head {c : Cache} {id : PageId} {others : List PageId}
    (order : c.recency.order = id :: others) : (c.pin id).recency.order = others := by
  rw [pin, Recency.pin, order, List.erase_cons_head]

/-- If it is dirty it is pinned, and the others are next. -/
theorem evict_of_dirty {c : Cache} {id : PageId} {others : List PageId}
    (order : c.recency.order = id :: others) (dirty : ¬ c.isClean id) :
    c.evict = (c.pin id).evict := by
  have passed : (id :: others).takeWhile (fun id => !c.isClean id) =
      id :: others.takeWhile fun id => !c.isClean id := List.takeWhile_cons_of_pos (by simpa using dirty)
  rw [evict, evict, order_pin_head order, order, passed]
  rfl

/-- Follows the pages that are passed over, up to one that leaves or until none is left. -/
@[elab_as_elim] theorem evict_induction {motive : Cache → Prop}
    (none : ∀ c, c.recency.order = [] → motive c)
    (clean : ∀ c id others, c.recency.order = id :: others → c.isClean id → motive c)
    (dirty : ∀ c id others, c.recency.order = id :: others → ¬ c.isClean id → motive (c.pin id) → motive c)
    (c : Cache) : motive c := by
  generalize order : c.recency.order = ids
  induction ids generalizing c with
  | nil => exact none c order
  | cons id others ih =>
    by_cases leaves : c.isClean id
    · exact clean c id others order leaves
    · exact dirty c id others order leaves (ih _ (order_pin_head order))

/-- Where a clean page may leave, the first one does; all other pages stay. -/
theorem evict_cases (c : Cache) :
    (c.evict.1 = .error (.allDirty c.frames.size) ∧ c.evict.2.frames = c.frames ∧
      ∀ id ∈ c.recency.order, ¬ c.isClean id) ∨
    ∃ victim, c.isClean victim ∧ c.evict.1 = .ok () ∧
      ∀ other, c.evict.2.frames[other]? = if other = victim then none else c.frames[other]? := by
  induction c using evict_induction with
  | none c order =>
    rw [evict_of_nil order, order]
    exact .inl ⟨rfl, rfl, fun id listed => absurd listed List.not_mem_nil⟩
  | clean c id others order clean =>
    rw [evict_of_clean order clean]
    exact .inr ⟨id, clean, rfl, c.frames_drop id⟩
  | dirty c id others order dirty ih =>
    rw [evict_of_dirty order dirty]
    refine ih.imp_left fun ⟨failed, frames, rest⟩ => ⟨failed, frames, ?_⟩
    rw [order_pin_head order] at rest
    rw [order]
    exact List.forall_mem_cons.mpr ⟨dirty, rest⟩

section BringIn
variable {c : Cache}

theorem bringIn_of_space (space : c.frames.size < c.capacity) (page : Page) :
    c.bringIn page = (.ok (c.insert page).1, (c.insert page).2) := by
  rw [bringIn, makeRoom, if_neg (Nat.not_le.mpr space)]

theorem bringIn_of_room (full : c.capacity ≤ c.frames.size) (room : c.evict.1 = .ok ()) (page : Page) :
    c.bringIn page = (.ok (c.evict.2.insert page).1, (c.evict.2.insert page).2) := by
  have he : c.evict = (.ok (), c.evict.2) := Prod.ext room rfl
  rw [bringIn, makeRoom, if_pos full, he]

theorem bringIn_of_failed (full : c.capacity ≤ c.frames.size) {fault : Fault}
    (failed : c.evict.1 = .error fault) (page : Page) : c.bringIn page = (.error fault, c.evict.2) := by
  have he : c.evict = (.error fault, c.evict.2) := Prod.ext failed rfl
  rw [bringIn, makeRoom, if_pos full, he]

end BringIn

/-- A page brought in is cached as it is given. Of the other pages only a clean one may leave; where
none can, all stay. -/
theorem bringIn_cases (c : Cache) (page : Page) :
    ((c.bringIn page).1 = .error (.allDirty c.frames.size) ∧ (c.bringIn page).2.frames = c.frames) ∨
    ∃ frame, (c.bringIn page).1 = .ok frame ∧ frame.page = page ∧
      (c.bringIn page).2.frames[page.id]? = some frame ∧
      ∀ other, other ≠ page.id → (c.bringIn page).2.frames[other]? = c.frames[other]? ∨
        c.isClean other ∧ (c.bringIn page).2.frames[other]? = none := by
  rcases Nat.lt_or_ge c.frames.size c.capacity with space | full
  · rw [bringIn_of_space space]
    refine .inr ⟨_, rfl, rfl, ?_, fun other different => .inl ?_⟩
    · simp only [frames_insert, if_true]
    · simp only [frames_insert, if_neg different]
  · rcases c.evict_cases with ⟨failed, frames, -⟩ | ⟨victim, clean, room, frames⟩
    · rw [bringIn_of_failed full failed]
      exact .inl ⟨rfl, frames⟩
    · rw [bringIn_of_room full room]
      refine .inr ⟨_, rfl, rfl, ?_, fun other different => ?_⟩
      · simp only [frames_insert, if_true]
      · simp only [frames_insert, if_neg different, frames]
        split
        · rename_i gone
          exact .inr ⟨gone ▸ clean, rfl⟩
        · exact .inl rfl

private theorem size_insert {c : Cache} {page : Page} (absent : page.id ∉ c.frames) :
    (c.insert page).2.frames.size = c.frames.size + 1 := by
  rw [insert, Std.ExtTreeMap.size_insert]
  exact if_neg absent

/-- A cache gets no smaller by a page that is brought in. -/
theorem size_le_bringIn {c : Cache} {page : Page} (absent : c.frames[page.id]? = none) :
    c.frames.size ≤ (c.bringIn page).2.frames.size := by
  have absent : page.id ∉ c.frames := by
    rw [Std.ExtTreeMap.mem_iff_isSome_getElem?, absent]
    exact Bool.false_ne_true
  rcases Nat.lt_or_ge c.frames.size c.capacity with space | full
  · rw [bringIn_of_space space, size_insert absent]
    exact Nat.le_succ _
  · rcases c.evict_cases with ⟨failed, frames, -⟩ | ⟨victim, -, room, frames⟩
    · rw [bringIn_of_failed full failed]
      exact Nat.le_of_eq (congrArg _ frames.symm)
    · have frames : c.evict.2.frames = c.frames.erase victim := by
        refine Std.ExtTreeMap.ext_getElem? fun other => ?_
        rw [frames, Std.ExtTreeMap.getElem?_erase]
        simp only [Std.LawfulEqCmp.compare_eq_iff_eq, eq_comm (a := victim)]
      have absent : page.id ∉ c.evict.2.frames := by
        rw [frames]
        exact fun h => absent (Std.ExtTreeMap.mem_of_mem_erase h)
      rw [bringIn_of_room full room, size_insert absent, frames]
      exact Std.ExtTreeMap.size_le_size_erase

/-- A cache that has no clean page to give up has pinned all that were next to leave. -/
private theorem evict_eq_error {c : Cache} {fault : Fault} (failed : c.evict.1 = .error fault) :
    c.evict.2.recency.order = [] ∧ c.evict.2.capacity = c.capacity ∧
      fault = .allDirty c.evict.2.frames.size := by
  induction c using evict_induction with
  | none c order =>
    rw [evict_of_nil order] at failed ⊢
    cases failed
    exact ⟨order, rfl, rfl⟩
  | clean c id others order clean =>
    rw [evict_of_clean order clean] at failed
    cases failed
  | dirty c id others order dirty ih =>
    rw [evict_of_dirty order dirty] at failed ⊢
    exact ih failed

private theorem evict_again {c : Cache} {fault : Fault} (failed : c.evict.1 = .error fault) :
    c.evict.2.evict.1 = .error fault ∧ c.evict.2.capacity = c.capacity ∧
      c.evict.2.frames = c.frames := by
  obtain ⟨order, capacity, rfl⟩ := evict_eq_error failed
  rcases c.evict_cases with ⟨-, frames, -⟩ | ⟨_, -, room, -⟩
  · exact ⟨congrArg Prod.fst (evict_of_nil order), capacity, frames⟩
  · rw [room] at failed
    cases failed

theorem bringIn_again {c : Cache} {page : Page} {fault : Fault}
    (failed : (c.bringIn page).1 = .error fault) :
    ((c.bringIn page).2.bringIn page).1 = .error fault := by
  rcases Nat.lt_or_ge c.frames.size c.capacity with space | full
  · rw [bringIn_of_space space] at failed
    cases failed
  · cases he : c.evict.1 with
    | ok done =>
      rw [bringIn_of_room full he] at failed
      cases failed
    | error cause =>
      obtain ⟨again, capacity, frames⟩ := evict_again he
      have full' : c.evict.2.capacity ≤ c.evict.2.frames.size := by
        rw [capacity, frames]
        exact full
      rw [bringIn_of_failed full he] at failed ⊢
      rw [bringIn_of_failed full' again]
      exact failed

end PagedStore.Cache
