import PagedStore.Proofs.Cache
import PagedStore.Proofs.Cache.Recency

/-! A cache in which exactly the changed pages are pinned and all others may leave, and that holds no
more pages than it may. -/
namespace PagedStore.Cache

/-- Whether a cache for so many pages is in order: the pages that may leave, each listed once, and the
pinned ones are the cached ones, and the pinned ones are those that are changed. -/
structure Tidy (room : Nat) (c : Cache) : Prop where
  capacity : c.capacity = room
  fits : c.frames.size ≤ room
  recency : c.recency.Sound
  listed : ∀ id, id ∈ c.frames ↔ id ∈ c.recency.order ∨ id ∈ c.recency.pinned
  pinned : ∀ {id : PageId} {frame : Frame}, c.frames[id]? = some frame →
    (id ∈ c.recency.pinned ↔ frame.page.changedBy ≠ none)

theorem Tidy.empty (room : Nat) : (Cache.empty room).Tidy room where
  capacity := rfl
  fits := Nat.zero_le room
  recency := .empty
  listed id := by simp [Cache.empty, Recency.empty]
  pinned cached := by
    rw [frames_empty] at cached
    cases cached

private theorem size_frames_drop_lt {c : Cache} {id : PageId} (cached : id ∈ c.frames) :
    (c.drop id).frames.size < c.frames.size := by
  have filled : 0 < c.frames.size := by
    rw [← Std.ExtTreeMap.length_keys]
    exact List.length_pos_of_mem (Std.ExtTreeMap.mem_keys.mpr cached)
  obtain ⟨frame, held⟩ := exists_frame_of_mem cached
  rw [Cache.drop, held]
  simp only [Std.ExtTreeMap.size_erase, Std.ExtTreeMap.contains_iff_mem.mpr cached, if_true]
  exact Nat.sub_lt filled Nat.zero_lt_one

namespace Tidy
variable {room : Nat} {c : Cache} (h : c.Tidy room)
include h

theorem clean_of_mem_order {id : PageId} (may : id ∈ c.recency.order) : c.isClean id := by
  have cached : id ∈ c.frames := (h.listed id).mpr (.inl may)
  obtain ⟨frame, held⟩ := exists_frame_of_mem cached
  refine isClean_iff.mpr ⟨frame, held, Classical.not_not.mp fun changed => ?_⟩
  exact h.recency.apart may ((h.pinned held).mpr changed)

omit h in
/-- Where one page may be cached, no other is cached beside it. -/
theorem eq_of_mem {id other : PageId} (h : c.Tidy 1) (cached : id ∈ c.frames) (also : other ∈ c.frames) :
    other = id := by
  have few : c.frames.keys.length ≤ 1 := le_of_eq_of_le Std.ExtTreeMap.length_keys h.fits
  rw [← Std.ExtTreeMap.mem_keys] at cached also
  obtain ⟨only, single⟩ := List.length_eq_one_iff.mp
    (Nat.le_antisymm few (List.length_pos_of_mem cached))
  rw [single, List.mem_singleton] at cached also
  rw [cached, also]

/-! ### Use -/

theorem access {id : PageId} (cached : id ∈ c.frames) : (c.access id).Tidy room where
  capacity := h.capacity
  fits := h.fits
  recency := h.recency.access id
  listed other := by
    simp only [Cache.access, Recency.mem_order_access, Recency.pinned_access, h.listed]
    constructor
    · exact fun known => known.imp_left .inr
    · rintro ((⟨rfl, -⟩ | may) | held)
      · exact (h.listed _).mp cached
      · exact .inl may
      · exact .inr held
  pinned {other frame} held := by
    simp only [Cache.access, Recency.pinned_access]
    exact h.pinned held

/-- A page that a transaction changes is to be pinned. -/
theorem change {id : PageId} (cached : id ∈ c.frames) {change : Page → Page}
    (changed : ∀ page, (change page).changedBy ≠ none) : ((c.modify id change).pin id).Tidy room where
  capacity := h.capacity
  fits := by
    rw [frames_pin, modify, Std.ExtTreeMap.size_modify]
    exact h.fits
  recency := h.recency.pin id
  listed other := by
    rw [frames_pin, mem_frames_modify, h.listed]
    exact (h.recency.known_pin ((h.listed id).mp cached) other).symm
  pinned {other frame} held := by
    rw [frames_pin, frames_modify] at held
    simp only [Cache.pin, modify, Recency.mem_pinned_pin]
    split at held
    · rename_i same
      obtain ⟨old, -, rfl⟩ := Option.map_eq_some_iff.mp held
      exact iff_of_true (.inl same) (changed old.page)
    · rename_i different
      rw [h.pinned held]
      exact or_iff_right different

/-- A page that is as in its file again may leave. -/
theorem settle {id : PageId} (cached : id ∈ c.frames) {change : Page → Page}
    (clean : ∀ page, (change page).changedBy = none) : ((c.modify id change).unpin id).Tidy room where
  capacity := h.capacity
  fits := by
    rw [frames_unpin, modify, Std.ExtTreeMap.size_modify]
    exact h.fits
  recency := h.recency.unpin id
  listed other := by
    rw [frames_unpin, mem_frames_modify, h.listed]
    exact (Recency.known_unpin ((h.listed id).mp cached) other).symm
  pinned {other frame} held := by
    rw [frames_unpin, frames_modify] at held
    simp only [Cache.unpin, modify, Recency.mem_pinned_unpin]
    split at held
    · rename_i same
      obtain ⟨old, -, rfl⟩ := Option.map_eq_some_iff.mp held
      exact iff_of_false (fun pinned => pinned.1 same) fun changed => changed (clean old.page)
    · rename_i different
      rw [h.pinned held]
      exact and_iff_right different

omit h in
/-- A page that may be pinned need not be used before. -/
theorem pin_access {id : PageId} (h : (c.pin id).Tidy room) : (c.access id).pin id = c.pin id := by
  have absent : id ∉ c.recency.order.erase id := fun may =>
    h.recency.apart may (Std.ExtTreeSet.mem_insert_self)
  by_cases held : id ∈ c.recency.pinned
  · rw [Cache.access, Recency.access, if_pos held]
  · rw [Cache.access, Recency.access, if_neg held]
    simp [Cache.pin, Recency.pin, Recency.touch, List.erase_append_right _ absent]

/-! ### Coming and going -/

theorem drop (id : PageId) : (c.drop id).Tidy room where
  capacity := (capacity_drop c id).trans h.capacity
  fits := by
    rw [Cache.drop]
    split
    · exact h.fits
    · exact Nat.le_trans Std.ExtTreeMap.size_erase_le h.fits
  recency := recency_drop c id ▸ h.recency.forget id
  listed other := by
    rw [mem_frames_drop, recency_drop, h.recency.mem_order_forget, Recency.mem_pinned_forget,
      h.listed, and_or_left]
  pinned {other frame} held := by
    rw [frames_drop] at held
    split at held
    · cases held
    · rename_i different
      rw [recency_drop, Recency.mem_pinned_forget, h.pinned held]
      exact and_iff_right different

private theorem insert {page : Page} (absent : page.id ∉ c.frames) (clean : page.changedBy = none)
    (space : c.frames.size < room) : (c.insert page).2.Tidy room where
  capacity := h.capacity
  fits := Nat.le_trans Std.ExtTreeMap.size_insert_le space
  recency := h.recency.access page.id
  listed other := by
    have free : page.id ∉ c.recency.pinned := fun held => absent ((h.listed _).mpr (.inr held))
    simp only [Cache.insert, Recency.mem_order_access, Recency.pinned_access, Std.ExtTreeMap.mem_insert,
      Std.LawfulEqCmp.compare_eq_iff_eq, eq_comm (a := page.id), free, not_false_eq_true, and_true,
      h.listed, or_assoc]
  pinned {other frame} held := by
    rw [frames_insert] at held
    simp only [Cache.insert, Recency.pinned_access]
    split at held
    · rename_i same
      cases held
      refine iff_of_false (fun pinned => absent ?_) fun changed => changed clean
      exact (h.listed _).mpr (.inr (same ▸ pinned))
    · exact h.pinned held

private theorem evict_cases :
    (c.recency.order = [] ∧ c.evict = (.error (.allDirty c.frames.size), c)) ∨
    ∃ id, id ∈ c.frames ∧ c.evict = (.ok (), c.drop id) := by
  cases order : c.recency.order with
  | nil => exact .inl ⟨rfl, evict_of_nil order⟩
  | cons id rest =>
    have may : id ∈ c.recency.order := order ▸ List.mem_cons_self
    exact .inr ⟨id, (h.listed id).mpr (.inl may), evict_of_clean order (h.clean_of_mem_order may)⟩

theorem bringIn {page : Page} (absent : page.id ∉ c.frames) (clean : page.changedBy = none) :
    (c.bringIn page).2.Tidy room := by
  rcases Nat.lt_or_ge c.frames.size c.capacity with space | full
  · rw [bringIn_of_space space]
    exact h.insert absent clean (h.capacity ▸ space)
  · rcases h.evict_cases with ⟨-, he⟩ | ⟨id, cached, he⟩
    · rw [bringIn_of_failed full (congrArg Prod.fst he), he]
      exact h
    · rw [bringIn_of_room full (congrArg Prod.fst he), he]
      have space : (c.drop id).frames.size < room :=
        Nat.lt_of_lt_of_le (size_frames_drop_lt cached) h.fits
      exact (h.drop id).insert (fun kept => absent (mem_frames_drop.mp kept).2) clean space

/-! ### The cached pages -/

/-- The pages that may leave come first, which are clean, and then those that are changed. -/
theorem pageIds_eq : c.pageIds = c.recency.order ++ c.dirtyPages := by
  refine congrArg (c.recency.order ++ ·) (List.filter_congr fun id cached => ?_)
  obtain ⟨frame, held⟩ := exists_frame_of_mem (Std.ExtTreeMap.mem_keys.mp cached)
  simp only [page?, held, h.pinned held, Page.isDirty, Option.map_some, Option.any_some]
  cases frame.page.changedBy <;> rfl

/-- Each cached page is listed once. -/
theorem pageIds_perm : c.pageIds.Perm c.frames.keys := by
  have distinct : c.pageIds.Nodup := by
    refine List.nodup_append.mpr ⟨h.recency.nodup, c.frames.nodup_keys.filter _, ?_⟩
    rintro id may other held rfl
    exact h.recency.apart may (by simpa using (List.mem_filter.mp held).2)
  refine (List.perm_ext_iff_of_nodup distinct c.frames.nodup_keys).mpr fun id => ?_
  rw [pageIds, List.mem_append, List.mem_filter, Std.ExtTreeMap.mem_keys, h.listed, decide_eq_true_iff]
  exact or_congr_right (and_iff_right_of_imp .inr)

end Tidy

end PagedStore.Cache
