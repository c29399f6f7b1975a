import PagedStore.Proofs.Cache
import PagedStore.Proofs.Cache.Recency

/-! A cache in which nothing is changed always has room for one more page. -/
namespace PagedStore.Cache

structure Idle (c : Cache) : Prop where
  clean : ∀ {id : PageId} {frame : Frame}, c.frames[id]? = some frame → frame.page.changedBy = none
  nodup : c.recency.order.Nodup
  unpinned : ∀ id, id ∉ c.recency.pinned
  listed : ∀ id, id ∈ c.recency.order ↔ id ∈ c.frames

theorem Idle.empty (capacity : Nat) : (Cache.empty capacity).Idle := by
  refine ⟨fun held => ?_, List.nodup_nil, fun id => ?_, fun id => ?_⟩
  · rw [frames_empty] at held
    cases held
  · simp [Cache.empty, Recency.empty]
  · simp [Cache.empty, Recency.empty]

namespace Idle
variable {c : Cache} (h : c.Idle)
include h

private theorem recency : c.recency.Sound :=
  ⟨h.nodup, fun {id} _ => h.unpinned id⟩

/-- A page that is used becomes the last one to leave. -/
theorem order_access (id : PageId) : (c.recency.access id).order = c.recency.order.erase id ++ [id] := by
  rw [Recency.access, if_neg (h.unpinned id), Recency.touch]

/-- A use of a cached page leaves the cache idle. -/
theorem access {id : PageId} (cached : id ∈ c.frames) : (c.access id).Idle where
  clean := h.clean
  nodup := (h.recency.access id).nodup
  unpinned other := by
    rw [Cache.access, Recency.pinned_access]
    exact h.unpinned other
  listed other := by
    rw [Cache.access, Recency.mem_order_access, h.listed]
    refine ⟨fun known => ?_, .inr⟩
    rcases known with ⟨rfl, -⟩ | known
    · exact cached
    · exact known

/-- A clean page may be put in. -/
theorem insert {page : Page} (clean : page.changedBy = none) : (c.insert page).2.Idle where
  clean {id frame} held := by
    rw [frames_insert] at held
    split at held
    · cases held
      exact clean
    · exact h.clean held
  nodup := (h.recency.access page.id).nodup
  unpinned other := by
    rw [Cache.insert, Recency.pinned_access]
    exact h.unpinned other
  listed other := by
    simp only [Cache.insert, Recency.mem_order_access, h.unpinned, h.listed, Std.ExtTreeMap.mem_insert,
      Std.LawfulEqCmp.compare_eq_iff_eq, eq_comm (a := page.id), not_false_eq_true, and_true]

private theorem drop (id : PageId) : (c.drop id).Idle where
  clean {other frame} held := by
    rw [frames_drop] at held
    split at held
    · cases held
    · exact h.clean held
  nodup := recency_drop c id ▸ (h.recency.forget id).nodup
  unpinned other pinned := by
    rw [recency_drop, Recency.mem_pinned_forget] at pinned
    exact h.unpinned other pinned.2
  listed other := by
    rw [recency_drop, h.recency.mem_order_forget, h.listed, mem_frames_drop]

theorem dirtyPagesOf_eq_nil (txn : TxnId) : c.dirtyPagesOf txn = [] := by
  refine List.eq_nil_iff_forall_not_mem.mpr fun id changed => ?_
  obtain ⟨frame, cached, changed⟩ := mem_dirtyPagesOf.mp changed
  rw [h.clean cached] at changed
  cases changed

/-- Each cached page is listed once. -/
theorem size_eq : c.frames.size = c.recency.order.length := by
  have listed : c.frames.keys.Perm c.recency.order :=
    (List.perm_ext_iff_of_nodup c.frames.nodup_keys h.nodup).mpr fun id =>
      Std.ExtTreeMap.mem_keys.trans (h.listed id).symm
  rw [← Std.ExtTreeMap.length_keys, listed.length_eq]

private theorem evict_eq (filled : 0 < c.frames.size) :
    ∃ id others, c.recency.order = id :: others ∧ c.evict = (.ok (), c.drop id) := by
  rw [h.size_eq] at filled
  obtain ⟨id, others, order⟩ := List.exists_cons_of_length_pos filled
  obtain ⟨frame, cached⟩ := exists_frame_of_mem ((h.listed id).mp (order ▸ List.mem_cons_self))
  exact ⟨id, others, order, evict_of_clean order (isClean_iff.mpr ⟨frame, cached, h.clean cached⟩)⟩

/-- A page brought in is the most recently used one. Where the cache is full, the least recently used one makes
room for it. -/
theorem bringIn_eq (room : 0 < c.capacity) (page : Page) : ∃ (frame : Frame) (left : Cache),
    c.bringIn page = (.ok frame, (left.insert page).2) ∧ left.Idle ∧ left.capacity = c.capacity ∧
      left.recency.order =
        if c.frames.size < c.capacity then c.recency.order else c.recency.order.tail := by
  split
  · rename_i space
    exact ⟨_, c, bringIn_of_space space page, h, rfl, rfl⟩
  · rename_i full
    have full := Nat.not_lt.mp full
    obtain ⟨id, others, order, he⟩ := h.evict_eq (Nat.lt_of_lt_of_le room full)
    refine ⟨_, c.evict.2, bringIn_of_room full (congrArg Prod.fst he) page, ?_, ?_, ?_⟩
    · exact he ▸ h.drop id
    · exact he ▸ capacity_drop c id
    · rw [he, recency_drop, Recency.forget, order, List.erase_cons_head, List.tail_cons]

/-- A clean page can be brought into a cache that is not of no size. -/
theorem bringIn (room : 0 < c.capacity) {page : Page} (clean : page.changedBy = none) :
    (∃ frame, (c.bringIn page).1 = .ok frame) ∧ (c.bringIn page).2.Idle ∧
      (c.bringIn page).2.capacity = c.capacity := by
  obtain ⟨frame, left, he, idle, capacity, -⟩ := h.bringIn_eq room page
  rw [he]
  exact ⟨⟨frame, rfl⟩, idle.insert clean, capacity⟩

end Idle

end PagedStore.Cache
