import Mathlib.Data.Finset.Card
import Mathlib.Data.List.DropRight
import PagedStore.Proofs.Cache.Idle

/-! In a cache in which nothing is changed are the pages that were used last. -/
namespace PagedStore.Cache

/-- The pages used last, at most so many, in the order of their last uses. Of the uses of a page only the last
one counts. -/
def recent (room : Nat) (uses : List PageId) : List PageId :=
  uses.dedup.rtake room

section Recent
variable {room : Nat} {uses : List PageId}

private theorem dedup_concat (uses : List PageId) (page : PageId) :
    (uses ++ [page]).dedup = uses.dedup.erase page ++ [page] := by
  induction uses with
  | nil => rfl
  | cons first uses ih =>
    rw [List.cons_append]
    by_cases again : first ∈ uses
    · rw [List.dedup_cons_of_mem (List.mem_append_left _ again), ih, List.dedup_cons_of_mem again]
    · rw [List.dedup_cons_of_notMem again]
      by_cases same : first = page
      · rw [same, List.dedup_cons_of_mem (by simp), ih, List.erase_cons_head,
          List.erase_of_not_mem fun listed => again (same ▸ List.mem_dedup.mp listed)]
      · rw [List.dedup_cons_of_notMem (by simp [again, same]), ih, List.erase_cons_tail (by simpa using same),
          List.cons_append]

private theorem dedup_eq_append_recent (room : Nat) (uses : List PageId) : ∃ older,
    uses.dedup = older ++ recent room uses ∧
      (older = [] ∧ (recent room uses).length ≤ room ∨ (recent room uses).length = room) := by
  refine ⟨uses.dedup.take (uses.dedup.length - room), (List.take_append_drop _ _).symm, ?_⟩
  rw [recent, List.rtake, List.length_drop, List.take_eq_nil_iff]
  omega

private theorem recent_eq_of_append (older : List PageId) {last : List PageId}
    (split : uses.dedup = older ++ last)
    (fits : older = [] ∧ last.length ≤ room ∨ last.length = room) : recent room uses = last := by
  have behind : uses.dedup.length - room = older.length := by
    rcases fits with ⟨none_left, fits⟩ | full
    · rw [split, none_left, List.nil_append, List.length_nil]
      omega
    · rw [split, List.length_append]
      omega
  rw [recent, List.rtake, behind, split, List.drop_left]

theorem mem_uses_of_mem_recent {page : PageId} (listed : page ∈ recent room uses) : page ∈ uses :=
  List.mem_dedup.mp (List.mem_of_mem_drop listed)

theorem length_recent (room : Nat) (uses : List PageId) :
    (recent room uses).length = min room uses.toFinset.card := by
  rw [List.card_toFinset, recent, List.rtake, List.length_drop]
  omega

/-- With more room no page is left out that was not left out before. -/
theorem recent_subset {more : Nat} (larger : room ≤ more) (uses : List PageId) :
    recent room uses ⊆ recent more uses :=
  List.drop_subset_drop_left _ (Nat.sub_le_sub_left larger _)

variable {page : PageId}

private theorem recent_concat_of_mem (listed : page ∈ recent room uses) :
    recent room (uses ++ [page]) = (recent room uses).erase page ++ [page] := by
  obtain ⟨older, split, fits⟩ := dedup_eq_append_recent room uses
  have apart : page ∉ older := fun old =>
    (List.nodup_append.mp (split ▸ List.nodup_dedup uses)).2.2 page old page listed rfl
  have same : ((recent room uses).erase page ++ [page]).length = (recent room uses).length := by
    have := List.length_pos_of_mem listed
    rw [List.length_append, List.length_erase_of_mem listed, List.length_singleton]
    omega
  refine recent_eq_of_append older ?_ (same ▸ fits)
  rw [dedup_concat, split, List.erase_append_right _ apart, List.append_assoc]

private theorem recent_concat_of_space (absent : page ∉ recent room uses)
    (space : (recent room uses).length < room) :
    recent room (uses ++ [page]) = recent room uses ++ [page] := by
  obtain ⟨older, split, ⟨rfl, -⟩ | full⟩ := dedup_eq_append_recent room uses
  · rw [List.nil_append] at split
    refine recent_eq_of_append [] ?_ (.inl ⟨rfl, ?_⟩)
    · rw [dedup_concat, split, List.erase_of_not_mem absent, List.nil_append]
    · rw [List.length_append, List.length_singleton]
      omega
  · omega

private theorem recent_concat_of_full (absent : page ∉ recent room uses) (some_room : 0 < room)
    (full : room ≤ (recent room uses).length) :
    recent room (uses ++ [page]) = (recent room uses).tail ++ [page] := by
  obtain ⟨older, split, fits⟩ := dedup_eq_append_recent room uses
  have all : (recent room uses).length = room := by omega
  obtain ⟨first, others, order⟩ := List.exists_cons_of_length_pos (all.symm ▸ some_room)
  have erased : uses.dedup.erase page = older.erase page ++ recent room uses := by
    rw [split, List.erase_append]
    split
    · rfl
    · rename_i apart
      rw [List.erase_of_not_mem absent, List.erase_of_not_mem apart]
  -- the first of the recent pages is the last of the older ones now
  refine recent_eq_of_append (older.erase page ++ [first]) ?_ (.inr ?_)
  · rw [dedup_concat, erased, order, List.tail_cons]
    simp only [List.append_assoc, List.cons_append, List.nil_append]
  · rw [order, List.length_cons] at all
    rw [order, List.tail_cons, List.length_append, List.length_singleton, all]

end Recent

/-! ### Uses of a cache -/

/-- Whether nothing cached is changed and the pages used last are cached, which may leave in the order of their
last uses. -/
structure Follows (room : Nat) (uses : List PageId) (c : Cache) : Prop where
  idle : c.Idle
  capacity : c.capacity = room
  order : c.recency.order = recent room uses

theorem Follows.empty (room : Nat) : (Cache.empty room).Follows room [] where
  idle := .empty room
  capacity := rfl
  order := by simp [recent, Cache.empty, Recency.empty]

namespace Follows
variable {room : Nat} {uses : List PageId} {c : Cache} (h : c.Follows room uses)
include h

theorem pageIds_eq : c.pageIds = recent room uses := by
  have unpinned : c.frames.keys.filter (· ∈ c.recency.pinned) = [] :=
    List.filter_eq_nil_iff.mpr fun id _ => by simpa using h.idle.unpinned id
  rw [pageIds, unpinned, List.append_nil, h.order]

theorem mem_recent {id : PageId} : id ∈ recent room uses ↔ id ∈ c.frames := by
  rw [← h.order, h.idle.listed]

theorem access {id : PageId} (cached : id ∈ c.frames) : (c.access id).Follows room (uses ++ [id]) where
  idle := h.idle.access cached
  capacity := h.capacity
  order := by rw [Cache.access, recent_concat_of_mem (h.mem_recent.mpr cached), ← h.order, h.idle.order_access]

theorem bringIn {page : Page} (some_room : 0 < room) (absent : page.id ∉ c.frames)
    (clean : page.changedBy = none) : (∃ frame, (c.bringIn page).1 = .ok frame) ∧
      (c.bringIn page).2.Follows room (uses ++ [page.id]) := by
  have older : page.id ∉ recent room uses := fun listed => absent (h.mem_recent.mp listed)
  obtain ⟨frame, left, he, idle, capacity, order⟩ := h.idle.bringIn_eq (h.capacity ▸ some_room) page
  rw [he]
  refine ⟨⟨frame, rfl⟩, idle.insert clean, capacity.trans h.capacity, ?_⟩
  rw [insert, idle.order_access, order, h.idle.size_eq, h.capacity, h.order]
  split
  · rename_i space
    rw [List.erase_of_not_mem older, recent_concat_of_space older space]
  · rename_i full
    rw [List.erase_of_not_mem fun listed => older (List.mem_of_mem_tail listed),
      recent_concat_of_full older some_room (Nat.not_lt.mp full)]

end Follows

end PagedStore.Cache
