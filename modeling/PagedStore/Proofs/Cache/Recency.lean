import PagedStore.Cache.Recency

/-! Which pages may leave after each use or pin, each listed once. -/
namespace PagedStore.Recency

section Members
variable (r : Recency) (page other : PageId)

private theorem mem_order_touch : other ∈ (r.touch page).order ↔ other = page ∨ other ∈ r.order := by
  rw [touch, List.mem_append, List.mem_singleton]
  by_cases same : other = page
  · simp only [same, or_true, true_or]
  · simp only [List.mem_erase_of_ne same, same, or_false, false_or]

@[simp] theorem pinned_access : (r.access page).pinned = r.pinned := by
  rw [access]
  split <;> rfl

theorem mem_order_access :
    other ∈ (r.access page).order ↔ other = page ∧ page ∉ r.pinned ∨ other ∈ r.order := by
  rw [access]
  split
  · rename_i held
    simp only [held, not_true, and_false, false_or]
  · rename_i free
    simp only [mem_order_touch, free, not_false_eq_true, and_true]

theorem mem_pinned_pin : other ∈ (r.pin page).pinned ↔ other = page ∨ other ∈ r.pinned := by
  simp only [pin, Std.ExtTreeSet.mem_insert, Std.LawfulEqCmp.compare_eq_iff_eq, eq_comm (a := page)]

private theorem mem_order_unpin : other ∈ (r.unpin page).order ↔ other = page ∨ other ∈ r.order :=
  mem_order_touch _ page other

theorem mem_pinned_unpin : other ∈ (r.unpin page).pinned ↔ other ≠ page ∧ other ∈ r.pinned := by
  simp only [unpin, touch, Std.ExtTreeSet.mem_erase, ne_eq, Std.LawfulEqCmp.compare_eq_iff_eq,
    eq_comm (a := page)]

theorem mem_pinned_forget : other ∈ (r.forget page).pinned ↔ other ≠ page ∧ other ∈ r.pinned := by
  simp only [forget, Std.ExtTreeSet.mem_erase, ne_eq, Std.LawfulEqCmp.compare_eq_iff_eq,
    eq_comm (a := page)]

end Members

/-- Letting a page leave makes no other page known or unknown. -/
theorem known_unpin {r : Recency} {page : PageId} (known : page ∈ r.order ∨ page ∈ r.pinned)
    (other : PageId) :
    other ∈ (r.unpin page).order ∨ other ∈ (r.unpin page).pinned ↔ other ∈ r.order ∨ other ∈ r.pinned := by
  rw [mem_order_unpin, mem_pinned_unpin]
  by_cases same : other = page
  · subst same
    simp only [known, true_or]
  · simp only [same, ne_eq, not_false_eq_true, true_and, false_or]

private theorem nodup_touch {r : Recency} (h : r.order.Nodup) (page : PageId) : (r.touch page).order.Nodup := by
  refine List.nodup_append.mpr ⟨h.erase page, List.nodup_cons.mpr ⟨by simp, List.nodup_nil⟩, ?_⟩
  intro other kept last listed same
  rw [List.mem_singleton.mp listed] at same
  exact (h.mem_erase_iff.mp kept).1 same

/-- Whether the pages that may leave are listed once each, and are none of those that may not. -/
structure Sound (r : Recency) : Prop where
  nodup : r.order.Nodup
  apart : ∀ {page}, page ∈ r.order → page ∉ r.pinned

namespace Sound

theorem empty : Recency.empty.Sound where
  nodup := List.nodup_nil
  apart listed := absurd listed List.not_mem_nil

variable {r : Recency} (h : r.Sound)
include h

private theorem mem_order_pin {page other : PageId} :
    other ∈ (r.pin page).order ↔ other ≠ page ∧ other ∈ r.order :=
  h.nodup.mem_erase_iff

theorem mem_order_forget {page other : PageId} :
    other ∈ (r.forget page).order ↔ other ≠ page ∧ other ∈ r.order :=
  h.nodup.mem_erase_iff

/-- Pinning a page makes no other page known or unknown. -/
theorem known_pin {page : PageId} (known : page ∈ r.order ∨ page ∈ r.pinned) (other : PageId) :
    other ∈ (r.pin page).order ∨ other ∈ (r.pin page).pinned ↔ other ∈ r.order ∨ other ∈ r.pinned := by
  rw [h.mem_order_pin, mem_pinned_pin]
  by_cases same : other = page
  · subst same
    simp only [known, true_or, or_true]
  · simp only [same, ne_eq, not_false_eq_true, true_and, false_or]

theorem access (page : PageId) : (r.access page).Sound where
  nodup := by
    rw [Recency.access]
    split
    · exact h.nodup
    · exact nodup_touch h.nodup page
  apart listed := by
    rw [pinned_access]
    rcases (mem_order_access r page _).mp listed with ⟨rfl, free⟩ | before
    · exact free
    · exact h.apart before

theorem pin (page : PageId) : (r.pin page).Sound where
  nodup := h.nodup.erase page
  apart listed held := by
    obtain ⟨different, before⟩ := h.mem_order_pin.mp listed
    exact h.apart before (((mem_pinned_pin r page _).mp held).resolve_left different)

theorem unpin (page : PageId) : (r.unpin page).Sound where
  nodup := nodup_touch h.nodup page
  apart listed held := by
    obtain ⟨different, held⟩ := (mem_pinned_unpin r page _).mp held
    exact h.apart (((mem_order_unpin r page _).mp listed).resolve_left different) held

theorem forget (page : PageId) : (r.forget page).Sound where
  nodup := h.nodup.erase page
  apart listed held :=
    h.apart (h.mem_order_forget.mp listed).2 ((mem_pinned_forget r page _).mp held).2

section Head
variable {page : PageId} {others : List PageId} (order : r.order = page :: others)
include order

/-- Nothing is left of a page that was taken out to leave. -/
theorem forget_eq : r.forget page = { r with order := others } := by
  have free : page ∉ r.pinned := h.apart (order ▸ List.mem_cons_self)
  have kept : r.pinned.erase page = r.pinned := by
    apply Std.ExtTreeSet.ext_mem
    intro other
    refine (mem_pinned_forget r page other).trans ?_
    exact and_iff_right_of_imp fun held same => free (same ▸ held)
  rw [Recency.forget, order, List.erase_cons_head, kept]

/-- It makes no difference to a page that is pinned whether it was taken out before. -/
theorem pin_eq : ({ r with order := others } : Recency).pin page = r.pin page := by
  have once : page ∉ others := (List.nodup_cons.mp (order ▸ h.nodup)).1
  rw [Recency.pin, Recency.pin, order, List.erase_of_not_mem once, List.erase_cons_head]

end Head

end Sound

end PagedStore.Recency
