import PagedStore.Proofs.Cache.Tidy

/-! Making room in a cache whose pages may be changed without being pinned. The page that leaves is the least
recently used one of those that may leave and are clean. -/
namespace PagedStore.Cache

/-- Whether the pages that may leave, each listed once, and the pinned ones are the cached ones, and the pinned
ones are dirty. Those that may leave may be dirty too. -/
structure Accounted (c : Cache) : Prop where
  recency : c.recency.Sound
  listed : ∀ id, id ∈ c.frames ↔ id ∈ c.recency.order ∨ id ∈ c.recency.pinned
  pinned : ∀ id ∈ c.recency.pinned, id ∈ c.dirtyPages

private theorem Tidy.accounted {room : Nat} {c : Cache} (h : c.Tidy room) : c.Accounted where
  recency := h.recency
  listed := h.listed
  pinned id held := by
    obtain ⟨frame, cached⟩ := exists_frame_of_mem ((h.listed id).mpr (.inr held))
    exact mem_dirtyPages.mpr ⟨frame, cached, (h.pinned cached).mp held⟩

private theorem mem_dirtyPages_iff {c : Cache} {id : PageId} :
    id ∈ c.dirtyPages ↔ id ∈ c.frames ∧ ¬ c.isClean id := by
  rw [mem_dirtyPages, isClean_iff, Std.ExtTreeMap.mem_iff_isSome_getElem?]
  cases c.frames[id]? <;> simp

namespace Accounted
variable {c : Cache} (h : c.Accounted)
include h

private theorem changed (handle : Handle) {change : Page → Page}
    (changed : ∀ page, (change page).changedBy ≠ none) :
    (c.modifyHeld handle change).Accounted := by
  have recency : (c.modifyHeld handle change).recency = c.recency := by
    rw [modifyHeld]
    split <;> rfl
  refine ⟨recency ▸ h.recency, fun id => ?_, fun id held => ?_⟩
  · rw [recency, ← h.listed, modifyHeld]
    split
    · exact mem_frames_modify
    · rfl
  · rw [recency] at held
    obtain ⟨frame, cached, dirty⟩ := mem_dirtyPages.mp (h.pinned id held)
    rw [mem_dirtyPages, frames_modifyHeld]
    split
    · exact ⟨_, congrArg _ cached, changed frame.page⟩
    · exact ⟨frame, cached, dirty⟩

private theorem mem_frames {id : PageId} (may : id ∈ c.recency.order) : id ∈ c.frames :=
  (h.listed id).mpr (.inl may)

/-- A page that is passed over was dirty, so that it is one of those to be pinned. -/
private theorem pin {id : PageId} (may : id ∈ c.recency.order) (dirty : ¬ c.isClean id) :
    (c.pin id).Accounted where
  recency := h.recency.pin id
  listed other := by
    rw [frames_pin, h.listed]
    exact (h.recency.known_pin (.inl may) other).symm
  pinned other held := by
    rcases (Recency.mem_pinned_pin _ _ _).mp held with rfl | before
    · exact mem_dirtyPages_iff.mpr ⟨h.mem_frames may, dirty⟩
    · exact h.pinned other before

end Accounted

/-! ### Turn by turn -/

/-- Makes room in so many turns at most. Each takes out the least recently used of the pages that may leave, which
leaves if it is clean. A dirty one is pinned, and one that is not cached is passed over. -/
def evictWithin : Nat → Cache → Option (Except Fault Unit × Cache)
  | 0, _ => none
  | turns + 1, c =>
    match c.recency.victim with
    | (none, _) => some (.error (.allDirty c.frames.size), c)
    | (some id, recency) =>
      let c := { c with recency }
      match c.frames[id]? with
      | none => evictWithin turns c
      | some frame =>
        if frame.page.isDirty then evictWithin turns (c.pin id)
        else some (.ok (), { c with
          frames := c.frames.erase id
          loose := c.loose.insert frame.serial frame.page })

private theorem Accounted.evictWithin_eq {c : Cache} (h : c.Accounted) {turns : Nat}
    (enough : c.recency.order.length < turns) : c.evictWithin turns = some c.evict := by
  induction c using evict_induction generalizing turns with
  | none c order =>
    obtain ⟨turns, rfl⟩ := Nat.exists_eq_add_one_of_ne_zero (Nat.ne_zero_of_lt enough)
    simp only [evictWithin, Recency.victim, order, evict_of_nil order]
  | clean c id others order clean =>
    obtain ⟨turns, rfl⟩ := Nat.exists_eq_add_one_of_ne_zero (Nat.ne_zero_of_lt enough)
    obtain ⟨frame, cached, unchanged⟩ := isClean_iff.mp clean
    have left := h.recency.forget_eq order
    simp [evictWithin, Recency.victim, order, cached, Page.isDirty, unchanged, evict_of_clean order clean,
      drop, left]
  | dirty c id others order dirty ih =>
    obtain ⟨turns, rfl⟩ := Nat.exists_eq_add_one_of_ne_zero (Nat.ne_zero_of_lt enough)
    have may : id ∈ c.recency.order := order ▸ List.mem_cons_self
    obtain ⟨frame, cached, changed⟩ := mem_dirtyPages.mp (mem_dirtyPages_iff.mpr ⟨h.mem_frames may, dirty⟩)
    have pinned : Cache.pin { c with recency := { c.recency with order := others } } id = c.pin id := by
      simp only [Cache.pin, h.recency.pin_eq order]
    have fewer : (c.pin id).recency.order.length < turns := by
      rw [order, List.length_cons] at enough
      rw [order_pin_head order]
      omega
    rw [evict_of_dirty order dirty, ← ih (h.pin may dirty) fewer, ← pinned]
    simp [evictWithin, Recency.victim, order, cached, Page.isDirty, Option.isSome_iff_ne_none.mpr changed]

/-! ### Which page leaves -/

/-- Whether room was made by a clean page that was next to leave after so many dirty ones. These are pinned, and
the others may leave as before. -/
structure Vacated (c after : Cache) (passed : List PageId) (victim : PageId) (others : List PageId) : Prop where
  order_eq : c.recency.order = passed ++ victim :: others
  dirty : ∀ id ∈ passed, id ∈ c.dirtyPages
  clean : c.isClean victim
  frames_eq : after.frames = c.frames.erase victim
  order_after : after.recency.order = others
  pinned_after : ∀ id, id ∈ after.recency.pinned ↔ id ∈ c.recency.pinned ∨ id ∈ passed

structure Stuck (c after : Cache) : Prop where
  frames_eq : after.frames = c.frames
  order_after : after.recency.order = []
  pinned_after : ∀ id, id ∈ after.recency.pinned ↔ id ∈ c.frames

namespace Accounted
variable {c : Cache} (h : c.Accounted)
include h

private theorem vacated (some : ∃ id ∈ c.recency.order, c.isClean id) :
    c.evict.1 = .ok () ∧ ∃ passed victim others, Vacated c c.evict.2 passed victim others := by
  induction c using evict_induction with
  | none c order =>
    obtain ⟨id, may, -⟩ := some
    rw [order] at may
    cases may
  | clean c id others order clean =>
    obtain ⟨frame, cached, -⟩ := isClean_iff.mp clean
    rw [evict_of_clean order clean]
    refine ⟨rfl, [], id, others, order, fun _ none => absurd none List.not_mem_nil, clean, ?_, ?_,
      fun other => ?_⟩
    · simp only [drop, cached]
    · rw [recency_drop, h.recency.forget_eq order]
    · rw [recency_drop, h.recency.forget_eq order]
      simp
  | dirty c id others order dirty ih =>
    have may : id ∈ c.recency.order := order ▸ List.mem_cons_self
    have some' : ∃ id' ∈ (c.pin id).recency.order, (c.pin id).isClean id' := by
      obtain ⟨other, listed, clean⟩ := some
      rw [order_pin_head order]
      have different : other ≠ id := fun same => dirty (same ▸ clean)
      rw [order] at listed
      exact ⟨other, List.mem_of_ne_of_mem different listed, clean⟩
    obtain ⟨room, passed, victim, rest, left⟩ := ih (h.pin may dirty) some'
    rw [evict_of_dirty order dirty]
    refine ⟨room, id :: passed, victim, rest, ?_, ?_, left.clean, left.frames_eq, left.order_after,
      fun other => ?_⟩
    · rw [order, List.cons_append, ← left.order_eq, order_pin_head order]
    · exact List.forall_mem_cons.mpr ⟨mem_dirtyPages_iff.mpr ⟨h.mem_frames may, dirty⟩, left.dirty⟩
    · rw [left.pinned_after, List.mem_cons, Cache.pin, Recency.mem_pinned_pin]
      exact or_assoc.trans or_left_comm

private theorem stuck {fault : Fault} (failed : c.evict.1 = .error fault) :
    fault = .allDirty c.frames.size ∧ Stuck c c.evict.2 := by
  induction c using evict_induction with
  | none c order =>
    rw [evict_of_nil order] at failed ⊢
    cases failed
    refine ⟨rfl, rfl, order, fun id => ?_⟩
    rw [h.listed, order]
    exact (or_iff_right List.not_mem_nil).symm
  | clean c id others order clean =>
    rw [evict_of_clean order clean] at failed
    cases failed
  | dirty c id others order dirty ih =>
    rw [evict_of_dirty order dirty] at failed ⊢
    obtain ⟨cause, left⟩ := ih (h.pin (order ▸ List.mem_cons_self) dirty) failed
    exact ⟨cause, left.frames_eq, left.order_after, left.pinned_after⟩

private theorem evict_eq_error_iff :
    c.evict.1 = .error (.allDirty c.frames.size) ↔ ∀ id ∈ c.frames, id ∈ c.dirtyPages := by
  rcases c.evict_cases with ⟨failed, -, dirty⟩ | ⟨victim, clean, room, -⟩
  · refine iff_of_true failed fun id cached => ?_
    rcases (h.listed id).mp cached with may | held
    · exact mem_dirtyPages_iff.mpr ⟨cached, dirty id may⟩
    · exact h.pinned id held
  · refine iff_of_false (by simp [room]) fun dirty => ?_
    obtain ⟨frame, cached, -⟩ := isClean_iff.mp clean
    exact (mem_dirtyPages_iff.mp (dirty victim (mem_frames_of_eq cached))).2 clean

end Accounted

/-- Room is made in a limited number of turns. Where a clean page may leave, the least recently used one does, the
dirty ones before it are pinned, and those behind it stay in their order. It fails just where all cached pages are
dirty, and then they all stay and are pinned. -/
theorem least_recent_clean_leaves {c : Cache} (h : c.Accounted) :
    (∀ turns, c.recency.order.length < turns → c.evictWithin turns = some c.evict) ∧
    ((∃ id ∈ c.recency.order, c.isClean id) →
      c.evict.1 = .ok () ∧ ∃ passed victim others, Vacated c c.evict.2 passed victim others) ∧
    (c.evict.1 = .error (.allDirty c.frames.size) ↔ ∀ id ∈ c.frames, id ∈ c.dirtyPages) ∧
    ∀ fault, c.evict.1 = .error fault → fault = .allDirty c.frames.size ∧ Stuck c c.evict.2 :=
  ⟨fun _ => h.evictWithin_eq, h.vacated, h.evict_eq_error_iff, fun _ => h.stuck⟩

private def cleanPage (number : Nat) : Page :=
  ⟨⟨0, number⟩, ⟨[⟨.int, none⟩]⟩, 16, [], [], none⟩

private def fourPages : Cache :=
  (((((Cache.empty 4).bringIn (cleanPage 0)).2.bringIn (cleanPage 1)).2.bringIn (cleanPage 2)).2.bringIn
    (cleanPage 3)).2

/-- Of four pages the first was changed and pinned, and the second was changed by someone who holds on to it. -/
private def markedSample : Cache :=
  ((fourPages.modify ⟨0, 0⟩ (·.changed 1)).pin ⟨0, 0⟩).modifyHeld ⟨⟨0, 1⟩, 1⟩ (·.changed 2)

/-- The third page leaves. -/
theorem least_recent_clean_leaves_marked :
    markedSample.Accounted ∧ markedSample.evictWithin 4 = some markedSample.evict ∧
      markedSample.evict.1 = .ok () ∧ Vacated markedSample markedSample.evict.2 [⟨0, 1⟩] ⟨0, 2⟩ [⟨0, 3⟩] := by
  have filled : fourPages.Tidy 4 :=
    ((((Tidy.empty 4).bringIn (by decide +kernel) rfl).bringIn (by decide +kernel) rfl).bringIn
      (by decide +kernel) rfl).bringIn (by decide +kernel) rfl
  have marked : markedSample.Accounted :=
    (filled.change (by decide +kernel) fun _ => Option.some_ne_none _).accounted.changed _ fun _ =>
      Option.some_ne_none _
  obtain ⟨turns, leaves, -⟩ := least_recent_clean_leaves marked
  obtain ⟨room, passed, victim, others, left⟩ := leaves ⟨⟨0, 2⟩, by decide +kernel, by decide +kernel⟩
  obtain rfl : others = [⟨0, 3⟩] := left.order_after.symm.trans (by decide +kernel)
  have before : passed ++ [victim] ++ [⟨0, 3⟩] = [⟨0, 1⟩] ++ [⟨0, 2⟩] ++ [⟨0, 3⟩] := by
    rw [List.append_assoc]
    exact left.order_eq.symm.trans (by decide +kernel)
  obtain ⟨rfl, last⟩ := List.append_inj' (List.append_cancel_right before) rfl
  cases last
  exact ⟨marked, turns 4 (by decide +kernel), room, left⟩

end PagedStore.Cache
