import Mathlib.Data.List.Induction
import PagedStore.Proofs.Locks

/-! Whatever is asked of the locks leaves them in order: exclusive holders are alone, what is listed for
a transaction is what it holds, and nothing is listed for nothing. -/
namespace PagedStore

inductive LockAction where
  | request (txn : TxnId) (page : PageId) (mode : LockMode)
  | release (txn : TxnId) (page : PageId)
  | forget (txn : TxnId)
  | stopWaiting (txn : TxnId)

/-- What is answered: whether a lock was granted or was there to be released, or the pages unlocked. -/
inductive LockReply where
  | answer (yes : Bool)
  | pages (pages : List PageId)
  | nothing

namespace Locks

def perform (l : Locks) : LockAction → LockReply × Locks
  | .request txn page mode => (.answer (l.request txn page mode).1, (l.request txn page mode).2)
  | .release txn page => (.answer (l.holds txn page), l.release txn page)
  | .forget txn => (.pages (l.pagesOf txn), l.forget txn)
  | .stopWaiting txn => (.nothing, l.stopWaiting txn)

def after (actions : List LockAction) : Locks :=
  actions.foldl (fun l action => (l.perform action).2) empty

theorem after_concat (actions : List LockAction) (action : LockAction) :
    after (actions ++ [action]) = ((after actions).perform action).2 := by
  rw [after, List.foldl_append]
  rfl

/-- The transactions in the way of a request are others, whose locks conflict with it. -/
theorem mem_blockers {l : Locks} {txn other : TxnId} {page : PageId} {mode : LockMode} :
    other ∈ l.blockers txn page mode ↔
      other ≠ txn ∧ ∃ lock, l.mode? other page = some lock ∧ mode.conflicts lock := by
  simp only [blockers, List.mem_map, List.mem_filter, Prod.exists, exists_and_right,
    exists_eq_right, Std.ExtTreeMap.mem_toList_iff_getElem?_eq_some, mode?, Bool.and_eq_true,
    decide_eq_true_eq]
  constructor
  · rintro ⟨lock, held, different, conflicts⟩
    exact ⟨different, lock, held, conflicts⟩
  · rintro ⟨different, lock, held, conflicts⟩
    exact ⟨lock, held, different, conflicts⟩

/-- Whether nothing is listed for nothing: a page that is listed has a holder, a transaction that is
listed holds a page, and one that waits waits for others. -/
structure Spare (l : Locks) : Prop where
  page_held : ∀ {page : PageId} {holders : Std.ExtTreeMap TxnId LockMode},
    l.holders[page]? = some holders → holders ≠ ∅
  txn_holding : ∀ {txn : TxnId} {pages : Std.ExtTreeSet PageId},
    l.held[txn]? = some pages → pages ≠ ∅
  waits : ∀ {txn : TxnId} {others : List TxnId},
    l.waits[txn]? = some others → others ≠ [] ∧ txn ∉ others

namespace Spare
variable {l : Locks}

private theorem empty : Locks.empty.Spare := by
  refine ⟨fun {page holders} found => ?_, fun {txn pages} found => ?_, fun {txn others} found => ?_⟩ <;>
  simp [Locks.empty] at found

private theorem stopWaiting (h : l.Spare) (txn : TxnId) : (l.stopWaiting txn).Spare where
  page_held := h.page_held
  txn_holding := h.txn_holding
  waits found := by
    rw [Locks.stopWaiting, Std.ExtTreeMap.getElem?_erase] at found
    split at found
    · cases found
    · exact h.waits found

private theorem put (h : l.Spare) (txn : TxnId) (page : PageId) (mode : LockMode) :
    (l.put txn page mode).Spare where
  page_held found := by
    rw [Locks.put, Std.ExtTreeMap.getElem?_insert] at found
    split at found
    · cases found
      exact Std.ExtTreeMap.insert_ne_empty
    · exact h.page_held found
  txn_holding found := by
    rw [Locks.put, Std.ExtTreeMap.getElem?_insert] at found
    split at found
    · cases found
      exact Std.ExtTreeSet.insert_ne_empty
    · exact h.txn_holding found
  waits := h.waits

private theorem deny (h : l.Spare) {txn : TxnId} {page : PageId} {mode : LockMode}
    (blocked : l.blockers txn page mode ≠ []) :
    Spare { l with waits := l.waits.insert txn (l.blockers txn page mode) } where
  page_held := h.page_held
  txn_holding := h.txn_holding
  waits found := by
    rw [Std.ExtTreeMap.getElem?_insert] at found
    split at found
    · rename_i same
      cases Std.LawfulEqCmp.compare_eq_iff_eq.mp same
      cases found
      exact ⟨blocked, fun listed => (mem_blockers.mp listed).1 rfl⟩
    · exact h.waits found

private theorem request (h : l.Spare) (txn : TxnId) (page : PageId) (mode : LockMode) :
    (l.request txn page mode).2.Spare := by
  rcases l.request_cases txn page mode with ⟨-, -, -, he⟩ | ⟨-, -, he⟩ | ⟨blocked, he⟩
  · rw [he]
    exact h.stopWaiting txn
  · rw [he]
    exact (h.put txn page mode).stopWaiting txn
  · rw [he]
    exact h.deny blocked

private theorem release (h : l.Spare) (txn : TxnId) (page : PageId) : (l.release txn page).Spare where
  page_held found := by
    rw [Locks.release, Std.ExtTreeMap.getElem?_alter] at found
    split at found
    · obtain ⟨holders, -, left⟩ := Option.bind_eq_some_iff.mp found
      simp only at left
      split at left
      · cases left
      · rename_i some_left
        cases left
        rwa [Std.ExtTreeMap.isEmpty_iff] at some_left
    · exact h.page_held found
  txn_holding found := by
    rw [Locks.release, Std.ExtTreeMap.getElem?_alter] at found
    split at found
    · obtain ⟨pages, -, left⟩ := Option.bind_eq_some_iff.mp found
      simp only at left
      split at left
      · cases left
      · rename_i some_left
        cases left
        rwa [Std.ExtTreeSet.isEmpty_iff] at some_left
    · exact h.txn_holding found
  waits := h.waits

private theorem forget (h : l.Spare) (txn : TxnId) : (l.forget txn).Spare := by
  have all (pages : List PageId) {l : Locks} (h : l.Spare) :
      (pages.foldl (fun l page => l.release txn page) l).Spare := by
    induction pages generalizing l with
    | nil => exact h
    | cons page pages ih => exact ih (h.release txn page)
  exact all _ (h.stopWaiting txn)

end Spare

/-! ### Unlocking in any order -/

/-- Two entries may be changed in either order, and so may one where the changes commute. -/
theorem alter_comm {α β : Type} [Ord α] [Std.TransOrd α] [Std.LawfulEqOrd α]
    {m : Std.ExtTreeMap α β} {a b : α} {f g : Option β → Option β}
    (comm : a = b → ∀ entry, f (g entry) = g (f entry)) :
    (m.alter a f).alter b g = (m.alter b g).alter a f := by
  apply Std.ExtTreeMap.ext_getElem?
  intro key
  simp only [Std.ExtTreeMap.getElem?_alter, Std.compare_eq_iff_eq]
  by_cases here : a = key <;> by_cases there : b = key <;> grind

/-- What is kept only as long as it is not empty may lose its parts in either order. -/
private theorem bind_left_comm {α : Type} {empty : α → Bool} {f g : α → α}
    (comm : ∀ x, f (g x) = g (f x)) (lost : ∀ x, empty x → empty (f x))
    (lost' : ∀ x, empty x → empty (g x)) (x? : Option α) :
    ((x?.bind fun x => if empty (g x) then none else some (g x)).bind fun x =>
      if empty (f x) then none else some (f x)) =
    (x?.bind fun x => if empty (f x) then none else some (f x)).bind fun x =>
      if empty (g x) then none else some (g x) := by
  cases x? with
  | none => rfl
  | some x =>
    have first : empty (g x) → empty (g (f x)) := fun none_left => comm x ▸ lost (g x) none_left
    have second : empty (f x) → empty (g (f x)) := lost' (f x)
    simp only [Option.bind_some]
    by_cases fx : empty (f x) <;> by_cases gx : empty (g x) <;>
    simp [fx, gx, comm, first, second]

/-- Locks may be released in either order. -/
theorem release_comm (l : Locks) (txn other : TxnId) (page place : PageId) :
    (l.release txn page).release other place = (l.release other place).release txn page := by
  simp only [release]
  congr 1
  · refine alter_comm fun _ => bind_left_comm (fun holders => ?_) (fun holders none_left => ?_)
      fun holders none_left => ?_
    · apply Std.ExtTreeMap.ext_getElem?
      intro key
      simp only [Std.ExtTreeMap.getElem?_erase]
      split <;> split <;> rfl
    · rw [Std.ExtTreeMap.isEmpty_iff.mp none_left, Std.ExtTreeMap.erase_empty]
      rfl
    · rw [Std.ExtTreeMap.isEmpty_iff.mp none_left, Std.ExtTreeMap.erase_empty]
      rfl
  · refine alter_comm fun _ => bind_left_comm (fun pages => ?_) (fun pages none_left => ?_)
      fun pages none_left => ?_
    · apply Std.ExtTreeSet.ext_mem
      intro key
      simp only [Std.ExtTreeSet.mem_erase]
      exact and_left_comm
    · rw [Std.ExtTreeSet.isEmpty_iff.mp none_left, Std.ExtTreeSet.erase_empty]
      rfl
    · rw [Std.ExtTreeSet.isEmpty_iff.mp none_left, Std.ExtTreeSet.erase_empty]
      rfl

private theorem forget_eq_of_perm {l : Locks} {txn : TxnId} {order : List PageId}
    (listed : order.Perm (l.pagesOf txn)) :
    order.foldl (fun l page => l.release txn page) (l.stopWaiting txn) = l.forget txn :=
  listed.foldl_eq' (fun page _ place _ l => l.release_comm txn txn page place) (l.stopWaiting txn)

/-! ### What every action preserves -/

private theorem Sound.perform {l : Locks} (h : l.Sound) (action : LockAction) : (l.perform action).2.Sound := by
  cases action with
  | request txn page mode => exact (l.onward_request txn page mode).sound h
  | release txn page => exact h.release txn page
  | forget txn => exact h.forget txn
  | stopWaiting txn => exact h.stopWaiting txn

private theorem Spare.perform {l : Locks} (h : l.Spare) (action : LockAction) : (l.perform action).2.Spare := by
  cases action with
  | request txn page mode => exact h.request txn page mode
  | release txn page => exact h.release txn page
  | forget txn => exact h.forget txn
  | stopWaiting txn => exact h.stopWaiting txn

/-- What holds of no locks, and goes on to hold with every action, holds after all actions. -/
theorem after_induction {motive : Locks → Prop} (first : motive empty)
    (next : ∀ {l : Locks}, motive l → ∀ action, motive (l.perform action).2)
    (actions : List LockAction) : motive (after actions) := by
  induction actions using List.reverseRecOn with
  | nil => exact first
  | append_singleton actions action ih =>
    rw [after_concat]
    exact next ih action

theorem sound_after (actions : List LockAction) : (after actions).Sound :=
  after_induction .empty Sound.perform actions

private theorem spare_after (actions : List LockAction) : (after actions).Spare :=
  after_induction .empty Spare.perform actions

/-- Whether locks are in order: a page is shared by all its holders or held by a single one, no page and
no transaction is listed without a lock, the pages listed for a transaction are those that it holds,
and nobody waits for itself or for nobody. -/
structure InOrder (l : Locks) : Prop where
  modes : ∀ page, (∀ {txn mode}, l.mode? txn page = some mode → mode = .shared) ∨
    ∃ txn, ∀ {other mode}, l.mode? other page = some mode ↔ other = txn ∧ mode = .exclusive
  page_held : ∀ {page : PageId} {holders : Std.ExtTreeMap TxnId LockMode},
    l.holders[page]? = some holders → holders ≠ ∅
  txn_holding : ∀ {txn : TxnId} {pages : Std.ExtTreeSet PageId},
    l.held[txn]? = some pages → pages ≠ ∅
  indexed : ∀ {txn page}, page ∈ l.held[txn]?.getD ∅ ↔ l.holds txn page
  waits : ∀ {txn : TxnId} {others : List TxnId},
    l.waits[txn]? = some others → others ≠ [] ∧ txn ∉ others

private theorem Sound.modes {l : Locks} (h : l.Sound) (page : PageId) :
    (∀ {txn mode}, l.mode? txn page = some mode → mode = .shared) ∨
      ∃ txn, ∀ {other mode}, l.mode? other page = some mode ↔ other = txn ∧ mode = .exclusive := by
  by_cases taken : ∃ txn, l.mode? txn page = some .exclusive
  · obtain ⟨txn, held⟩ := taken
    refine .inr ⟨txn, fun {other mode} => ⟨fun locked => ?_, ?_⟩⟩
    · have same : other = txn := h.alone held (by rw [holds, locked]; rfl)
      subst same
      rw [held] at locked
      exact ⟨rfl, (Option.some.inj locked).symm⟩
    · rintro ⟨rfl, rfl⟩
      exact held
  · refine .inl fun {txn mode} locked => ?_
    cases mode with
    | shared => rfl
    | exclusive => exact absurd ⟨txn, locked⟩ taken

/-- Whatever was asked of the locks, they are in order. The pages of a transaction are listed in
ascending order, each once, and are those that it holds; when it is forgotten, these are the pages
unlocked, in whichever order, and the locks of others stay. -/
theorem locks_in_order (actions : List LockAction) :
    (after actions).InOrder ∧ ∀ txn,
      ((after actions).pagesOf txn).Pairwise (fun page later => compare page later = .lt) ∧
      (∀ page, page ∈ (after actions).pagesOf txn ↔ (after actions).holds txn page) ∧
      ((after actions).perform (.forget txn)).1 = .pages ((after actions).pagesOf txn) ∧
      (∀ order : List PageId, order.Perm ((after actions).pagesOf txn) →
        order.foldl (fun l page => l.release txn page) ((after actions).stopWaiting txn) =
          after (actions ++ [.forget txn])) ∧
      (after (actions ++ [.forget txn])).pagesOf txn = [] ∧
      ∀ other page, (after (actions ++ [.forget txn])).mode? other page =
        if other = txn then none else (after actions).mode? other page := by
  have sound := sound_after actions
  have spare := spare_after actions
  refine ⟨⟨sound.modes, spare.page_held, spare.txn_holding, sound.indexed, spare.waits⟩, fun txn => ?_⟩
  have forgotten (other : TxnId) (page : PageId) :
      (after (actions ++ [.forget txn])).mode? other page =
        if other = txn then none else (after actions).mode? other page := by
    rw [after_concat]
    exact sound.mode?_forget txn other page
  refine ⟨Std.ExtTreeSet.ordered_toList, fun page => ?listed, rfl, fun order listed => ?unlocked,
    ?emptied, forgotten⟩
  case listed => rw [pagesOf, Std.ExtTreeSet.mem_toList, sound.indexed]
  case unlocked =>
    rw [after_concat]
    exact forget_eq_of_perm listed
  case emptied =>
    rw [pagesOf, Std.ExtTreeSet.toList_eq_nil_iff, Std.ExtTreeSet.eq_empty_iff_forall_not_mem]
    intro page held
    rw [(sound_after _).indexed, holds, forgotten, if_pos rfl] at held
    cases held

end Locks

end PagedStore
