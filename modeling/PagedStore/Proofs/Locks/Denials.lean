import Mathlib.Algebra.Group.Fin.Basic
import Mathlib.Data.Fin.VecNotation
import PagedStore.Proofs.Locks.Order
import PagedStore.Proofs.Locks.WaitGraph

/-! Waits are denials of the latest requests, and a deadlock that is reported is a cycle of such denials.
Whoever was in the way then is so still, unless it has unlocked the page since. No cycle of denials is
missed. -/
namespace PagedStore

/-- Whether an action is the end of a wait of a transaction, or a request that takes its place. -/
def LockAction.Rouses (txn : TxnId) : LockAction → Prop
  | .request asking _ _ => asking = txn
  | .release _ _ => False
  | .forget forgotten => forgotten = txn
  | .stopWaiting waiting => waiting = txn

def LockAction.Unlocks (txn : TxnId) (page : PageId) : LockAction → Prop
  | .request _ _ _ => False
  | .release holder place => holder = txn ∧ place = page
  | .forget forgotten => forgotten = txn
  | .stopWaiting _ => False

private theorem LockMode.conflicts_of_covers {mode old new : LockMode} (h : mode.conflicts old)
    (stronger : new.covers old) : mode.conflicts new := by
  cases mode <;> cases old <;> cases new <;> simp_all [conflicts, covers]

namespace Locks

/-- Whether the latest request of a transaction was denied, and it has been waiting since: what was
asked of the locks before the request, and what after it. -/
structure Denied (actions : List LockAction) (txn : TxnId) (page : PageId) (mode : LockMode)
    (earlier later : List LockAction) : Prop where
  split : actions = earlier ++ .request txn page mode :: later
  refused : ((after earlier).request txn page mode).1 = false
  waiting : ∀ action ∈ later, ¬ action.Rouses txn

/-! ### One action -/

private theorem waits_of_not_rouses (l : Locks) {txn : TxnId} {action : LockAction}
    (still : ¬ action.Rouses txn) : (l.perform action).2.waits[txn]? = l.waits[txn]? := by
  cases action with
  | request asking page mode =>
    have other : ¬ compare asking txn = .eq := fun same =>
      still (Std.LawfulEqCmp.compare_eq_iff_eq.mp same)
    rcases l.request_cases asking page mode with ⟨-, -, -, he⟩ | ⟨-, -, he⟩ | ⟨-, he⟩
    · simp only [perform, he, stopWaiting, Std.ExtTreeMap.getElem?_erase, if_neg other]
    · simp only [perform, he, stopWaiting, put, Std.ExtTreeMap.getElem?_erase, if_neg other]
    · simp only [perform, he, Std.ExtTreeMap.getElem?_insert, if_neg other]
  | release holder page => rfl
  | forget forgotten => exact (l.waits_forget forgotten txn).trans (if_neg (Ne.symm still))
  | stopWaiting waiting =>
    have other : ¬ compare waiting txn = .eq := fun same =>
      still (Std.LawfulEqCmp.compare_eq_iff_eq.mp same)
    simp only [perform, stopWaiting, Std.ExtTreeMap.getElem?_erase, if_neg other]

/-- What rouses a transaction leaves it waiting only if it is a request that is denied. -/
private theorem denied_of_waits {l : Locks} {txn : TxnId} {action : LockAction} (roused : action.Rouses txn)
    {others : List TxnId} (waits : (l.perform action).2.waits[txn]? = some others) :
    ∃ page mode, action = .request txn page mode ∧ (l.request txn page mode).1 = false ∧
      others = l.blockers txn page mode := by
  cases action with
  | request asking page mode =>
    cases roused
    rcases l.request_cases txn page mode with ⟨-, -, -, he⟩ | ⟨-, -, he⟩ | ⟨-, he⟩
    · simp [perform, he, stopWaiting] at waits
    · simp [perform, he, stopWaiting] at waits
    · refine ⟨page, mode, rfl, congrArg Prod.fst he, ?_⟩
      simpa [perform, he, eq_comm] using waits
  | release holder page => exact roused.elim
  | forget forgotten =>
    cases roused
    rw [perform, waits_forget, if_pos rfl] at waits
    cases waits
  | stopWaiting waiting =>
    cases roused
    simp [perform, stopWaiting] at waits

private theorem Sound.mode?_of_not_unlocks {l : Locks} (h : l.Sound) {txn : TxnId} {page : PageId}
    {action : LockAction} (still : ¬ action.Unlocks txn page) {old : LockMode}
    (held : l.mode? txn page = some old) :
    ∃ new, (l.perform action).2.mode? txn page = some new ∧ new.covers old := by
  cases action with
  | request asking place mode =>
    have onward := l.onward_request asking place mode
    by_cases self : txn = asking
    · subst self
      exact onward.kept held
    · exact ⟨old, (onward.others self page).trans held, LockMode.covers_refl old⟩
  | release holder place =>
    refine ⟨old, ?_, LockMode.covers_refl old⟩
    rw [Locks.perform, mode?_release, if_neg fun here => still ⟨here.1.symm, here.2.symm⟩, held]
  | forget forgotten =>
    refine ⟨old, ?_, LockMode.covers_refl old⟩
    rw [Locks.perform, h.mode?_forget, if_neg (Ne.symm still), held]
  | stopWaiting waiting => exact ⟨old, held, LockMode.covers_refl old⟩

/-! ### All actions -/

/-- Whoever waits does so since its latest request was denied, for all that were in its way then. -/
private theorem denied_of_waits_after {actions : List LockAction} {txn : TxnId} {others : List TxnId}
    (waits : (after actions).waits[txn]? = some others) : ∃ page mode earlier later,
      Denied actions txn page mode earlier later ∧
        others = (after earlier).blockers txn page mode := by
  induction actions using List.reverseRecOn with
  | nil => simp [after, empty] at waits
  | append_singleton actions action ih =>
    rw [after_concat] at waits
    by_cases roused : action.Rouses txn
    · obtain ⟨page, mode, rfl, refused, same⟩ := denied_of_waits roused waits
      exact ⟨page, mode, actions, [], ⟨rfl, refused, by simp⟩, same⟩
    · rw [waits_of_not_rouses _ roused] at waits
      obtain ⟨page, mode, earlier, later, denied, same⟩ := ih waits
      refine ⟨page, mode, earlier, later ++ [action], ⟨?_, denied.refused, ?_⟩, same⟩
      · rw [denied.split, List.append_assoc, List.cons_append]
      · intro next listed
        rcases List.mem_append.mp listed with listed | listed
        · exact denied.waiting next listed
        · exact List.mem_singleton.mp listed ▸ roused

theorem mode?_after {earlier later : List LockAction} {txn : TxnId} {page : PageId} {old : LockMode}
    (held : (after earlier).mode? txn page = some old)
    (still : ∀ action ∈ later, ¬ action.Unlocks txn page) :
    ∃ new, (after (earlier ++ later)).mode? txn page = some new ∧ new.covers old := by
  induction later using List.reverseRecOn with
  | nil => exact ⟨old, by rwa [List.append_nil], LockMode.covers_refl old⟩
  | append_singleton later action ih =>
    obtain ⟨mid, locked, stronger⟩ := ih fun next listed => still next (List.mem_append_left _ listed)
    obtain ⟨new, locked', stronger'⟩ := (sound_after (earlier ++ later)).mode?_of_not_unlocks
      (still action (List.mem_append_right _ (List.mem_singleton.mpr rfl))) locked
    rw [← List.append_assoc, after_concat]
    exact ⟨new, locked', LockMode.covers_trans stronger' stronger⟩

def Opposes (l : Locks) (holder : TxnId) (page : PageId) (mode : LockMode) : Prop :=
  ∃ lock, l.mode? holder page = some lock ∧ mode.conflicts lock

/-- Whether a transaction has been waiting since its latest request was denied, when another one was in
the way, and that one still is unless it has unlocked the page since. -/
def Awaits (actions : List LockAction) (waiter holder : TxnId) : Prop :=
  ∃ page mode earlier later, Denied actions waiter page mode earlier later ∧
    (after earlier).Opposes holder page mode ∧
    ((after actions).Opposes holder page mode ∨ ∃ action ∈ later, action.Unlocks holder page)

private theorem awaits_of_edge {actions : List LockAction} {waiter holder : TxnId}
    (edge : (after actions).waits.Edge waiter holder) : Awaits actions waiter holder := by
  obtain ⟨others, waits, listed⟩ := edge
  obtain ⟨page, mode, earlier, later, denied, rfl⟩ := denied_of_waits_after waits
  obtain ⟨-, lock, held, conflicts⟩ := mem_blockers.mp listed
  refine ⟨page, mode, earlier, later, denied, ⟨lock, held, conflicts⟩, ?_⟩
  by_cases unlocked : ∃ action ∈ later, action.Unlocks holder page
  · exact .inr unlocked
  · left
    have still : ∀ action ∈ .request waiter page mode :: later, ¬ action.Unlocks holder page := by
      intro action listed unlocks
      rcases List.mem_cons.mp listed with rfl | listed
      · exact unlocks
      · exact unlocked ⟨action, listed, unlocks⟩
    obtain ⟨new, locked, stronger⟩ := mode?_after held still
    rw [denied.split]
    exact ⟨new, locked, LockMode.conflicts_of_covers conflicts stronger⟩

/-- A deadlock that is reported begins with the transaction asked about. Each transaction of it awaits
the next one, and the last awaits the first. -/
theorem deadlock_of_denials (actions : List LockAction) {txn : TxnId} {cycle : List TxnId}
    (found : (after actions).deadlock? txn = some cycle) :
    cycle.head? = some txn ∧ (cycle : Cycle TxnId).Chain (Awaits actions) := by
  obtain ⟨head, chain⟩ := WaitGraph.cycle_of_cycle? found
  exact ⟨head, chain.imp fun _ _ => awaits_of_edge⟩

/-- The second transaction has a page locked when the first one asks for it, and has given the page back
when it is denied a page of the first one itself. -/
private def passedSample : List LockAction :=
  [.request 1 ⟨0, 1⟩ .exclusive, .request 2 ⟨0, 0⟩ .exclusive, .request 1 ⟨0, 0⟩ .shared,
    .release 2 ⟨0, 0⟩, .request 2 ⟨0, 1⟩ .exclusive]

private theorem deadlock_passedSample : (after passedSample).deadlock? 2 = some [2, 1] := by
  have waits : (after passedSample).waits[2]? = some [1] := by decide +kernel
  have back : (after passedSample).waits[1]? = some [2] := by decide +kernel
  exact WaitGraph.cycle?_of_mutual (by decide) waits back

theorem deadlock_of_denials_passed :
    (after passedSample).deadlock? 2 = some [2, 1] ∧
      (([2, 1] : List TxnId) : Cycle TxnId).Chain (Awaits passedSample) :=
  ⟨deadlock_passedSample, (deadlock_of_denials passedSample deadlock_passedSample).2⟩

/-- The deadlock is reported though nobody is in the way of the first transaction any more, whose latest
request would now be granted. -/
theorem deadlock_outlives_lock :
    (after passedSample).deadlock? 2 = some [2, 1] ∧
      Denied passedSample 1 ⟨0, 0⟩ .shared (passedSample.take 2) (passedSample.drop 3) ∧
      ¬ (after passedSample).Opposes 2 ⟨0, 0⟩ .shared ∧
      ((after passedSample).request 1 ⟨0, 0⟩ .shared).1 = true := by
  have unlocked : (after passedSample).mode? 2 ⟨0, 0⟩ = none := by decide +kernel
  refine ⟨deadlock_passedSample, ⟨rfl, by decide +kernel, ?_⟩, ?_, by decide +kernel⟩
  · intro action listed
    rcases List.mem_cons.mp listed with rfl | listed
    · exact id
    · rw [List.mem_singleton.mp listed]
      show ¬ (2 : TxnId) = 1
      decide
  · rintro ⟨lock, held, -⟩
    rw [unlocked] at held
    cases held

/-! ### From denials to deadlocks -/

private theorem Denied.waits {actions earlier later : List LockAction} {txn : TxnId} {page : PageId}
    {mode : LockMode} (denied : Denied actions txn page mode earlier later) :
    (after actions).waits[txn]? = some ((after earlier).blockers txn page mode) := by
  have kept (later : List LockAction) (waiting : ∀ action ∈ later, ¬ action.Rouses txn) :
      (after (earlier ++ .request txn page mode :: later)).waits[txn]? =
        (after (earlier ++ [.request txn page mode])).waits[txn]? := by
    induction later using List.reverseRecOn with
    | nil => rfl
    | append_singleton later action ih =>
      have still := waiting action (List.mem_append_right _ (List.mem_singleton.mpr rfl))
      rw [← List.cons_append, ← List.append_assoc, after_concat, waits_of_not_rouses _ still]
      exact ih fun next listed => waiting next (List.mem_append_left _ listed)
  rw [denied.split, kept later denied.waiting, after_concat]
  simp only [perform, request_eq_of_refused denied.refused, Std.ExtTreeMap.getElem?_insert_self]

/-- Whether a transaction has been waiting since its latest request was denied, when another one was in
the way, whatever the other one has done since. -/
def Blocked (actions : List LockAction) (waiter holder : TxnId) : Prop :=
  ∃ page mode earlier later, Denied actions waiter page mode earlier later ∧
    (after earlier).Opposes holder page mode

private theorem edge_of_blocked {actions : List LockAction} {waiter holder : TxnId}
    (different : holder ≠ waiter) (blocked : Blocked actions waiter holder) :
    (after actions).waits.Edge waiter holder := by
  obtain ⟨page, mode, earlier, later, denied, opposes⟩ := blocked
  exact ⟨_, denied.waits, mem_blockers.mpr ⟨different, opposes⟩⟩

private theorem transGen_around {α : Type} {r : α → α → Prop} {n : ℕ} {round : Fin (n + 1) → α}
    (next : ∀ i, r (round i) (round (i + 1))) (i : Fin (n + 1)) :
    Relation.TransGen r (round i) (round i) := by
  let place (turn : ℕ) : Fin (n + 1) := ⟨(i + turn) % (n + 1), Nat.mod_lt _ n.succ_pos⟩
  have place_succ (turn : ℕ) : place (turn + 1) = place turn + 1 := by
    apply Fin.ext
    simp only [place, Fin.val_add, Fin.coe_ofNat_eq_mod, Nat.mod_add_mod, Nat.add_mod_mod, add_assoc]
  have place_zero : place 0 = i := Fin.ext (Nat.mod_eq_of_lt i.isLt)
  have place_last : place (n + 1) = i := Fin.ext ((Nat.add_mod_right ..).trans (Nat.mod_eq_of_lt i.isLt))
  have onward (turn : ℕ) : Relation.TransGen r (round i) (round (place (turn + 1))) := by
    induction turn with
    | zero => simpa only [place_succ, place_zero] using .single (next i)
    | succ turn ih => exact ih.tail (place_succ (turn + 1) ▸ next _)
  exact place_last ▸ onward n

/-- Where each of two or more transactions is blocked by the next one, and the last by the first, a
deadlock is reported for every one of them. -/
theorem deadlock_of_blocked {actions : List LockAction} {k : ℕ} {txns : Fin (k + 2) → TxnId}
    (distinct : Function.Injective txns) (blocked : ∀ i, Blocked actions (txns i) (txns (i + 1)))
    (i : Fin (k + 2)) : ∃ cycle, (after actions).deadlock? (txns i) = some cycle ∧
      cycle.head? = some (txns i) ∧ cycle.Nodup ∧ (cycle : Cycle TxnId).Chain (Awaits actions) := by
  have edge (i : Fin (k + 2)) : (after actions).waits.Edge (txns i) (txns (i + 1)) := by
    refine edge_of_blocked (fun same => ?_) (blocked i)
    have turn : (1 : Fin (k + 2)) = 0 := add_eq_left.mp (distinct same)
    exact absurd turn (by simp)
  obtain ⟨cycle, found⟩ :=
    Option.isSome_iff_exists.mp (WaitGraph.cycle?_isSome_iff.mpr (transGen_around edge i))
  obtain ⟨head, chain⟩ := WaitGraph.cycle_of_cycle? found
  exact ⟨cycle, found, head, WaitGraph.nodup_of_cycle? found, chain.imp fun _ _ => awaits_of_edge⟩

private def crossedSample : List LockAction :=
  [.request 1 ⟨0, 0⟩ .exclusive, .request 2 ⟨0, 1⟩ .exclusive, .request 1 ⟨0, 1⟩ .shared,
    .request 2 ⟨0, 0⟩ .shared]

theorem deadlock_of_blocked_crossed :
    (∀ i : Fin 2, Blocked crossedSample (![1, 2] i) (![1, 2] (i + 1))) ∧
      ∃ cycle, (after crossedSample).deadlock? 2 = some cycle ∧ cycle.head? = some 2 ∧
        cycle.Nodup ∧ (cycle : Cycle TxnId).Chain (Awaits crossedSample) := by
  have distinct : Function.Injective (![1, 2] : Fin 2 → TxnId) := by
    unfold Function.Injective
    decide
  have first : Blocked crossedSample 1 2 := by
    refine ⟨⟨0, 1⟩, .shared, crossedSample.take 2, crossedSample.drop 3, ⟨rfl, by decide +kernel, ?_⟩,
      .exclusive, by decide +kernel, rfl⟩
    intro action listed
    rw [List.mem_singleton.mp listed]
    show ¬ (2 : TxnId) = 1
    decide
  have second : Blocked crossedSample 2 1 :=
    ⟨⟨0, 0⟩, .shared, crossedSample.take 3, [], ⟨rfl, by decide +kernel, by simp⟩,
      .exclusive, by decide +kernel, rfl⟩
  have blocked : ∀ i : Fin 2, Blocked crossedSample (![1, 2] i) (![1, 2] (i + 1)) :=
    Fin.forall_fin_two.mpr ⟨first, second⟩
  exact ⟨blocked, deadlock_of_blocked distinct blocked 1⟩

end Locks

end PagedStore
