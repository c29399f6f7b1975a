import PagedStore.Proofs.Locks.Order

/-! What two transactions ask of the locks may come in either order where they do not get in each other's
way. -/
namespace PagedStore

inductive PageAction where
  | request (mode : LockMode)
  | release

namespace PageAction

def on (txn : TxnId) (page : PageId) : PageAction → LockAction
  | request mode => .request txn page mode
  | release => .release txn page

/-- Whether two transactions can ask this of one page in either order: both share it, or both give it back. -/
def Tolerates : PageAction → PageAction → Prop
  | request .shared, request .shared => True
  | release, release => True
  | _, _ => False

end PageAction

namespace Locks

/-- Whether two actions get the same replies and leave the same locks in either order. -/
structure Commute (l : Locks) (first second : LockAction) : Prop where
  first_reply : ((l.perform second).2.perform first).1 = (l.perform first).1
  second_reply : ((l.perform first).2.perform second).1 = (l.perform second).1
  locks : ((l.perform first).2.perform second).2 = ((l.perform second).2.perform first).2

/-! ### The entries that an action changes -/

section Alter
variable {α β : Type} [Ord α] [Std.TransOrd α] [Std.LawfulEqOrd α] {m : Std.ExtTreeMap α β} {a : α}
  {f : Option β → Option β}

private theorem alter_eq_self (same : f m[a]? = m[a]?) : m.alter a f = m := by
  apply Std.ExtTreeMap.ext_getElem?
  intro key
  rw [Std.ExtTreeMap.getElem?_alter]
  split
  · rename_i here
    rw [same, Std.compare_eq_iff_eq.mp here]
  · rfl

private theorem alter_eq_erase (none_left : f m[a]? = none) : m.alter a f = m.erase a := by
  apply Std.ExtTreeMap.ext_getElem?
  intro key
  simp only [Std.ExtTreeMap.getElem?_alter, Std.ExtTreeMap.getElem?_erase, none_left]

private theorem alter_eq_insert {b : β} (put : f m[a]? = some b) : m.alter a f = m.insert a b := by
  apply Std.ExtTreeMap.ext_getElem?
  intro key
  simp only [Std.ExtTreeMap.getElem?_alter, Std.ExtTreeMap.getElem?_insert, put]

end Alter

structure Effect where
  holders : Option (Std.ExtTreeMap TxnId LockMode) → Option (Std.ExtTreeMap TxnId LockMode)
  held : Option (Std.ExtTreeSet PageId) → Option (Std.ExtTreeSet PageId)
  waits : Option (List TxnId) → Option (List TxnId)

def apply (l : Locks) (txn : TxnId) (page : PageId) (e : Effect) : Locks :=
  ⟨l.holders.alter page e.holders, l.held.alter txn e.held, l.waits.alter txn e.waits⟩

def Effect.unlock (txn : TxnId) (page : PageId) : Effect where
  holders entry := entry.bind fun holders =>
    let left := holders.erase txn
    if left.isEmpty then none else some left
  held entry := entry.bind fun pages =>
    let left := pages.erase page
    if left.isEmpty then none else some left
  waits := id

private theorem release_eq_apply (l : Locks) (txn : TxnId) (page : PageId) :
    l.release txn page = l.apply txn page (.unlock txn page) := by
  rw [apply, alter_eq_self (f := (Effect.unlock txn page).waits) rfl]
  rfl

private theorem holders_apply (l : Locks) (txn : TxnId) {page place : PageId} (e : Effect)
    (apart : place ≠ page) :
    (l.apply txn page e).holders[place]? = l.holders[place]? := by
  rw [apply, Std.ExtTreeMap.getElem?_alter, if_neg fun same => apart (Std.compare_eq_iff_eq.mp same).symm]

private theorem held_apply (l : Locks) {txn other : TxnId} (page : PageId) (e : Effect)
    (different : other ≠ txn) :
    (l.apply txn page e).held[other]? = l.held[other]? := by
  rw [apply, Std.ExtTreeMap.getElem?_alter, if_neg fun same => different (Std.compare_eq_iff_eq.mp same).symm]

section Entries
variable {l : Locks} {txn other : TxnId} {page place : PageId} {e f : Effect}

/-- Entries of different transactions change in either order, and so does the entry of a page where the
changes agree. -/
private theorem apply_comm (different : txn ≠ other)
    (agree : page = place → ∀ entry, f.holders (e.holders entry) = e.holders (f.holders entry)) :
    (l.apply txn page e).apply other place f = (l.apply other place f).apply txn page e := by
  simp only [apply, Locks.mk.injEq]
  exact ⟨alter_comm fun here entry => (agree here entry).symm, alter_comm fun same => absurd same different,
    alter_comm fun same => absurd same different⟩

/-- Two actions commute where neither changes what becomes of the entries by the other. -/
private theorem commute_of_apply {first second : LockAction} {reply reply' : LockReply}
    (different : txn ≠ other)
    (agree : page = place → ∀ entry, f.holders (e.holders entry) = e.holders (f.holders entry))
    (here : l.perform first = (reply, l.apply txn page e))
    (there : l.perform second = (reply', l.apply other place f))
    (here' : (l.apply other place f).perform first = (reply, (l.apply other place f).apply txn page e))
    (there' : (l.apply txn page e).perform second = (reply', (l.apply txn page e).apply other place f)) :
    l.Commute first second where
  first_reply := by rw [there, here', here]
  second_reply := by rw [here, there', there]
  locks := by rw [here, there, here', there', apply_comm different agree]

end Entries

/-- What becomes of a request is told from how the transaction holds the page and who is in the way. -/
private theorem request_local (l : Locks) (txn : TxnId) (page : PageId) (mode : LockMode) : ∃ reply e,
    (e.holders = id ∨ e.holders = fun entry => some ((entry.getD ∅).insert txn mode)) ∧
      ∀ l' : Locks, l'.mode? txn page = l.mode? txn page →
        l'.blockers txn page mode = l.blockers txn page mode →
          l'.perform (.request txn page mode) = (reply, l'.apply txn page e) := by
  by_cases covered : (l.mode? txn page).any (·.covers mode)
  · refine ⟨.answer true, ⟨id, id, fun _ => none⟩, .inl rfl, fun l' held _ => ?_⟩
    rw [perform, request, held, if_pos covered, apply, alter_eq_self rfl, alter_eq_self rfl,
      alter_eq_erase rfl]
    rfl
  · cases blocked : l.blockers txn page mode with
    | nil =>
      refine ⟨.answer true, ⟨fun entry => some ((entry.getD ∅).insert txn mode),
        fun pages => some ((pages.getD ∅).insert page), fun _ => none⟩, .inr rfl,
        fun l' held unopposed => ?_⟩
      rw [perform, request, held, if_neg covered, unopposed, apply, alter_eq_insert rfl,
        alter_eq_insert rfl, alter_eq_erase rfl]
      rfl
    | cons blocker others =>
      refine ⟨.answer false, ⟨id, id, fun _ => some (blocker :: others)⟩, .inl rfl,
        fun l' held opposed => ?_⟩
      rw [perform, request, held, if_neg covered, opposed, apply, alter_eq_self rfl, alter_eq_self rfl,
        alter_eq_insert rfl]

private theorem perform_local (l : Locks) (action : PageAction) (txn : TxnId) (page : PageId) : ∃ reply e,
    ∀ l' : Locks, l'.holders[page]? = l.holders[page]? →
      l'.perform (action.on txn page) = (reply, l'.apply txn page e) := by
  cases action with
  | request mode =>
    obtain ⟨reply, e, -, he⟩ := l.request_local txn page mode
    refine ⟨reply, e, fun l' same => he l' ?_ ?_⟩
    · rw [mode?, mode?, holdersOf, holdersOf, same]
    · rw [blockers, blockers, holdersOf, holdersOf, same]
  | release =>
    refine ⟨.answer (l.holds txn page), .unlock txn page, fun l' same => ?_⟩
    rw [PageAction.on, perform, release_eq_apply, holds, holds, mode?, mode?, holdersOf, holdersOf, same]

private theorem blockers_request_shared (l : Locks) (txn other : TxnId) (page : PageId) :
    (l.request other page .shared).2.blockers txn page .shared = l.blockers txn page .shared := by
  rcases l.request_cases other page .shared with ⟨-, -, -, he⟩ | ⟨unopposed, weaker, he⟩ | ⟨-, he⟩
  · rw [he]
    rfl
  · have shared {holder : TxnId} {mode : LockMode} (held : l.mode? holder page = some mode) :
        LockMode.shared.conflicts mode = false := by
      by_cases self : holder = other
      · cases mode with
        | shared => rfl
        | exclusive => cases weaker _ (self ▸ held)
      · exact blockers_eq_nil_iff.mp unopposed holder mode held self
    rw [he, blockers_stopWaiting, blockers_eq_nil_iff.mpr fun holder mode held _ => shared held,
      blockers_eq_nil_iff]
    intro holder mode held _
    rw [mode?_put] at held
    split at held
    · cases held
      rfl
    · exact shared held
  · rw [he]
    rfl

/-! ### Pairs of actions -/

section Pairs
variable {txn other : TxnId} (different : txn ≠ other)
include different

private theorem commute_of_apart (l : Locks) {page place : PageId} (apart : page ≠ place)
    (first second : PageAction) : l.Commute (first.on txn page) (second.on other place) := by
  obtain ⟨reply, e, he⟩ := l.perform_local first txn page
  obtain ⟨reply', f, hf⟩ := l.perform_local second other place
  exact commute_of_apply different (fun same => absurd same apart) (he l rfl) (hf l rfl)
    (he _ (l.holders_apply other f apart)) (hf _ (l.holders_apply txn e apart.symm))

private theorem commute_of_shared (l : Locks) (page : PageId) :
    l.Commute (.request txn page .shared) (.request other page .shared) := by
  obtain ⟨reply, e, changes, he⟩ := l.request_local txn page .shared
  obtain ⟨reply', f, changes', hf⟩ := l.request_local other page .shared
  have here := he l rfl rfl
  have there := hf l rfl rfl
  have first : (l.request txn page .shared).2 = l.apply txn page e := congrArg Prod.snd here
  have second : (l.request other page .shared).2 = l.apply other page f := congrArg Prod.snd there
  refine commute_of_apply different (fun _ entry => ?_) here there ?_ ?_
  · rcases changes with same | put
    · rw [same]
      rfl
    · rcases changes' with same' | put'
      · rw [same']
        rfl
      · simp only [put, put', Option.getD_some, Option.some.injEq]
        apply Std.ExtTreeMap.ext_getElem?
        intro key
        simp only [Std.ExtTreeMap.getElem?_insert]
        split <;> split <;> rfl
  · refine he _ ?_ ?_
    · rw [← second, (l.onward_request other page .shared).others different]
    · rw [← second, blockers_request_shared]
  · refine hf _ ?_ ?_
    · rw [← first, (l.onward_request txn page .shared).others different.symm]
    · rw [← first, blockers_request_shared]

private theorem commute_of_release (l : Locks) (page place : PageId) :
    l.Commute (.release txn page) (.release other place) where
  first_reply := by simp only [perform, holds, mode?_release, different, false_and, if_false]
  second_reply := by simp only [perform, holds, mode?_release, different.symm, false_and, if_false]
  locks := l.release_comm txn other page place

private theorem commute_of_tolerates (l : Locks) (page : PageId) {first second : PageAction}
    (tolerates : first.Tolerates second) : l.Commute (first.on txn page) (second.on other page) := by
  match first, second, tolerates with
  | .request .shared, .request .shared, _ => exact commute_of_shared different l page
  | .release, .release, _ => exact commute_of_release different l page page

/-! ### Forgetting a transaction -/

private theorem perform_foldl_release (l : Locks) (action : PageAction) {place : PageId} {pages : List PageId}
    (apart : place ∉ pages) :
    (pages.foldl (fun l page => l.release txn page) l).perform (action.on other place) =
      ((l.perform (action.on other place)).1,
        pages.foldl (fun l page => l.release txn page) (l.perform (action.on other place)).2) := by
  induction pages generalizing l with
  | nil => rfl
  | cons page pages ih =>
    obtain ⟨away, apart⟩ := List.ne_and_not_mem_of_not_mem_cons apart
    have turn := commute_of_apart different l (Ne.symm away) .release action
    rw [List.foldl_cons, List.foldl_cons, ih (l.release txn page) apart]
    refine Prod.ext turn.second_reply ?_
    exact congrArg (fun l => pages.foldl (fun l page => l.release txn page) l) turn.locks

private theorem commute_forget (l : Locks) (action : PageAction) {place : PageId}
    (apart : place ∉ l.pagesOf txn) : l.Commute (.forget txn) (action.on other place) := by
  obtain ⟨reply, e, he⟩ := l.perform_local action other place
  have here := he l rfl
  have listed : (l.apply other place e).pagesOf txn = l.pagesOf txn := by
    rw [pagesOf, pagesOf, l.held_apply place e different]
  have freed : (l.stopWaiting txn).apply other place e = (l.apply other place e).stopWaiting txn := by
    simp only [apply, stopWaiting, Locks.mk.injEq, true_and]
    rw [← alter_eq_erase (f := fun _ => none) rfl, ← alter_eq_erase (f := fun _ => none) rfl]
    exact alter_comm fun same => absurd same different
  have turn := perform_foldl_release different (l.stopWaiting txn) action apart
  rw [he (l.stopWaiting txn) rfl, freed] at turn
  refine ⟨?_, ?_, ?_⟩
  · rw [here]
    exact congrArg LockReply.pages listed
  · rw [here]
    exact (Prod.ext_iff.mp turn).1
  · rw [here]
    refine (Prod.ext_iff.mp turn).2.trans ?_
    simp only [perform, forget, listed]

end Pairs

/-- Whatever was asked of the locks before: what two transactions ask of two pages, or what both ask to share a
page or to give it back, gets the same replies and leaves the same locks in either order, and so does the
forgetting of one of them with what the other asks of a page that the first has no lock on. -/
theorem actions_commute (actions : List LockAction) {txn other : TxnId} (different : txn ≠ other)
    (first second : PageAction) (page place : PageId) :
    (page ≠ place ∨ first.Tolerates second →
      (after actions).Commute (first.on txn page) (second.on other place)) ∧
    ((after actions).holds txn place = false →
      (after actions).Commute (.forget txn) (second.on other place)) := by
  refine ⟨fun apart => ?pair, fun free => ?forget⟩
  case pair =>
    by_cases same : page = place
    · subst same
      exact commute_of_tolerates different _ page (apart.resolve_left fun apart => apart rfl)
    · exact commute_of_apart different _ same first second
  case forget =>
    refine commute_forget different _ second ?_
    rw [pagesOf, Std.ExtTreeSet.mem_toList, (sound_after actions).indexed, free]
    exact Bool.false_ne_true

private def sharedSample : List LockAction :=
  [.request 3 ⟨0, 0⟩ .shared, .request 1 ⟨0, 1⟩ .exclusive]

/-- Two more share the first page in either order. One of them wants it to itself, in vain, before or after
the holder of the other page is forgotten. -/
theorem actions_commute_shared :
    (1 : TxnId) ≠ 2 ∧ (PageAction.request .shared).Tolerates (.request .shared) ∧
      (after sharedSample).Commute (.request 1 ⟨0, 0⟩ .shared) (.request 2 ⟨0, 0⟩ .shared) ∧
      (after sharedSample).holds 1 ⟨0, 0⟩ = false ∧
      ((after sharedSample).request 2 ⟨0, 0⟩ .exclusive).1 = false ∧
      (after sharedSample).Commute (.forget 1) (.request 2 ⟨0, 0⟩ .exclusive) := by
  have free : (after sharedSample).holds 1 ⟨0, 0⟩ = false := by decide +kernel
  refine ⟨by decide, trivial, ?_, free, by decide +kernel, ?_⟩
  · exact (actions_commute sharedSample (by decide) (.request .shared) (.request .shared) ⟨0, 0⟩ ⟨0, 0⟩).1
      (.inr trivial)
  · exact (actions_commute sharedSample (by decide) (.request .shared) (.request .exclusive) ⟨0, 0⟩
      ⟨0, 0⟩).2 free

end Locks

end PagedStore
