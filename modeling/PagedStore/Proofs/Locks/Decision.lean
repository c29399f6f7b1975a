import PagedStore.Proofs.Locks.Denials

/-! Which requests are granted, and what becomes of the locks and of the waits either way. -/
namespace PagedStore

def LockMode.stronger : LockMode → LockMode → LockMode
  | shared, shared => shared
  | _, _ => exclusive

private theorem LockMode.stronger_of_covers {old mode : LockMode} (h : old.covers mode) :
    old.stronger mode = old := by
  cases old <;> cases mode <;> simp_all [covers, stronger]

private theorem LockMode.stronger_of_covered {old mode : LockMode} (h : mode.covers old) :
    old.stronger mode = mode := by
  cases old <;> cases mode <;> simp_all [covers, stronger]

namespace Locks

/-- Whether a lock is granted: the transaction has the stronger one of what it had on the page and what
it asks for, the other locks stay, and it waits no longer. -/
structure Granted (l l' : Locks) (txn : TxnId) (page : PageId) (mode : LockMode) : Prop where
  taken : l'.mode? txn page = some ((l.mode? txn page).elim mode (·.stronger mode))
  others : ∀ {other place}, ¬ (other = txn ∧ place = page) → l'.mode? other place = l.mode? other place
  waits : l'.waits = l.waits.erase txn

/-- Whether a lock is refused: the locks stay, and the transaction waits for just those in the way. -/
structure Refused (l l' : Locks) (txn : TxnId) (page : PageId) (mode : LockMode) : Prop where
  holders : l'.holders = l.holders
  held : l'.held = l.held
  waits : ∃ others, l'.waits = l.waits.insert txn others ∧
    ∀ {other}, other ∈ others ↔ other ≠ txn ∧ l.Opposes other page mode

variable {l : Locks} {txn : TxnId} {page : PageId} {mode : LockMode}

private theorem granted_of_request (granted : (l.request txn page mode).1 = true) :
    Granted l (l.request txn page mode).2 txn page mode := by
  rcases l.request_cases txn page mode with ⟨old, held, covers, he⟩ | ⟨-, covered, he⟩ | ⟨-, he⟩
  · rw [he]
    refine ⟨?_, fun _ => rfl, rfl⟩
    rw [mode?_stopWaiting, held, Option.elim_some, LockMode.stronger_of_covers covers]
  · rw [he]
    refine ⟨?_, fun elsewhere => ?_, rfl⟩
    · rw [mode?_stopWaiting, mode?_put, if_pos ⟨rfl, rfl⟩]
      cases held : l.mode? txn page with
      | none => rfl
      | some old => rw [Option.elim_some, LockMode.stronger_of_covered (covered old held)]
    · rw [mode?_stopWaiting, mode?_put, if_neg elsewhere]
  · rw [he] at granted
    cases granted

private theorem refused_of_request (refused : (l.request txn page mode).1 = false) :
    Refused l (l.request txn page mode).2 txn page mode := by
  rw [request_eq_of_refused refused]
  exact ⟨rfl, rfl, _, rfl, mem_blockers⟩

private theorem blockers_eq_nil_iff_unopposed :
    l.blockers txn page mode = [] ↔ ∀ other, other ≠ txn → ¬ l.Opposes other page mode := by
  simp only [List.eq_nil_iff_forall_not_mem, mem_blockers, not_and, Opposes]

private theorem Sound.unopposed (h : l.Sound) {old : LockMode} (held : l.mode? txn page = some old)
    (covers : old.covers mode) {other : TxnId} (different : other ≠ txn) :
    ¬ l.Opposes other page mode := by
  rintro ⟨lock, locked, conflicts⟩
  cases lock with
  | exclusive => exact different (h.alone locked (by rw [holds, held]; rfl)).symm
  | shared =>
    -- only an exclusive request conflicts with a shared lock, and covering it takes an exclusive lock
    cases mode with
    | shared => cases conflicts
    | exclusive =>
      cases LockMode.eq_exclusive_of_covers covers
      exact different (h.alone held (by rw [holds, locked]; rfl))

/-- A request is granted where nobody is in the way or the transaction has the page to itself. -/
private theorem Sound.granted_iff (h : l.Sound) (txn : TxnId) (page : PageId) (mode : LockMode) :
    (l.request txn page mode).1 = true ↔
      (∀ other, other ≠ txn → ¬ l.Opposes other page mode) ∨ l.mode? txn page = some .exclusive := by
  rcases l.request_cases txn page mode with ⟨old, held, covers, he⟩ | ⟨free, -, he⟩ | ⟨blocked, he⟩
  · rw [he]
    exact iff_of_true rfl (.inl fun other => h.unopposed held covers)
  · rw [he]
    exact iff_of_true rfl (.inl (blockers_eq_nil_iff_unopposed.mp free))
  · rw [he]
    refine iff_of_false Bool.false_ne_true ?_
    have in_way : ¬ ∀ other, other ≠ txn → ¬ l.Opposes other page mode :=
      fun unopposed => blocked (blockers_eq_nil_iff_unopposed.mpr unopposed)
    rintro (unopposed | held)
    · exact in_way unopposed
    · exact in_way fun other => h.unopposed held (by cases mode <;> rfl)

/-- Whatever was asked of the locks, a request is granted just where nobody else has a lock that
conflicts with it or the transaction has the page to itself. Either way it is settled what becomes of the
locks and of the waits, and a lock stays, or gets stronger, until its own transaction unlocks the page. -/
theorem requests_decided (actions : List LockAction) :
    (∀ txn page mode,
      (((after actions).request txn page mode).1 = true ↔
        (∀ other, other ≠ txn → ¬ (after actions).Opposes other page mode) ∨
          (after actions).mode? txn page = some .exclusive) ∧
      (((after actions).request txn page mode).1 = true →
        Granted (after actions) (after (actions ++ [.request txn page mode])) txn page mode) ∧
      (((after actions).request txn page mode).1 = false →
        Refused (after actions) (after (actions ++ [.request txn page mode])) txn page mode)) ∧
    ∀ later txn page old, (after actions).mode? txn page = some old →
      (∀ action ∈ later, ¬ action.Unlocks txn page) →
        ∃ new, (after (actions ++ later)).mode? txn page = some new ∧ new.covers old := by
  refine ⟨fun txn page mode => ⟨(sound_after actions).granted_iff txn page mode, ?granted, ?refused⟩,
    fun _ _ _ _ held still => mode?_after held still⟩
  case granted =>
    intro granted
    rw [after_concat]
    exact granted_of_request granted
  case refused =>
    intro refused
    rw [after_concat]
    exact refused_of_request refused

end Locks

end PagedStore
