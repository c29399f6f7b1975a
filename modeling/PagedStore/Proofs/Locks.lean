import PagedStore.Locks

/-! What requests and releases do to the locks, and that exclusive holders are alone. -/
namespace PagedStore

namespace LockMode

@[simp] theorem covers_refl (m : LockMode) : m.covers m := by
  cases m <;> rfl

theorem covers_trans {a b c : LockMode} (h : a.covers b) (h' : b.covers c) : a.covers c := by
  cases a <;> cases b <;> cases c <;> simp_all [covers]

theorem eq_exclusive_of_covers {m : LockMode} (h : m.covers exclusive) : m = exclusive := by
  cases m
  · cases h
  · rfl

end LockMode

namespace Locks

@[simp] theorem mode?_empty (txn : TxnId) (page : PageId) : empty.mode? txn page = none := by
  simp [empty, mode?, holdersOf]

@[simp] theorem mode?_stopWaiting (l : Locks) (waiter txn : TxnId) (page : PageId) :
    (l.stopWaiting waiter).mode? txn page = l.mode? txn page :=
  rfl

theorem mode?_put (l : Locks) (txn : TxnId) (page : PageId) (mode : LockMode) (other : TxnId)
    (place : PageId) : (l.put txn page mode).mode? other place =
      if other = txn ∧ place = page then some mode else l.mode? other place := by
  simp only [mode?, holdersOf, put, Std.ExtTreeMap.getElem?_insert, Std.LawfulEqCmp.compare_eq_iff_eq]
  by_cases here : page = place
  · subst here
    simp only [if_true, Option.getD_some, Std.ExtTreeMap.getElem?_insert,
      Std.LawfulEqCmp.compare_eq_iff_eq, and_true, eq_comm (a := txn)]
  · rw [if_neg here, if_neg fun h => here h.2.symm]

private theorem mem_held_put (l : Locks) (txn : TxnId) (page : PageId) (mode : LockMode) (other : TxnId)
    (place : PageId) : place ∈ (l.put txn page mode).held[other]?.getD ∅ ↔
      (other = txn ∧ place = page) ∨ place ∈ l.held[other]?.getD ∅ := by
  simp only [put, Std.ExtTreeMap.getElem?_insert, Std.LawfulEqCmp.compare_eq_iff_eq]
  by_cases self : txn = other
  · subst self
    simp [Std.ExtTreeSet.mem_insert, eq_comm (a := page)]
  · rw [if_neg self]
    simp [Ne.symm self]

theorem mode?_release (l : Locks) (txn : TxnId) (page : PageId) (other : TxnId) (place : PageId) :
    (l.release txn page).mode? other place =
      if other = txn ∧ place = page then none else l.mode? other place := by
  simp only [mode?, holdersOf, release, Std.ExtTreeMap.getElem?_alter,
    Std.LawfulEqCmp.compare_eq_iff_eq]
  by_cases here : page = place
  · subst here
    have left (holders : Std.ExtTreeMap TxnId LockMode) :
        ((if (holders.erase txn).isEmpty then none else some (holders.erase txn)).getD ∅)[other]? =
          if other = txn then none else holders[other]? := by
      have erased : (holders.erase txn)[other]? = if other = txn then none else holders[other]? := by
        simp only [Std.ExtTreeMap.getElem?_erase, Std.LawfulEqCmp.compare_eq_iff_eq,
          eq_comm (a := txn)]
      split
      · rename_i none_left
        rw [← erased, Std.ExtTreeMap.isEmpty_iff.mp none_left]
        rfl
      · exact erased
    cases l.holders[page]? with
    | none => simp
    | some holders => simpa using left holders
  · rw [if_neg here, if_neg fun h => here h.2.symm]

private theorem mem_held_release (l : Locks) (txn : TxnId) (page : PageId) (other : TxnId) (place : PageId) :
    place ∈ (l.release txn page).held[other]?.getD ∅ ↔
      ¬ (other = txn ∧ place = page) ∧ place ∈ l.held[other]?.getD ∅ := by
  simp only [release, Std.ExtTreeMap.getElem?_alter, Std.LawfulEqCmp.compare_eq_iff_eq]
  by_cases self : txn = other
  · subst self
    have left (pages : Std.ExtTreeSet PageId) :
        place ∈ (if (pages.erase page).isEmpty then none else some (pages.erase page)).getD ∅ ↔
          place ≠ page ∧ place ∈ pages := by
      have erased : place ∈ pages.erase page ↔ place ≠ page ∧ place ∈ pages := by
        simp only [Std.ExtTreeSet.mem_erase, ne_eq, Std.LawfulEqCmp.compare_eq_iff_eq,
          eq_comm (a := page)]
      split
      · rename_i none_left
        rw [← erased, Std.ExtTreeSet.isEmpty_iff.mp none_left]
        rfl
      · exact erased
    cases l.held[txn]? with
    | none => simp
    | some pages => simpa using left pages
  · rw [if_neg self]
    simp [Ne.symm self]

/-- Whether the table of locks is in order: an exclusive holder is alone on its page, and the pages
listed for a transaction are those that it holds. -/
structure Sound (l : Locks) : Prop where
  alone : ∀ {txn other page}, l.mode? txn page = some .exclusive → l.holds other page → other = txn
  indexed : ∀ {txn page}, page ∈ l.held[txn]?.getD ∅ ↔ l.holds txn page

theorem Sound.empty : Locks.empty.Sound where
  alone h := by simp at h
  indexed := by simp [Locks.empty, holds, mode?, holdersOf]

theorem Sound.stopWaiting {l : Locks} (h : l.Sound) (txn : TxnId) : (l.stopWaiting txn).Sound :=
  ⟨h.alone, h.indexed⟩

theorem Sound.release {l : Locks} (h : l.Sound) (txn : TxnId) (page : PageId) :
    (l.release txn page).Sound where
  alone {holder other place} hx ho := by
    simp only [holds, mode?_release] at hx ho
    split at hx
    · cases hx
    · split at ho
      · cases ho
      · exact h.alone hx ho
  indexed {other place} := by
    simp only [mem_held_release, holds, mode?_release, h.indexed]
    split <;> simp_all

/-- What a running transaction does to the locks: those of others stay, and its own stay or get
stronger. -/
structure Onward (txn : TxnId) (l l' : Locks) : Prop where
  others : ∀ {other}, other ≠ txn → ∀ page, l'.mode? other page = l.mode? other page
  kept : ∀ {page old}, l.mode? txn page = some old → ∃ new, l'.mode? txn page = some new ∧ new.covers old
  sound : l.Sound → l'.Sound

namespace Onward
variable {txn : TxnId} {l l' l'' : Locks}

theorem refl (txn : TxnId) (l : Locks) : l.Onward txn l :=
  ⟨fun _ _ => rfl, fun h => ⟨_, h, LockMode.covers_refl _⟩, id⟩

theorem trans (h : l.Onward txn l') (h' : l'.Onward txn l'') : l.Onward txn l'' where
  others other page := by rw [h'.others other, h.others other]
  kept old := by
    obtain ⟨mid, hm, hc⟩ := h.kept old
    obtain ⟨new, hn, hc'⟩ := h'.kept hm
    exact ⟨new, hn, LockMode.covers_trans hc' hc⟩
  sound := h'.sound ∘ h.sound

/-- An exclusive lock of whomever stays. -/
theorem exclusive (h : l.Onward txn l') {holder : TxnId} {page : PageId}
    (held : l.mode? holder page = some .exclusive) : l'.mode? holder page = some .exclusive := by
  by_cases self : holder = txn
  · subst self
    obtain ⟨new, hn, hc⟩ := h.kept held
    rw [hn, LockMode.eq_exclusive_of_covers hc]
  · rw [h.others self, held]

/-- So does every lock of whomever, if not its mode. -/
theorem holds (h : l.Onward txn l') {holder : TxnId} {page : PageId} (held : l.holds holder page) :
    l'.holds holder page := by
  by_cases self : holder = txn
  · subst self
    obtain ⟨old, had⟩ := Option.isSome_iff_exists.mp held
    obtain ⟨new, has, -⟩ := h.kept had
    rw [Locks.holds, has]
    rfl
  · rw [Locks.holds, h.others self]
    exact held

theorem stopWaiting (h : l.Onward txn l') : l.Onward txn (l'.stopWaiting txn) :=
  ⟨h.others, h.kept, fun sound => (h.sound sound).stopWaiting txn⟩

/-- A lock taken since may be given back. -/
theorem release (h : l.Onward txn l') {page : PageId} (fresh : l.holds txn page = false) :
    l.Onward txn (l'.release txn page) where
  others {other} different place := by
    rw [mode?_release, if_neg fun h => different h.1, h.others different]
  kept {place old} held := by
    obtain ⟨new, hn, hc⟩ := h.kept held
    refine ⟨new, ?_, hc⟩
    rw [mode?_release, if_neg, hn]
    rintro ⟨-, rfl⟩
    simp [Locks.holds, held] at fresh
  sound hs := (h.sound hs).release txn page

end Onward

theorem blockers_eq_nil_iff {l : Locks} {txn : TxnId} {page : PageId} {mode : LockMode} :
    l.blockers txn page mode = [] ↔
      ∀ other held, l.mode? other page = some held → other ≠ txn → mode.conflicts held = false := by
  simp only [blockers, List.map_eq_nil_iff, List.filter_eq_nil_iff, Prod.forall,
    Std.ExtTreeMap.mem_toList_iff_getElem?_eq_some, mode?]
  simp

/-- A request is granted where the transaction has the lock already or nobody is in the way, and
leaves all locks as they are where it is denied. -/
theorem request_cases (l : Locks) (txn : TxnId) (page : PageId) (mode : LockMode) :
    (∃ old, l.mode? txn page = some old ∧ old.covers mode ∧
      l.request txn page mode = (true, l.stopWaiting txn)) ∨
    (l.blockers txn page mode = [] ∧ (∀ old, l.mode? txn page = some old → mode.covers old) ∧
      l.request txn page mode = (true, (l.put txn page mode).stopWaiting txn)) ∨
    (l.blockers txn page mode ≠ [] ∧ l.request txn page mode =
      (false, { l with waits := l.waits.insert txn (l.blockers txn page mode) })) := by
  unfold request
  by_cases covered : (l.mode? txn page).any (·.covers mode)
  · rw [if_pos covered]
    obtain ⟨old, held, covers⟩ := Option.any_eq_true _ _ |>.mp covered
    exact .inl ⟨old, held, covers, rfl⟩
  · rw [if_neg covered]
    cases blocked : l.blockers txn page mode with
    | nil =>
      refine .inr (.inl ⟨rfl, fun old held => ?_, rfl⟩)
      rw [held] at covered
      cases old <;> cases mode <;> simp_all [LockMode.covers]
    | cons other others => exact .inr (.inr ⟨List.cons_ne_nil _ _, rfl⟩)

theorem request_eq_of_refused {l : Locks} {txn : TxnId} {page : PageId} {mode : LockMode}
    (refused : (l.request txn page mode).1 = false) : l.request txn page mode =
      (false, { l with waits := l.waits.insert txn (l.blockers txn page mode) }) := by
  rcases l.request_cases txn page mode with ⟨-, -, -, he⟩ | ⟨-, -, he⟩ | ⟨-, he⟩
  · rw [he] at refused
    cases refused
  · rw [he] at refused
    cases refused
  · exact he

private theorem Sound.put {l : Locks} (h : l.Sound) {txn : TxnId} {page : PageId} {mode : LockMode}
    (unopposed : l.blockers txn page mode = []) : (l.put txn page mode).Sound where
  alone {holder other place} hx ho := by
    rw [blockers_eq_nil_iff] at unopposed
    simp only [holds, mode?_put] at hx ho
    split at hx
    · rename_i taken
      obtain ⟨rfl, rfl⟩ := taken
      cases hx
      split at ho
      · rename_i same
        exact same.1
      · rename_i different
        obtain ⟨held, hh⟩ := Option.isSome_iff_exists.mp ho
        have := unopposed other held hh fun self => different ⟨self, rfl⟩
        cases held <;> cases this
    · rename_i elsewhere
      split at ho
      · rename_i taken
        obtain ⟨rfl, rfl⟩ := taken
        have := unopposed holder .exclusive hx fun self => elsewhere ⟨self, rfl⟩
        cases mode <;> cases this
      · exact h.alone hx ho
  indexed {other place} := by
    simp only [mem_held_put, holds, mode?_put, h.indexed]
    split <;> simp_all

/-- Whatever a request comes to, it does to the locks what a running transaction does. -/
theorem onward_request (l : Locks) (txn : TxnId) (page : PageId) (mode : LockMode) :
    l.Onward txn (l.request txn page mode).2 := by
  rcases l.request_cases txn page mode with ⟨-, -, -, he⟩ | ⟨unopposed, stronger, he⟩ | ⟨-, he⟩
  · rw [he]
    exact ⟨fun _ _ => rfl, fun held => ⟨_, held, LockMode.covers_refl _⟩, (·.stopWaiting txn)⟩
  · rw [he]
    refine ⟨fun different place => ?_, fun {place old} held => ?_, fun h => (h.put unopposed).stopWaiting txn⟩
    · rw [mode?_stopWaiting, mode?_put, if_neg fun h => different h.1]
    · rw [mode?_stopWaiting, mode?_put]
      split
      · rename_i here
        rw [here.2] at held
        exact ⟨mode, rfl, stronger old held⟩
      · exact ⟨old, held, LockMode.covers_refl _⟩
  · rw [he]
    exact ⟨fun _ _ => rfl, fun held => ⟨_, held, LockMode.covers_refl _⟩, fun h => ⟨h.alone, h.indexed⟩⟩

/-- A granted request leaves the transaction with a lock as strong as asked for. -/
theorem covers_of_request {l : Locks} {txn : TxnId} {page : PageId} {mode : LockMode}
    (granted : (l.request txn page mode).1 = true) :
    ∃ held, (l.request txn page mode).2.mode? txn page = some held ∧ held.covers mode := by
  rcases l.request_cases txn page mode with ⟨old, held, covers, he⟩ | ⟨-, -, he⟩ | ⟨-, he⟩
  · rw [he]
    exact ⟨old, held, covers⟩
  · rw [he]
    refine ⟨mode, ?_, LockMode.covers_refl _⟩
    rw [mode?_stopWaiting, mode?_put, if_pos ⟨rfl, rfl⟩]
  · rw [he] at granted
    cases granted

/-- A granted request adds the page to those that the transaction holds, if it is not one of them. -/
theorem holds_of_request {l : Locks} {txn : TxnId} {page : PageId} {mode : LockMode}
    (granted : (l.request txn page mode).1 = true) (other : PageId) :
    (l.request txn page mode).2.holds txn other = (other == page || l.holds txn other) := by
  rcases l.request_cases txn page mode with ⟨old, held, -, he⟩ | ⟨-, -, he⟩ | ⟨-, he⟩
  · rw [he, holds, holds, mode?_stopWaiting]
    by_cases here : other = page
    · rw [here, held, beq_self_eq_true]
      rfl
    · rw [beq_false_of_ne here, Bool.false_or]
  · rw [he, holds, holds, mode?_stopWaiting, mode?_put]
    by_cases here : other = page
    · rw [if_pos ⟨rfl, here⟩, here, beq_self_eq_true]
      rfl
    · rw [if_neg fun h => here h.2, beq_false_of_ne here, Bool.false_or]
  · rw [he] at granted
    cases granted

/-- A request that is denied, and whose wait is given up, leaves nothing behind but that its transaction
waits no more. -/
theorem request_of_denied {l : Locks} {txn : TxnId} {page : PageId} {mode : LockMode}
    (denied : (l.request txn page mode).1 = false) :
    (l.request txn page mode).2.stopWaiting txn = l.stopWaiting txn := by
  have waits (blockers : List TxnId) : (l.waits.insert txn blockers).erase txn = l.waits.erase txn := by
    apply Std.ExtTreeMap.ext_getElem?
    intro other
    simp only [Std.ExtTreeMap.getElem?_erase, Std.ExtTreeMap.getElem?_insert]
    split <;> rfl
  rw [request_eq_of_refused denied, stopWaiting, waits, stopWaiting]

theorem blockers_stopWaiting (l : Locks) (waiter txn : TxnId) (page : PageId) (mode : LockMode) :
    (l.stopWaiting waiter).blockers txn page mode = l.blockers txn page mode :=
  rfl

/-- A request that is denied is denied in the same way after the wait has been given up. -/
theorem request_again {l : Locks} {txn : TxnId} {page : PageId} {mode : LockMode}
    (denied : (l.request txn page mode).1 = false) :
    (l.stopWaiting txn).request txn page mode = l.request txn page mode := by
  have denied' : ((l.stopWaiting txn).request txn page mode).1 = false := by
    rw [request] at denied ⊢
    rw [mode?_stopWaiting, blockers_stopWaiting]
    split
    · rename_i covered
      rw [if_pos covered] at denied
      cases denied
    · rename_i uncovered
      rw [if_neg uncovered] at denied
      cases blocked : l.blockers txn page mode with
      | nil =>
        rw [blocked] at denied
        cases denied
      | cons other others => rfl
  rw [request_eq_of_refused denied, request_eq_of_refused denied', blockers_stopWaiting]
  have waits : (l.stopWaiting txn).waits.insert txn (l.blockers txn page mode) =
      l.waits.insert txn (l.blockers txn page mode) := by
    apply Std.ExtTreeMap.ext_getElem?
    intro other
    simp only [stopWaiting, Std.ExtTreeMap.getElem?_erase, Std.ExtTreeMap.getElem?_insert]
    split <;> rfl
  rw [waits]
  rfl

/-- A request that was granted is granted again. -/
theorem granted_again {l : Locks} {txn : TxnId} {page : PageId} {mode : LockMode}
    (granted : (l.request txn page mode).1 = true) :
    ((l.request txn page mode).2.request txn page mode).1 = true := by
  obtain ⟨held, locked, covers⟩ := covers_of_request granted
  rw [request, locked, Option.any_some, if_pos covers]

/-! ### Forgetting a transaction -/

private theorem mode?_foldl_release (l : Locks) (txn : TxnId) (pages : List PageId) (other : TxnId)
    (place : PageId) : (pages.foldl (fun l page => l.release txn page) l).mode? other place =
      if other = txn ∧ place ∈ pages then none else l.mode? other place := by
  induction pages generalizing l with
  | nil => simp
  | cons page pages ih =>
    rw [List.foldl_cons, ih, mode?_release]
    by_cases self : other = txn <;> by_cases here : place = page <;> simp [self, here]

private theorem waits_foldl_release (l : Locks) (txn : TxnId) (pages : List PageId) :
    (pages.foldl (fun l page => l.release txn page) l).waits = l.waits := by
  induction pages generalizing l with
  | nil => rfl
  | cons page pages ih => rw [List.foldl_cons, ih, release]

theorem Sound.forget {l : Locks} (h : l.Sound) (txn : TxnId) : (l.forget txn).Sound := by
  have all (pages : List PageId) {l : Locks} (h : l.Sound) :
      (pages.foldl (fun l page => l.release txn page) l).Sound := by
    induction pages generalizing l with
    | nil => exact h
    | cons page pages ih => exact ih (h.release txn page)
  exact all _ (h.stopWaiting txn)

/-- A forgotten transaction holds nothing; the locks of others stay. -/
theorem Sound.mode?_forget {l : Locks} (h : l.Sound) (txn other : TxnId) (page : PageId) :
    (l.forget txn).mode? other page = if other = txn then none else l.mode? other page := by
  rw [Locks.forget, mode?_foldl_release, mode?_stopWaiting]
  by_cases self : other = txn
  · subst self
    rw [if_pos rfl]
    split
    · rfl
    · rename_i unlisted
      rw [pagesOf, Std.ExtTreeSet.mem_toList, h.indexed] at unlisted
      simpa [holds] using unlisted
  · rw [if_neg self, if_neg fun h => self h.1]

theorem waits_forget (l : Locks) (txn other : TxnId) :
    (l.forget txn).waits[other]? = if other = txn then none else l.waits[other]? := by
  rw [forget, waits_foldl_release, stopWaiting, Std.ExtTreeMap.getElem?_erase]
  simp only [Std.LawfulEqCmp.compare_eq_iff_eq, eq_comm (a := txn)]

end Locks

end PagedStore
