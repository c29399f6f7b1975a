import PagedStore.Proofs.Database.Placement

/-! Insertions under way: all that one turn of an insertion can come to, and that the turns of an insertion with
which nobody interferes make up the insertion. -/
namespace PagedStore

def Insertion.Turn.result? : Insertion.Turn → Option (Except Fault RecordId)
  | .ends result _ => some result
  | _ => none

def Insertion.Turn.record? (turn : Insertion.Turn) : Option RecordId :=
  turn.result?.bind Except.toOption

/-- Whether the next turn of an insertion adds a page, as all pages that were counted have been tried. -/
def Insertion.appends (i : Insertion) : Bool :=
  i.known.any fun pages => pages ≤ i.position

def Insertion.page (i : Insertion) : PageId :=
  i.table.pageAt i.position

def Insertion.tried (i : Insertion) : Except Fault (Option RecordId) × Database → Insertion.Turn × Database
  | (.error fault, db) => (.ends (.error fault) i.tuple, db)
  | (.ok (some record), db) => (.ends (.ok record) { i.tuple with record := some record },
    { db with cache := (db.cache.access record.page).pin record.page })
  | (.ok none, db) => (.goesOn { i with position := i.position + 1 }, db)

namespace Database

/-- All that a turn of an insertion can come to. -/
inductive Turned (db : Database) (i : Insertion) : Insertion.Turn → Database → Prop
  | counted : i.known = none → Turned db i (.goesOn { i with known := some (i.table.pages db.volume) }) db
  | added : i.appends → Turned db i (.goesOn { i with known := none }) (db.appendPage i.table).2
  | waits : ¬ i.appends → (db.locks.request i.txn i.page .exclusive).1 = false →
      Turned db i .waits { db with locks := (db.locks.request i.txn i.page .exclusive).2 }
  | failed {fault : Fault} {mid : Database} : (db.locks.request i.txn i.page .exclusive).1 = true →
      db.tryPage i.txn i.tuple i.page = (.error fault, mid) → Turned db i (.ends (.error fault) i.tuple) mid
  | passed {mid : Database} : ¬ i.appends → (db.locks.request i.txn i.page .exclusive).1 = true →
      db.tryPage i.txn i.tuple i.page = (.ok none, mid) →
      Turned db i (.goesOn { i with position := i.position + 1 }) mid
  | placed {record : RecordId} {mid : Database} : ¬ i.appends →
      (db.locks.request i.txn i.page .exclusive).1 = true →
      db.tryPage i.txn i.tuple i.page = (.ok (some record), mid) →
      Turned db i (.ends (.ok record) { i.tuple with record := some record })
        { mid with cache := (mid.cache.access record.page).pin record.page }

section Turns
variable (grows : Table → Volume → Prop) {db : Database} (keyed : db.cache.Keyed) (i : Insertion)

private theorem keyed_tryPage {txn : TxnId} {tuple : Tuple} {page : PageId} (keyed : db.cache.Keyed) :
    (db.tryPage txn tuple page).2.cache.Keyed :=
  (attempt_tryPage (fun _ _ => True) txn tuple keyed page).keyed keyed

theorem visitNext_of_denied (denied : (db.locks.request i.txn i.page .exclusive).1 = false) :
    db.visitNext i = (.waits, { db with locks := (db.locks.request i.txn i.page .exclusive).2 }) := by
  have asked : db.tryLock i.txn i.page Access.write.mode =
      (false, { db with locks := (db.locks.request i.txn i.page .exclusive).2 }) :=
    Prod.ext denied rfl
  simp only [visitNext, show i.table.pageAt i.position = i.page from rfl, asked]

include keyed

/-- Where the lock is granted, a page is tried as by an insertion that is made at once. -/
theorem visitNext_of_granted (granted : (db.locks.request i.txn i.page .exclusive).1 = true) :
    db.visitNext i = i.tried (db.tryPage i.txn i.tuple i.page) := by
  have asked : db.tryLock i.txn i.page Access.write.mode =
      (true, { db with locks := (db.locks.request i.txn i.page .exclusive).2 }) :=
    Prod.ext granted rfl
  have fetched : db.fetch i.txn i.page .write =
      provide { db with locks := (db.locks.request i.txn i.page .exclusive).2 } i.page :=
    fetch_of_granted granted
  have tells := db.tells_placeOnPage i.txn i.tuple i.page
  have keyed' := @keyed_tryPage db i.txn i.tuple i.page keyed
  simp only [visitNext, show i.table.pageAt i.position = i.page from rfl, asked]
  rw [placeOnPage, fetched] at tells
  generalize db.tryPage i.txn i.tuple i.page = told at tells keyed' ⊢
  generalize provide { db with locks := (db.locks.request i.txn i.page .exclusive).2 } i.page = provided
    at tells ⊢
  rcases provided with ⟨fault | frame, mid⟩
  · cases tells
    rfl
  · simp only at tells ⊢
    generalize mid.putInto i.txn i.tuple (db.locks.holds i.txn i.page) i.page frame = outcome at tells ⊢
    cases tells with
    | failed => rfl
    | passed => rfl
    | placed lies =>
      simp only [keep_of_lies keyed' lies]
      rfl

private theorem turned_visitNext (more : ¬ i.appends) : Turned db i (db.visitNext i).1 (db.visitNext i).2 := by
  cases asked : (db.locks.request i.txn i.page .exclusive).1 with
  | false =>
    rw [visitNext_of_denied i asked]
    exact .waits more asked
  | true =>
    rw [visitNext_of_granted keyed i asked]
    rcases tried : db.tryPage i.txn i.tuple i.page with ⟨fault | _ | record, mid⟩
    · exact .failed asked tried
    · exact .passed more asked tried
    · exact .placed more asked tried

theorem turned : Turned db i (db.takeTurn i).1 (db.takeTurn i).2 := by
  rw [takeTurn]
  cases known : i.known with
  | none => exact .counted known
  | some pages =>
    simp only
    by_cases more : i.position < pages
    · rw [if_pos more]
      exact turned_visitNext keyed i (by simp [Insertion.appends, known, more])
    · rw [if_neg more]
      exact .added (by simp [Insertion.appends, known, Nat.le_of_not_lt more])

/-- A turn brings the insertion on its way, and puts the tuple into its place at most. -/
theorem attempt_takeTurn (may : i.appends → grows i.table db.volume) :
    Attempt grows i.txn (asRecord i.tuple) db (db.takeTurn i).1.record? (db.takeTurn i).2 := by
  have turned := turned keyed i
  generalize (db.takeTurn i).1 = turn, (db.takeTurn i).2 = db' at turned
  have tried := attempt_tryPage grows i.txn i.tuple keyed i.page
  cases turned with
  | counted _ => exact .of_approach .still
  | added adds => exact .of_approach (.append i.table .still (may adds))
  | waits _ _ => exact .of_approach (.wait .still (db.locks.onward_request i.txn i.page .exclusive))
  | failed _ he =>
    rw [he] at tried
    exact tried
  | passed _ _ he =>
    rw [he] at tried
    exact tried
  | placed _ _ he =>
    rw [he] at tried
    obtain ⟨mid, way, edit⟩ := tried
    exact ⟨mid, way, edit.pin _⟩

/-- What an insertion is to do stays the same from turn to turn. -/
theorem same_of_turn {next : Insertion} (goes_on : (db.takeTurn i).1 = .goesOn next) :
    next.table = i.table ∧ next.txn = i.txn ∧ next.tuple = i.tuple := by
  have turned := turned keyed i
  generalize (db.takeTurn i).1 = turn, (db.takeTurn i).2 = after at turned goes_on
  subst goes_on
  cases turned <;> exact ⟨rfl, rfl, rfl⟩

/-- A turn of an insertion puts the tuple into the page that it tries. -/
theorem page_of_turn {record : RecordId} (done : (db.takeTurn i).1.record? = some record) :
    record.page.table = i.table.id := by
  have turned := turned keyed i
  generalize (db.takeTurn i).1 = turn, (db.takeTurn i).2 = after at turned done
  cases turned with
  | placed _ _ tried =>
    cases done
    exact congrArg PageId.table (page_of_tryPage keyed (congrArg Prod.fst tried))
  | _ => cases done

end Turns

/-! ### Insertions with which nobody interferes -/

/-- What an insertion comes to if nobody acts between its turns: one that has to wait gives up. -/
inductive Takes : Database → Insertion → Except Fault RecordId × Tuple × Database → Prop
  | goesOn {db mid : Database} {i next : Insertion} {outcome : Except Fault RecordId × Tuple × Database} :
      db.takeTurn i = (.goesOn next, mid) → Takes mid next outcome → Takes db i outcome
  | givesUp {db mid : Database} {i : Insertion} : db.takeTurn i = (.waits, mid) →
      Takes db i (.error (mid.giveUp i.txn).1, i.tuple, (mid.giveUp i.txn).2)
  | ends {db mid : Database} {i : Insertion} {result : Except Fault RecordId} {tuple : Tuple} :
      db.takeTurn i = (.ends result tuple, mid) → Takes db i (result, tuple, mid)

section Uninterrupted
variable {db : Database} (keyed : db.cache.Keyed) (i : Insertion)

private def told (tuple : Tuple) : Except Fault RecordId × Database → Except Fault RecordId × Tuple × Database
  | (.error fault, db) => (.error fault, tuple, db)
  | (.ok record, db) => (.ok record, { tuple with record := some record },
    { db with cache := (db.cache.access record.page).pin record.page })

private theorem result_told (tuple : Tuple) (outcome : Except Fault RecordId × Database) :
    (told tuple outcome).1 = outcome.1 := by
  rcases outcome with ⟨_ | _, _⟩ <;> rfl

/-- Whether trying pages leads an insertion to an outcome: the insertion goes on if they were all full. -/
private inductive Leads (i : Insertion) : Except Fault RecordId × Tuple × Database →
    Except Fault (Option RecordId) × Database → Prop
  | failed {fault : Fault} {mid : Database} : Leads i (told i.tuple (.error fault, mid)) (.error fault, mid)
  | placed {record : RecordId} {mid : Database} :
      Leads i (told i.tuple (.ok record, mid)) (.ok (some record), mid)
  | passed {mid : Database} {outcome : Except Fault RecordId × Tuple × Database} :
      Takes mid i outcome → Leads i outcome (.ok none, mid)

private theorem takeTurn_of_counted {pages : Nat} (known : i.known = some pages) :
    db.takeTurn i = if i.position < pages then db.visitNext i
      else (.goesOn { i with known := none }, (db.appendPage i.table).2) := by
  rw [takeTurn, known]

private theorem tryPage_of_denied (denied : (db.locks.request i.txn i.page .exclusive).1 = false) :
    db.tryPage i.txn i.tuple i.page = (.error (giveUp { db with
        locks := (db.locks.request i.txn i.page .exclusive).2 } i.txn).1,
      (giveUp { db with locks := (db.locks.request i.txn i.page .exclusive).2 } i.txn).2) := by
  have asked : db.tryLock i.txn i.page Access.write.mode =
      (false, { db with locks := (db.locks.request i.txn i.page .exclusive).2 }) :=
    Prod.ext denied rfl
  simp only [tryPage, fetch, lock, asked]

include keyed

/-- The turns that try the pages counted come to what trying these pages comes to. -/
private theorem takes_of_tryPages {left : Nat} (known : i.known = some (i.position + left))
    {outcome : Except Fault RecordId × Tuple × Database}
    (leads : Leads { i with position := i.position + left } outcome
      (db.tryPages i.table i.txn i.tuple i.position left)) : Takes db i outcome := by
  induction left generalizing db i with
  | zero =>
    cases leads with
    | passed takes => exact takes
  | succ left ih =>
    have turn := @takeTurn_of_counted db i _ known
    rw [if_pos (Nat.lt_add_of_pos_right (Nat.succ_pos left))] at turn
    rw [tryPages, show i.table.pageAt i.position = i.page from rfl] at leads
    cases asked : (db.locks.request i.txn i.page .exclusive).1 with
    | false =>
      rw [visitNext_of_denied i asked] at turn
      rw [tryPage_of_denied i asked] at leads
      cases leads
      exact .givesUp turn
    | true =>
      have keyed' := @keyed_tryPage db i.txn i.tuple i.page keyed
      rw [visitNext_of_granted keyed i asked] at turn
      rcases he : db.tryPage i.txn i.tuple i.page with ⟨fault | _ | record, after⟩
      · rw [he] at leads turn
        cases leads
        exact .ends turn
      · rw [he] at leads turn keyed'
        have onward : i.position + (left + 1) = i.position + 1 + left := by omega
        rw [onward] at known leads
        exact .goesOn turn (ih keyed' { i with position := i.position + 1 } known leads)
      · rw [he] at leads turn
        cases leads
        exact .ends turn

private theorem takes_of_tryAppended (limit : Nat) {pages : Nat} (known : i.known = some pages)
    (passed : pages ≤ i.position) (here : i.position = i.table.pages db.volume)
    (ends : ¬ endless (db.tryAppended i.table i.txn i.tuple i.position limit).1) :
    Takes db i (told i.tuple (db.tryAppended i.table i.txn i.tuple i.position limit)) := by
  induction limit generalizing db i pages with
  | zero => exact absurd rfl ends
  | succ limit ih =>
    have turn := @takeTurn_of_counted db i _ known
    rw [if_neg (Nat.not_lt.mpr passed)] at turn
    have keyed' : (db.appendPage i.table).2.cache.Keyed := keyed
    have longer : i.position ≤ i.table.pages (db.appendPage i.table).2.volume :=
      here ▸ i.table.pages_le_append db.volume
    refine .goesOn turn (.goesOn (i := { i with known := none }) rfl ?_)
    simp only [tryAppended] at ends ⊢
    generalize (db.appendPage i.table).2 = added at ends longer keyed' ⊢
    have way := attempt_tryPages (fun _ _ => False) i.txn i.tuple keyed' i.table i.position
      (i.table.pages added.volume - i.position)
    have whole : i.position + (i.table.pages added.volume - i.position) = i.table.pages added.volume :=
      Nat.add_sub_cancel' longer
    refine takes_of_tryPages keyed' { i with known := some (i.table.pages added.volume) }
      (congrArg some whole.symm) ?_
    simp only [whole]
    rcases he : added.tryPages i.table i.txn i.tuple i.position
      (i.table.pages added.volume - i.position) with ⟨fault | _ | record, mid⟩
    · exact .failed
    · rw [he] at ends way
      have volume := way.volume_eq
      exact .passed (ih (way.approach.keyed keyed')
        { i with position := i.table.pages added.volume, known := some (i.table.pages added.volume) }
        rfl (Nat.le_refl _) (congrArg i.table.pages volume.symm) ends)
    · exact .placed

/-- An insertion whose turns are taken with nobody acting in between comes to what an insertion made at once
comes to. -/
theorem takes_insertTuple {txn : TxnId} {id : TableId} {tuple : Tuple}
    (started : db.startInsertion txn id tuple = .ok i) (ends : ¬ endless (db.insertTuple txn id tuple).1) :
    Takes db i (db.insertTuple txn id tuple) := by
  rw [startInsertion] at started
  cases known : db.catalog.table id with
  | error fault =>
    rw [known] at started
    cases started
  | ok table =>
    have whole : db.insertTuple txn id tuple = told tuple (db.insertInto table txn tuple) := by
      rw [insertTuple_eq txn tuple keyed, known]
      simp only
      rcases db.insertInto table txn tuple with ⟨_ | _, _⟩ <;> rfl
    rw [whole, result_told] at ends
    rw [whole]
    simp only [known] at started
    split at started
    · rename_i agrees
      cases started
      rw [insertInto_eq, if_pos agrees] at ends ⊢
      have way := attempt_tryPages (fun _ _ => False) txn tuple keyed table 0 (table.pages db.volume)
      refine @Takes.goesOn db db _ ⟨table, txn, tuple, 0, some (table.pages db.volume)⟩ _ rfl
        (takes_of_tryPages keyed ⟨table, txn, tuple, 0, some (table.pages db.volume)⟩
          (congrArg some (Nat.zero_add _).symm) ?_)
      simp only [Nat.zero_add] at ends ⊢
      rcases he : db.tryPages table txn tuple 0 (table.pages db.volume) with ⟨fault | _ | record, mid⟩
      · exact .failed
      · rw [he] at ends way
        have volume := way.volume_eq
        exact .passed (takes_of_tryAppended (way.approach.keyed keyed)
          ⟨table, txn, tuple, table.pages db.volume, some (table.pages db.volume)⟩ _ rfl (Nat.le_refl _)
          (congrArg table.pages volume.symm) ends)
      · exact .placed
    · cases started

end Uninterrupted

end Database

end PagedStore
