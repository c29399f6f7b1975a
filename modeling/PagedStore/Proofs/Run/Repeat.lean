import Mathlib.Data.List.Induction
import PagedStore.Proofs.Database.Placement
import PagedStore.Proofs.Run.Mirror

/-! A transaction that has scanned a table to its end keeps it as it is for as long as it goes on, if the
table has a page at all: each further scan of it yields the same. -/
namespace PagedStore

/-! ### Whole scans -/

def Reply.Faultless : Reply → Prop
  | .more result _ => ∃ more, result = .ok more
  | .next result _ => ∀ fault, result ≠ some (.error fault)
  | .rows results _ => ∃ tuples : List Tuple, results = tuples.map .ok
  | _ => False

/-- Whether a reply about a scan tells, without a fault, that nothing more is to come. -/
def Reply.Exhausts : Reply → Prop
  | .more result _ => result = .ok false
  | .next result _ => result = none
  | .rows results _ => ∃ tuples : List Tuple, results = tuples.map .ok
  | _ => False

private theorem Reply.Exhausts.faultless {reply : Reply} (h : reply.Exhausts) : reply.Faultless := by
  cases reply with
  | more result scan => exact ⟨false, h⟩
  | next result scan =>
    intro fault failed
    rw [show result = none from h] at failed
    cases failed
  | rows results scan => exact h
  | _ => exact h.elim

/-- Whether a scan is brought from one state to another by its actions among others, none of which has a
fault, and yields the given tuples on the way. -/
inductive Scan.Follows (s : Scan) : List (Action × Reply) → List Tuple → Scan → Prop
  | start : Follows s [] [] s
  | other {trace : List (Action × Reply)} {yielded : List Tuple} {s' : Scan} (step : Action × Reply) :
      Follows s trace yielded s' → Follows s (trace ++ [step]) yielded s'
  | turn {trace : List (Action × Reply)} {yielded : List Tuple} {mid s' : Scan} {action : Action}
      {reply : Reply} : Follows s trace yielded mid → action.scan? = some mid →
      reply.scan? = some s' → reply.Faultless →
      Follows s (trace ++ [(action, reply)]) (yielded ++ reply.yielded) s'

/-- Whether a scan yields the given tuples along a run, at whose end it is told that these are all. -/
def Scan.Completes (s : Scan) (trace : List (Action × Reply)) (tuples : List Tuple) : Prop :=
  ∃ (earlier : List (Action × Reply)) (action : Action) (reply : Reply) (before : List Tuple)
    (last : Scan), trace = earlier ++ [(action, reply)] ∧ s.Follows earlier before last ∧
      action.scan? = some last ∧ reply.Exhausts ∧ tuples = before ++ reply.yielded

namespace Scan.Follows
variable {s s' : Scan} {trace : List (Action × Reply)} {yielded : List Tuple}

private theorem of_nil (h : s.Follows [] yielded s') : s' = s ∧ yielded = [] := by
  generalize none_taken : ([] : List (Action × Reply)) = whole at h
  cases h with
  | start => exact ⟨rfl, rfl⟩
  | other step _ => exact absurd none_taken.symm (List.append_ne_nil_of_right_ne_nil _ (by simp))
  | turn _ _ _ _ => exact absurd none_taken.symm (List.append_ne_nil_of_right_ne_nil _ (by simp))

private theorem of_concat {step : Action × Reply} (h : s.Follows (trace ++ [step]) yielded s') :
    s.Follows trace yielded s' ∨ ∃ before mid, s.Follows trace before mid ∧
      step.1.scan? = some mid ∧ step.2.scan? = some s' ∧ step.2.Faultless ∧
      yielded = before ++ step.2.yielded := by
  generalize same : trace ++ [step] = whole at h
  cases h with
  | start => exact absurd same (List.append_ne_nil_of_right_ne_nil _ (by simp))
  | other step' earlier =>
    obtain ⟨rfl, -⟩ := List.append_inj' same rfl
    exact .inl earlier
  | turn earlier about after faultless =>
    obtain ⟨rfl, last⟩ := List.append_inj' same rfl
    cases last
    exact .inr ⟨_, _, earlier, about, after, faultless, rfl⟩

private theorem others (s : Scan) (trace : List (Action × Reply)) : s.Follows trace [] s := by
  induction trace using List.reverseRecOn with
  | nil => exact .start
  | append_singleton trace step ih => exact ih.other step

end Scan.Follows

private theorem Scan.Completes.of_collect {s : Scan} {db : Database} {tuples : List Tuple}
    (all : (s.collect db).1 = tuples.map .ok) (trace : List (Action × Reply)) :
    s.Completes (trace ++ [(.collect s, (db.perform (.collect s)).1)]) tuples := by
  refine ⟨trace, _, _, [], s, rfl, .others s trace, rfl, ⟨tuples, all⟩, ?_⟩
  rw [List.nil_append, Database.perform, Reply.yielded, all, Scan.rows_ok]

namespace Scan

/-- A scan that looks for a tuple goes on by as many pages at most as are left, and by all of them if it
finds none. -/
private theorem advance_bounds (s : Scan) (db : Database) (left : Nat) :
    (advance db s left).2.1.isOpen = s.isOpen ∧ (advance db s left).2.1.next ≤ s.next + left ∧
      ((advance db s left).1 = .ok false → (advance db s left).2.1.pending = [] ∧
        (advance db s left).2.1.next = s.next + left) ∧
      ((advance db s left).1 = .ok true → (advance db s left).2.1.pending ≠ []) := by
  induction left generalizing s db with
  | zero =>
    refine ⟨rfl, Nat.le_refl _, fun none_left => ⟨?_, rfl⟩, fun some_left => ?_⟩
    · simpa [advance] using none_left
    · simpa [advance] using some_left
  | succ left ih =>
    rw [advance]
    cases hp : s.pending with
    | cons tuple rest =>
      refine ⟨rfl, Nat.le_add_right _ _, fun none_left => (by cases none_left), fun _ => ?_⟩
      simp only [hp]
      exact List.cons_ne_nil _ _
    | nil =>
      cases he : db.fetch s.txn (s.table.pageAt s.next) .read with
      | mk result mid =>
        cases result with
        | error fault =>
          exact ⟨rfl, Nat.le_add_right _ _, fun none_left => (by cases none_left),
            fun some_left => (by cases some_left)⟩
        | ok frame =>
          have rest := ih { s with next := s.next + 1, pending := frame.page.tuples } mid
          rwa [Nat.add_assoc, Nat.add_comm 1] at rest

/-- How far a scan has come after an action without a fault, and that it has come to the end of its table
if it is told so. -/
private structure Stays (s : Scan) (db : Database) (reply : Reply) (s' : Scan) : Prop where
  isOpen : s'.isOpen
  next_le : s'.next ≤ max s.next (s.table.pages db.volume)
  done : reply.Exhausts → s'.pending = [] ∧ s.table.pages db.volume ≤ s'.next

private theorem stays_hasMore {s : Scan} {db : Database} (opened : s.isOpen) :
    (s.hasMore db).2.1.isOpen ∧ (s.hasMore db).2.1.next ≤ max s.next (s.table.pages db.volume) ∧
      ((s.hasMore db).1 = .ok false → (s.hasMore db).2.1.pending = [] ∧
        s.table.pages db.volume ≤ (s.hasMore db).2.1.next) ∧
      ((s.hasMore db).1 = .ok true → (s.hasMore db).2.1.pending ≠ []) := by
  obtain ⟨same, next, done, more⟩ := s.advance_bounds db (s.pagesLeft db)
  rw [hasMore, if_pos opened]
  rw [pagesLeft] at same next done more ⊢
  refine ⟨same.trans opened, by omega, fun none_left => ?_, more⟩
  obtain ⟨empty, last⟩ := done none_left
  exact ⟨empty, by omega⟩

private theorem stays_perform {db : Database} {action : Action} {s s' : Scan}
    (about : action.scan? = some s) (opened : s.isOpen)
    (faultless : (db.perform action).1.Faultless) (after : (db.perform action).1.scan? = some s') :
    s.Stays db (db.perform action).1 s' := by
  cases action with
  | hasMore scan =>
    cases about
    cases after
    obtain ⟨same, next, done, -⟩ := @stays_hasMore s db opened
    exact ⟨same, next, done⟩
  | step scan =>
    cases about
    cases after
    obtain ⟨same, next, done, more⟩ := @stays_hasMore s db opened
    simp only [Database.perform, Reply.Faultless, step] at faultless ⊢
    rcases he : s.hasMore db with ⟨fault | (_ | _), s', db'⟩
    · rw [he] at faultless
      exact absurd rfl (faultless fault)
    · rw [he] at same next done
      exact ⟨same, next, fun _ => done rfl⟩
    · rw [he] at same next more
      simp only
      cases hp : s'.pending with
      | nil => exact absurd hp (more rfl)
      | cons tuple rest =>
        exact ⟨same, next, fun none_left => (by cases none_left)⟩
  | collect scan =>
    cases about
    cases after
    obtain ⟨tuples, all⟩ := faultless
    simp only [Database.perform, collect, opened, if_true] at all ⊢
    obtain ⟨-, -, -, -, last⟩ := reads_of_collectPages all
    rw [last, pagesLeft]
    exact ⟨opened, by simp only; omega, fun _ => ⟨rfl, by simp only; omega⟩⟩
  | _ => cases about

end Scan

/-! ### One step -/

def Action.writer? : Action → Option TxnId
  | .insert txn _ _ => some txn
  | .insertInto _ txn _ => some txn
  | .delete txn _ => some txn
  | .deleteFrom _ txn _ => some txn
  | .advance insertion => some insertion.txn
  | .complete txn _ _ => some txn
  | _ => none

private theorem Action.writer?_of_scan {action : Action} {s : Scan} (about : action.scan? = some s) :
    action.writer? = none := by
  cases action with
  | hasMore scan => rfl
  | step scan => rfl
  | collect scan => rfl
  | _ => cases about

private theorem Change.writer?_eq {action : Action} {reply : Reply} {c : Change}
    (made : of? action reply = some c) : action.writer? = some c.txn := by
  unfold of? at made
  split at made
  · obtain ⟨record, -, rfl⟩ := Option.map_eq_some_iff.mp made
    rfl
  · obtain ⟨record, -, rfl⟩ := Option.map_eq_some_iff.mp made
    rfl
  · obtain ⟨record, -, rfl⟩ := Option.map_eq_some_iff.mp made
    rfl
  · obtain ⟨record, -, rfl⟩ := Option.map_eq_some_iff.mp made
    rfl
  · obtain ⟨record, -, rfl⟩ := Option.map_eq_some_iff.mp made
    rfl
  · cases made

private theorem Ledger.note_of_idle {action : Action} (idle : action.writer? = none) (l : Ledger)
    (reply : Reply) :
    l.note (action, reply) = l := by
  have goes_on (txn : TxnId) (commit : Bool) (order : List PageId) :
      action ≠ .complete txn commit order := by
    rintro rfl
    cases idle
  rw [note_of_change goes_on]
  cases made : Change.of? action reply with
  | none => rfl
  | some c =>
    rw [Change.writer?_eq made] at idle
    cases idle

def Action.Disturbs (txn : TxnId) (table : Table) (action : Action) (reply : Reply) : Prop :=
  (∃ commit order, action = .complete txn commit order) ∨
    ∃ c, Change.of? action reply = some c ∧ c.txn = txn ∧ c.record.page.table = table.id

private theorem Action.not_disturbs {txn : TxnId} {action : Action} (other : action.writer? ≠ some txn)
    (table : Table) (reply : Reply) : ¬ action.Disturbs txn table reply := by
  rintro (⟨commit, order, rfl⟩ | ⟨c, made, rfl, -⟩)
  · exact other rfl
  · exact other (Change.writer?_eq made)

/-- What transactions do that store short texts only, while one of them neither ends nor changes a
table. -/
def Undisturbed (txn : TxnId) (table : Table) (db : Database) (action : Action) (reply : Reply) :
    Prop :=
  Ordinary.Short db action reply ∧ ¬ action.Disturbs txn table reply

/-- Whether an insertion has not got past the first page of its table, if it knows of one. -/
def Insertion.AtFirst (i : Insertion) : Prop :=
  i.position = 0 ∧ i.known ≠ some 0

/-- Whether an action is no turn of an insertion by others into a table that has got past the first page. -/
def Action.KeptOut (txn : TxnId) (table : Table) : Action → Prop
  | .advance i => i.txn ≠ txn → i.table.id = table.id → i.AtFirst
  | _ => True

/-- Whether all insertions into a table of which turns are taken along a trace begin there: each turn is the first one
of an insertion or goes on from an earlier one. -/
def BeginWithin (table : Table) (trace : List (Action × Reply)) : Prop :=
  ∀ ⦃earlier later : List (Action × Reply)⦄ ⦃i : Insertion⦄ ⦃reply : Reply⦄,
    trace = earlier ++ (.advance i, reply) :: later → i.table.id = table.id →
      (i.position = 0 ∧ i.known = none) ∨
        ∃ before, (Action.advance before, Reply.turn (.goesOn i)) ∈ earlier

private theorem BeginWithin.initial {table : Table} {trace more : List (Action × Reply)}
    (h : BeginWithin table (trace ++ more)) : BeginWithin table trace := by
  rintro earlier later i reply rfl own
  exact h (List.append_assoc earlier _ more) own

def Ledger.Blank (initial : RecordId → Option (List Value)) (l : Ledger) (page : PageId) : Prop :=
  (∀ writer, ∀ c ∈ l.pending writer, c.record.page ≠ page) ∧
    ∀ slot, l.rows initial ⟨page, slot⟩ = none

private theorem Ledger.Blank.view_eq {initial : RecordId → Option (List Value)} {l : Ledger} {page : PageId}
    (h : l.Blank initial page) (writer? : Option TxnId) (slot : Nat) :
    l.view initial writer? ⟨page, slot⟩ = none := by
  cases writer? with
  | none => exact h.2 slot
  | some writer => exact (seenBy_of_untouched (h.1 writer)).trans (h.2 slot)

/-- A database with a table that it knows, as a ledger tells, in which all texts are short. -/
structure Scene (initial : RecordId → Option (List Value)) (table : Table) (l : Ledger)
    (db : Database) : Prop where
  agrees : Agrees initial l db
  verbatim : db.Verbatim
  known : db.Knows table

namespace Scene
open Database
variable {initial : RecordId → Option (List Value)} {table : Table} {l : Ledger} {db : Database}
  (h : Scene initial table l db)
include h

private theorem blank_of_beyond {page : PageId} (own : page.table = table.id)
    (behind : table.pages db.volume ≤ page.number) : l.Blank initial page := by
  refine ⟨fun writer c listed here => ?_, h.agrees.beyond (own ▸ h.known) behind⟩
  obtain ⟨frame, cached, -⟩ := h.agrees.pending listed
  obtain ⟨other, known, inside⟩ := h.agrees.onDisk (here ▸ cached)
  rw [own, h.known] at known
  cases known
  exact Nat.not_le.mpr inside behind

variable {txn : TxnId} {action : Action} (fits : action.Fits db)
  (may : Undisturbed txn table db action (db.perform action).1)
include fits may

private theorem cases_of_step :
    (∃ writer commit order, action = .complete writer commit order ∧ writer ≠ txn) ∨
    (∃ writer, l.note (action, (db.perform action).1) = l ∧ Quiet writer db (db.perform action).2) ∨
    ∃ c mid, Change.of? action (db.perform action).1 = some c ∧
      l.note (action, (db.perform action).1) = l.add c ∧ Quiet c.txn db mid ∧
      Edit c.txn c.record c.content mid (db.perform action).2 := by
  obtain ⟨⟨ordinary, -⟩, undisturbed⟩ := may
  by_cases ending : ∃ writer commit order, action = .complete writer commit order
  · obtain ⟨writer, commit, order, rfl⟩ := ending
    refine .inl ⟨writer, commit, order, rfl, fun self => undisturbed (.inl ⟨commit, order, ?_⟩)⟩
    rw [self]
  · rw [Ledger.note_of_change fun writer commit order same => ending ⟨writer, commit, order, same⟩]
    have moves := (h.agrees.sound.completes_or_moves ordinary.usual ordinary.2).resolve_left ending
    rcases moves.cases with ⟨made, writer, quiet⟩ | ⟨c, mid, made, quiet, edit⟩
    · rw [made]
      exact .inr (.inl ⟨writer, rfl, quiet⟩)
    · refine .inr (.inr ⟨c, mid, made, ?_, quiet, edit⟩)
      rw [made]
      rfl

private theorem step : Scene initial table (l.note (action, (db.perform action).1)) (db.perform action).2 := by
  refine ⟨h.agrees.step fits may.1.1, h.verbatim.step h.agrees.sound fits may.1, ?_⟩
  rcases h.cases_of_step fits may with ⟨writer, commit, order, rfl, -⟩ | ⟨writer, -, quiet⟩ |
    ⟨c, mid, -, -, quiet, edit⟩
  · rw [Knows, show (db.perform (.complete writer commit order)).2.catalog = db.catalog from
      (h.agrees.sound.completed commit fits).catalog]
    exact h.known
  · rw [Knows, quiet.catalog]
    exact h.known
  · rw [Knows, edit.catalog, quiet.catalog]
    exact h.known

/-- The table keeps its pages, and grows only by pages with numbers of their own. -/
private theorem pages_step : table.pages db.volume ≤ table.pages (db.perform action).2.volume ∧
    table.pages (db.perform action).2.volume ≤ max (table.pages db.volume) 4294967296 := by
  rcases h.cases_of_step fits may with ⟨writer, commit, order, rfl, -⟩ | ⟨writer, -, quiet⟩ |
    ⟨c, mid, -, -, quiet, edit⟩
  · rw [show table.pages (db.perform (.complete writer commit order)).2.volume =
      table.pages db.volume from h.agrees.pages_complete fits commit table]
    exact ⟨Nat.le_refl _, Nat.le_max_left _ _⟩
  · exact ⟨(quiet.grown table h.known).pages_le, quiet.numbered table h.known⟩
  · rw [edit.volume]
    exact ⟨(quiet.grown table h.known).pages_le, quiet.numbered table h.known⟩

/-- What the transaction has locked stays locked by it, and it goes on to see there what it saw. -/
private theorem locked_step {page : PageId} (own : page.table = table.id) (held : db.locks.holds txn page) :
    (db.perform action).2.locks.holds txn page ∧ ∀ slot,
      (l.note (action, (db.perform action).1)).seenBy initial txn ⟨page, slot⟩ =
        l.seenBy initial txn ⟨page, slot⟩ := by
  rcases h.cases_of_step fits may with ⟨writer, commit, order, rfl, other⟩ | ⟨writer, same, quiet⟩ |
    ⟨c, mid, made, same, quiet, edit⟩
  · have completed := h.agrees.sound.completed commit fits
    refine ⟨?_, fun slot => ?_⟩
    · show (db.completeIn writer commit order).2.locks.holds txn page
      rw [Locks.holds, completed.others_locked (Ne.symm other)]
      exact held
    · show (l.close writer commit).view initial (some txn) _ = l.view initial (some txn) _
      refine Ledger.view_close commit (fun same => other (Option.some.inj same).symm) ?_
      intro c listed here
      obtain ⟨frame, cached, changed⟩ := h.agrees.pending listed
      have owner := h.agrees.owned cached changed
      rw [here] at owner
      exact other (h.agrees.sound.locks.alone owner held).symm
  · exact ⟨quiet.locks.holds held, fun slot => by rw [same]⟩
  · refine ⟨?_, fun slot => ?_⟩
    · rw [edit.locks]
      exact quiet.locks.holds held
    · rw [same, Ledger.seenBy_add, if_neg]
      rintro ⟨self, here⟩
      refine may.2 (.inr ⟨c, made, self.symm, ?_⟩)
      rw [← here, own]

omit fits may in
/-- While the transaction has the first page of the table locked, an insertion by another one that has not got past
that page does not do so in its next turn. -/
private theorem turn_kept_out (filled : 0 < table.pages db.volume) (held : db.locks.holds txn (table.pageAt 0))
    {i : Insertion} (known : db.Knows i.table) (own : i.table.id = table.id) (other : i.txn ≠ txn)
    (first : i.AtFirst) :
    (db.takeTurn i).1.record? = none ∧ ∀ next, (db.takeTurn i).1 = .goesOn next → next.AtFirst := by
  have same : i.table = table := eq_of_knows known h.known own
  have page : i.page = table.pageAt 0 := by rw [Insertion.page, same, first.1]
  have denied := request_denied h.agrees.sound.locks (page ▸ held) other.symm
  have turned := turned h.agrees.sound.keyed i
  generalize (db.takeTurn i).1 = turn, (db.takeTurn i).2 = after at turned
  cases turned with
  | counted =>
    refine ⟨rfl, fun next goes_on => ?_⟩
    cases goes_on
    refine ⟨first.1, fun none_there => ?_⟩
    rw [same] at none_there
    exact Nat.ne_of_gt filled (Option.some.inj none_there)
  | added adds =>
    obtain ⟨pages, counted, few⟩ := Option.any_eq_true .. |>.mp adds
    rw [first.1, decide_eq_true_iff, Nat.le_zero] at few
    exact absurd (few ▸ counted) first.2
  | waits _ _ =>
    refine ⟨rfl, fun next goes_on => ?_⟩
    cases goes_on
  | failed granted _ => cases granted.symm.trans denied
  | passed _ granted _ => cases granted.symm.trans denied
  | placed _ granted _ => cases granted.symm.trans denied

/-- While the transaction has the first page of the table locked, and others that have begun insertions have not got
past it, nothing is put into a blank page of the table. -/
private theorem not_on_blank (filled : 0 < table.pages db.volume)
    (held : db.locks.holds txn (table.pageAt 0)) (kept_out : action.KeptOut txn table) {page : PageId}
    (own : page.table = table.id) (blank : l.Blank initial page) {c : Change} {mid : Database}
    (made : Change.of? action (db.perform action).1 = some c) (quiet : Quiet c.txn db mid)
    (edit : Edit c.txn c.record c.content mid (db.perform action).2) : c.record.page ≠ page := by
  rintro rfl
  obtain ⟨old, cached, takes, -⟩ := edit.found
  have free : old.page.keptRow? c.record.slot = none :=
    ((h.agrees.quiet quiet (h.agrees.sound.of_quiet quiet)).shown cached _).trans (blank.view_eq _ _)
  have turns := takes.turns
  rw [Option.map_eq_none_iff.mp free, Option.isSome_none] at turns
  obtain ⟨put, content⟩ := Option.isSome_iff_exists.mp (Option.isNone_eq_false_iff.mp turns.symm)
  obtain ⟨tuple, inserted, -⟩ := Change.content_eq made content
  obtain ⟨⟨ordinary, -⟩, undisturbed⟩ := may
  have other : c.txn ≠ txn := fun self => undisturbed (.inr ⟨c, made, self, own⟩)
  cases action with
  | insert writer id tuple =>
    rw [reply_insert] at made
    obtain ⟨record, done, rfl⟩ := Option.map_eq_some_iff.mp made
    have result : (db.insert writer id tuple).1 = .ok record := by
      cases he : (db.insert writer id tuple).1 with
      | error fault =>
        rw [he] at done
        cases done
      | ok found =>
        rw [he] at done
        exact congrArg Except.ok (Option.some.inj done)
    obtain ⟨known', found, into⟩ := insert_eq_ok h.agrees.sound.keyed result
    have same : known' = table := by
      refine eq_of_knows ?_ h.known ((table_of_insertInto h.agrees.sound.keyed into).symm.trans own)
      rw [Knows, h.agrees.sound.filed found, found]
    obtain ⟨fault, denied⟩ : ∃ fault, (db.insertInto table writer tuple).1 = .error fault :=
      insertInto_denied h.agrees.sound.locks filled held (Ne.symm other)
    rw [same, denied] at into
    cases into
  | insertInto _ _ _ => exact (ordinary.1.elim id id).elim
  | advance i =>
    have known : db.Knows i.table := (ordinary.1.resolve_left id).1
    obtain ⟨record, done, rfl⟩ := Option.map_eq_some_iff.mp made
    have here : record.page.table = i.table.id := page_of_turn h.agrees.sound.keyed i done
    have into := here.symm.trans own
    have none_put := (h.turn_kept_out filled held known into other (kept_out other into)).1
    cases done.symm.trans none_put
  | _ => cases inserted

private theorem blank_step (filled : 0 < table.pages db.volume)
    (held : db.locks.holds txn (table.pageAt 0)) (kept_out : action.KeptOut txn table) {page : PageId}
    (own : page.table = table.id) (blank : l.Blank initial page) :
    (l.note (action, (db.perform action).1)).Blank initial page := by
  rcases h.cases_of_step fits may with ⟨writer, commit, order, rfl, -⟩ | ⟨writer, same, -⟩ |
    ⟨c, mid, made, same, quiet, edit⟩
  · refine ⟨fun other c listed => blank.1 other c (Ledger.mem_pending_close.mp listed).2, fun slot => ?_⟩
    exact (Ledger.rows_close_of_untouched commit (blank.1 writer)).trans (blank.2 slot)
  · rwa [same]
  · have elsewhere := h.not_on_blank fits may filled held kept_out own blank made quiet edit
    rw [same]
    refine ⟨fun other c' listed => ?_, blank.2⟩
    rcases Ledger.mem_pending_add.mp listed with listed | ⟨-, rfl⟩
    · exact blank.1 other c' listed
    · exact elsewhere

end Scene

/-! ### Runs -/

section Runs
open Database
variable {initial : RecordId → Option (List Value)} {table : Table} {txn : TxnId}

private structure Viewed (initial : RecordId → Option (List Value)) (table : Table) (txn : TxnId)
    (l : Ledger) (db : Database) (position : Nat) (p : Page) : Prop where
  whole : p.Sound
  own : p.id = table.pageAt position
  suits : p.Suits table
  locked : db.locks.holds txn (table.pageAt position)
  rows : ∀ slot, p.row? slot = l.seenBy initial txn ⟨table.pageAt position, slot⟩

private theorem Scene.viewed_of_reads {l : Ledger} {db db' : Database} (h : Scene initial table l db)
    {position : Nat} {shown : List Page} (reads : Reads table txn db position shown db') :
    ∀ i p, shown[i]? = some p → Viewed initial table txn l db' (position + i) p := by
  intro i p listed
  obtain ⟨inside, rfl⟩ := List.getElem?_eq_some_iff.mp listed
  obtain ⟨whole, rows⟩ := reads.seen h.agrees h.verbatim _ (List.getElem_mem inside)
  have own : shown[i].id = table.pageAt (position + i) := by
    have ids := congrArg (·[i]?) (reads.ids h.agrees.sound.keyed)
    simpa [inside] using ids
  refine ⟨whole, own, ?_, reads.locked i inside, own ▸ rows⟩
  refine reads.holds (P := fun page p => page.table = table.id → p.Suits table) ?_ ?_ i _ listed rfl
  · intro page frame _ cached here
    obtain ⟨-, known, found, suits⟩ := h.agrees.fitting cached
    rw [here, h.known] at found
    cases found
    exact suits
  · intro page p loaded here
    obtain ⟨known, found, suits⟩ := suits_of_load loaded
    rw [here, h.known] at found
    cases found
    exact suits

section Tracked
variable {l l' : Ledger} {db db' : Database}

private theorem Viewed.onward {position : Nat} {p : Page} (h : Viewed initial table txn l db position p)
    (kept : db'.locks.holds txn (table.pageAt position) ∧ ∀ slot,
      l'.seenBy initial txn ⟨table.pageAt position, slot⟩ =
        l.seenBy initial txn ⟨table.pageAt position, slot⟩) :
    Viewed initial table txn l' db' position p :=
  ⟨h.whole, h.own, h.suits, kept.1, fun slot => (h.rows slot).trans (kept.2 slot).symm⟩

/-- How far a scan has come: the pages shown to it, whose tuples it has yielded but for those still to
come, are as its transaction sees them. -/
private structure Tracked (initial : RecordId → Option (List Value)) (table : Table) (txn : TxnId)
    (l : Ledger) (db : Database) (s : Scan) (yielded : List Tuple) (shown : List Page) : Prop where
  ofTable : s.table = table ∧ s.txn = txn
  isOpen : s.isOpen
  next : s.next = shown.length
  inside : shown.length ≤ table.pages db.volume
  count : yielded ++ s.pending = shown.flatMap Page.tuples
  viewed : ∀ i p, shown[i]? = some p → Viewed initial table txn l db i p

variable (h : Scene initial table l db) {action : Action} (fits : action.Fits db)
  (may : Undisturbed txn table db action (db.perform action).1) {s s' : Scan} {yielded : List Tuple}
  {shown : List Page} (tracked : Tracked initial table txn l db s yielded shown)
include h fits may tracked

private theorem Tracked.step : Tracked initial table txn (l.note (action, (db.perform action).1))
    (db.perform action).2 s yielded shown where
  ofTable := tracked.ofTable
  isOpen := tracked.isOpen
  next := tracked.next
  inside := Nat.le_trans tracked.inside (h.pages_step fits may).1
  count := tracked.count
  viewed i p listed := by
    have before := tracked.viewed i p listed
    exact before.onward (h.locked_step fits may rfl before.locked)

private theorem Tracked.turn (about : action.scan? = some s)
    (faultless : (db.perform action).1.Faultless) (after : (db.perform action).1.scan? = some s') :
    ∃ shown', Tracked initial table txn (l.note (action, (db.perform action).1)) (db.perform action).2
        s' (yielded ++ (db.perform action).1.yielded) shown' ∧
      ((db.perform action).1.Exhausts → s'.pending = [] ∧
        shown'.length = table.pages (db.perform action).2.volume) := by
  have stepped := tracked.step h fits may
  obtain ⟨⟨rfl, rfl⟩, opened, start, inside, count, -⟩ := tracked
  obtain ⟨last, after', turn⟩ := turn_perform about
  cases after.symm.trans after'
  have still := (turn.approach fun _ _ => False).volume_eq
  have stays := Scan.stays_perform about opened faultless after
  have same : l.note (action, (db.perform action).1) = l :=
    l.note_of_idle (Action.writer?_of_scan about) _
  obtain ⟨more, mid, reads, own, by_txn, next, rest, ends⟩ := turn
  have long : (shown ++ more).length = s'.next := by rw [List.length_append, next, start]
  have reach := stays.next_le
  refine ⟨shown ++ more, ⟨⟨own, by_txn⟩, stays.isOpen, long.symm, ?inside, ?count, ?viewed⟩,
    fun exhausts => ?_⟩
  case inside =>
    rw [long, still]
    omega
  case count => rw [List.append_assoc, rest, ← List.append_assoc, count, List.flatMap_append]
  case viewed =>
    intro i p listed
    by_cases old : i < shown.length
    · exact stepped.viewed i p (List.getElem?_append_left old ▸ listed)
    · rw [List.getElem?_append_right (Nat.not_lt.mp old)] at listed
      have read := h.viewed_of_reads reads _ p listed
      rw [show s.next + (i - shown.length) = i by omega] at read
      refine read.onward ⟨?_, fun slot => by rw [same]⟩
      rcases ends with rfl | ⟨fault, failed⟩
      · exact read.locked
      · have asked := mid.onward_fetch s.txn (s.table.pageAt s'.next) .read
        rw [failed] at asked
        exact asked.holds read.locked
  · obtain ⟨none_left, whole⟩ := stays.done exhausts
    refine ⟨none_left, ?_⟩
    rw [still]
    omega

end Tracked

variable {earlier trace : List (Action × Reply)} {db db' : Database}
  (h : Scene initial table (.along earlier) db)
  (run : Run (Undisturbed txn table) db trace db')
include h run

private theorem Scene.after_run : Scene initial table (.along (earlier ++ trace)) db' := by
  induction run using Run.inductionOn with
  | first => rwa [List.append_nil]
  | next _ _ fits may ih =>
    rw [← List.append_assoc, Ledger.along_concat]
    exact ih.step fits may

private theorem Scene.pages_run : table.pages db.volume ≤ table.pages db'.volume ∧
    table.pages db'.volume ≤ max (table.pages db.volume) 4294967296 := by
  induction run using Run.inductionOn with
  | first => exact ⟨Nat.le_refl _, Nat.le_max_left _ _⟩
  | next run _ fits may ih =>
    have one := (h.after_run run).pages_step fits may
    omega

private theorem Scene.locked_run {page : PageId} (own : page.table = table.id)
    (held : db.locks.holds txn page) : db'.locks.holds txn page ∧ ∀ slot,
      (Ledger.along (earlier ++ trace)).seenBy initial txn ⟨page, slot⟩ =
        (Ledger.along earlier).seenBy initial txn ⟨page, slot⟩ := by
  induction run using Run.inductionOn with
  | first => exact ⟨held, fun slot => by rw [List.append_nil]⟩
  | next run _ fits may ih =>
    obtain ⟨held', same⟩ := (h.after_run run).locked_step fits may own ih.1
    refine ⟨held', fun slot => ?_⟩
    rw [← List.append_assoc, Ledger.along_concat, same, ih.2]

section Blank
variable (begins : BeginWithin table trace) (filled : 0 < table.pages db.volume)
  (held : db.locks.holds txn (table.pageAt 0))
include begins filled held

/-- While it has the first page of a table locked, insertions by others that begin do not get past it. -/
private theorem Scene.first_run {before next : Insertion}
    (goes_on : (Action.advance before, Reply.turn (.goesOn next)) ∈ trace) (other : next.txn ≠ txn)
    (own : next.table.id = table.id) : next.AtFirst := by
  induction run using Run.inductionOn generalizing before next with
  | first => cases goes_on
  | next run action fits may ih =>
    rcases List.mem_append.mp goes_on with earlier | last
    · exact ih begins.initial earlier other own
    · obtain ⟨rfl, reply⟩ := Prod.mk.inj (List.mem_singleton.mp last)
      have scene := h.after_run run
      have went := (Reply.turn.inj reply).symm
      obtain ⟨table_eq, txn_eq, -⟩ := same_of_turn scene.agrees.sound.keyed before went
      rw [table_eq] at own
      rw [txn_eq] at other
      have first : before.AtFirst := by
        rcases begins rfl own with ⟨start, uncounted⟩ | ⟨earlier, listed⟩
        · exact ⟨start, by rw [uncounted]; nofun⟩
        · exact ih begins.initial listed other own
      have known : _ := (may.1.1.1.resolve_left id).1
      exact (scene.turn_kept_out (Nat.lt_of_lt_of_le filled (h.pages_run run).1)
        (h.locked_run run rfl held).1 known own other first).2 next went

private theorem Scene.blank_run {page : PageId} (own : page.table = table.id)
    (blank : (Ledger.along earlier).Blank initial page) :
    (Ledger.along (earlier ++ trace)).Blank initial page := by
  induction run using Run.inductionOn with
  | first => rwa [List.append_nil]
  | next run action fits may ih =>
    have kept_out : action.KeptOut txn table := by
      cases action with
      | advance i =>
        intro other into
        rcases begins rfl into with ⟨start, uncounted⟩ | ⟨before, listed⟩
        · exact ⟨start, by rw [uncounted]; nofun⟩
        · exact h.first_run run begins.initial filled held listed other into
      | _ => trivial
    rw [← List.append_assoc, Ledger.along_concat]
    exact (h.after_run run).blank_step fits may (Nat.lt_of_lt_of_le filled (h.pages_run run).1)
      (h.locked_run run rfl held).1 kept_out own (ih begins.initial)

end Blank

private theorem Scene.follows_run {s : Scan} {yielded : List Tuple}
    (follows : (Scan.ofTable table txn).start.Follows trace yielded s) :
    ∃ shown, Tracked initial table txn (.along (earlier ++ trace)) db' s yielded shown := by
  induction run using Run.inductionOn generalizing s yielded with
  | first =>
    obtain ⟨rfl, rfl⟩ := follows.of_nil
    exact ⟨[], ⟨rfl, rfl⟩, rfl, rfl, Nat.zero_le _, rfl, nofun⟩
  | next run _ fits may ih =>
    rw [← List.append_assoc, Ledger.along_concat]
    rcases follows.of_concat with same | ⟨before, mid, started, about, after, faultless, rfl⟩
    · obtain ⟨shown, tracked⟩ := ih same
      exact ⟨shown, tracked.step (h.after_run run) fits may⟩
    · obtain ⟨shown, tracked⟩ := ih started
      obtain ⟨shown', tracked', -⟩ := tracked.turn (h.after_run run) fits may about faultless after
      exact ⟨shown', tracked'⟩

private theorem Scene.completes_run {tuples : List Tuple}
    (scanned : (Scan.ofTable table txn).start.Completes trace tuples) :
    ∃ shown : List Page, shown.length = table.pages db'.volume ∧ tuples = shown.flatMap Page.tuples ∧
      ∀ i p, shown[i]? = some p → Viewed initial table txn (.along (earlier ++ trace)) db' i p := by
  obtain ⟨before, action, reply, yielded, last, rfl, follows, about, exhausts, rfl⟩ := scanned
  obtain ⟨mid, earlier_run, fits, may, performed⟩ := run.of_concat
  obtain ⟨rfl, rfl⟩ := Prod.ext_iff.mp performed
  obtain ⟨shown, tracked⟩ := h.follows_run earlier_run follows
  obtain ⟨s', after, -⟩ := turn_perform about
  obtain ⟨shown', tracked', all⟩ :=
    tracked.turn (h.after_run earlier_run) fits may about exhausts.faultless after
  obtain ⟨none_left, whole⟩ := all exhausts
  refine ⟨shown', whole, ?_, fun i p listed => ?_⟩
  · rw [← tracked'.count, none_left, List.append_nil]
  · rw [← List.append_assoc, Ledger.along_concat]
    exact tracked'.viewed i p listed

end Runs

private theorem Viewed.tuples_eq {initial : RecordId → Option (List Value)} {table : Table} {txn : TxnId}
    {l l' : Ledger} {db db' : Database} {i : Nat} {p p' : Page}
    (h : Viewed initial table txn l db i p) (h' : Viewed initial table txn l' db' i p')
    (same : ∀ slot, l'.seenBy initial txn ⟨table.pageAt i, slot⟩ =
      l.seenBy initial txn ⟨table.pageAt i, slot⟩) :
    p'.tuples.map Tuple.nameless = p.tuples.map Tuple.nameless := by
  rw [← Page.tuples_nameless, ← Page.tuples_nameless]
  refine congrArg (List.filterMap id) (h.whole.nameless_slots_eq h'.whole ?_ ?_ ?_ fun slot => ?_)
  · rw [h.own, h'.own]
  · rw [h.suits.1, h'.suits.1]
  · rw [h.suits.2, h'.suits.2]
  · rw [h.rows, h'.rows, same]

private theorem Page.tuples_eq_nil {p : Page} (empty : ∀ slot, p.row? slot = none) : p.tuples = [] := by
  rw [List.eq_nil_iff_forall_not_mem]
  intro tuple listed
  obtain ⟨slot, held⟩ := Page.mem_tuples.mp listed
  have none_there := empty slot
  rw [row?, held] at none_there
  cases none_there

/-- Repeatable scans: once a transaction has scanned a table to its end, every further scan of it begins with the same
records and rows until the transaction changes the table or ends, whatever others do. It goes on with nothing but
records of pages that the table has got since, and with none if the table had a page and no insertion by others
was on its way through the table then. -/
theorem scans_repeatable {settings : Settings} {volume : Volume} {start db db₁ db₂ : Database}
    {trace first again : List (Action × Reply)} (prepared : Prepared settings volume start)
    (run : Run Ordinary.Short start trace db) {table : Table} {txn : TxnId} (known : db.Knows table)
    (scanning : Run (Undisturbed txn table) db first db₁) {tuples : List Tuple}
    (scanned : (Scan.ofTable table txn).start.Completes first tuples)
    (rescanning : Run (Undisturbed txn table) db₁ again db₂) {tuples' : List Tuple}
    (rescanned : (Scan.ofTable table txn).start.Completes again tuples') :
    ∃ common added : List Tuple, tuples' = common ++ added ∧ List.Forall₂ Tuple.Same tuples common ∧
      (∀ tuple ∈ added, ∃ record, tuple.record = some record ∧ record.page.table = table.id ∧
        table.pages db₁.volume ≤ record.page.number) ∧
      (0 < table.pages db₁.volume → BeginWithin table again → added = []) := by
  have scene : Scene start.contents table (.along trace) db :=
    ⟨(run.mono And.left).agrees prepared, run.verbatim prepared.sound prepared.verbatim, known⟩
  have scene₁ := scene.after_run scanning
  obtain ⟨shown, count, rfl, viewed⟩ := scene.completes_run scanning scanned
  obtain ⟨shown', count', rfl, viewed'⟩ := scene₁.completes_run rescanning rescanned
  obtain ⟨grown, numbered⟩ := scene₁.pages_run rescanning
  have long : shown.length ≤ shown'.length := by omega
  -- Pages of the first scan are seen again as they were.
  have common (i : Nat) (inside : i < shown.length) :
      shown'[i].tuples.map Tuple.nameless = shown[i].tuples.map Tuple.nameless := by
    have seen := viewed i _ (List.getElem?_eq_getElem inside)
    have seen' := viewed' i _ (List.getElem?_eq_getElem (Nat.lt_of_lt_of_le inside long))
    exact seen.tuples_eq seen' (scene₁.locked_run rescanning rfl seen.locked).2
  have kept : (shown'.take shown.length).map (fun p => p.tuples.map Tuple.nameless) =
      shown.map fun p => p.tuples.map Tuple.nameless := by
    refine List.ext_getElem (by simp [long]) fun i _ inside => ?_
    rw [List.length_map] at inside
    simp only [List.getElem_map, List.getElem_take]
    exact common i inside
  -- Pages added since have numbers of their own.
  have beyond (i : Nat) (behind : shown.length ≤ i) (inside : i < shown'.length) :
      table.pages db₁.volume ≤ (table.pageAt i).number := by
    have small : i < 4294967296 := by omega
    rw [Table.pageAt, pageNumber, Nat.mod_eq_of_lt small, ← count]
    exact behind
  refine ⟨(shown'.take shown.length).flatMap Page.tuples, (shown'.drop shown.length).flatMap Page.tuples,
    ?parts, ?same, fun tuple listed => ?records, fun filled begins => ?nothing⟩
  case parts => rw [← List.flatMap_append, List.take_append_drop]
  case same =>
    rw [Tuple.forall₂_same_iff, List.map_flatMap, List.map_flatMap, List.flatMap_def, List.flatMap_def, kept]
  case records =>
    obtain ⟨p, shows, listed⟩ := List.mem_flatMap.mp listed
    obtain ⟨i, inside, rfl⟩ := List.mem_drop_iff_getElem.mp shows
    rw [Nat.add_comm] at inside
    have seen := viewed' _ _ (List.getElem?_eq_getElem inside)
    obtain ⟨slot, -, record⟩ := seen.whole.mem_tuples_iff.mp listed
    rw [seen.own] at record
    exact ⟨_, record, rfl, beyond _ (Nat.le_add_right _ _) inside⟩
  case nothing =>
    -- Putting anything there takes a lock on the first page.
    have held := (viewed 0 _ (List.getElem?_eq_getElem (count ▸ filled))).locked
    rw [List.flatMap_eq_nil_iff]
    intro p listed
    obtain ⟨i, inside, rfl⟩ := List.mem_drop_iff_getElem.mp listed
    rw [Nat.add_comm] at inside
    have blank := scene₁.blank_run rescanning begins filled held rfl
      (scene₁.blank_of_beyond rfl (beyond _ (Nat.le_add_right _ i) inside))
    refine Page.tuples_eq_nil fun slot => ?_
    rw [(viewed' _ _ (List.getElem?_eq_getElem inside)).rows]
    exact blank.view_eq (some txn) slot

private theorem Undisturbed.collect {txn : TxnId} {table : Table} {db : Database} (s : Scan) :
    Undisturbed txn table db (.collect s) (db.perform (.collect s)).1 := by
  refine ⟨⟨⟨.inl trivial, rfl⟩, trivial⟩, Action.not_disturbs ?_ table _⟩
  exact (Option.some_ne_none txn).symm

private def scannedSample : Database :=
  (storedSample.perform (.collect (Scan.ofTable numbersTable 2).start)).2

/-- A transaction scans a table, to which another one cannot add a row then, and scans it again. -/
theorem scans_repeatable_denied : ∃ trace first again db₂, ∃ tuples tuples' : List Tuple,
    Prepared { pageSize := 16 } .empty Prepared.sample ∧
    Run Ordinary.Short Prepared.sample trace storedSample ∧ storedSample.Knows numbersTable ∧
    Run (Undisturbed 2 numbersTable) storedSample first scannedSample ∧
    (Scan.ofTable numbersTable 2).start.Completes first tuples ∧
    0 < numbersTable.pages scannedSample.volume ∧
    Run (Undisturbed 2 numbersTable) scannedSample again db₂ ∧
    (Scan.ofTable numbersTable 2).start.Completes again tuples' ∧ BeginWithin numbersTable again ∧
    again.map Prod.fst = [Prepared.insertion 3 8, .collect (Scan.ofTable numbersTable 2).start] ∧
    tuples.map Tuple.values = [[.int 7]] ∧ List.Forall₂ Tuple.Same tuples tuples' := by
  have listed : [⟨0, 0⟩].Perm
      ((Prepared.sample.perform (Prepared.insertion 1 7)).2.cache.dirtyPagesOf 1) := by decide +kernel
  have run : Run Ordinary.Short Prepared.sample _ storedSample :=
    (Run.start.next (Prepared.insertion 1 7) rfl
      ⟨⟨.inl trivial, by decide +kernel⟩, Prepared.short_insertion 1 7⟩).next (.complete 1 true [⟨0, 0⟩])
      listed ⟨⟨.inl trivial, rfl⟩, trivial⟩
  have scanning : Run (Undisturbed 2 numbersTable) storedSample _ scannedSample :=
    Run.start.next (.collect (Scan.ofTable numbersTable 2).start) trivial (.collect _)
  have rescanning := ((Run.start : Run (Undisturbed 2 numbersTable) scannedSample [] _).next
    (Prepared.insertion 3 8) rfl ⟨⟨⟨.inl trivial, by decide +kernel⟩, Prepared.short_insertion 3 8⟩,
      Action.not_disturbs (by decide) _ _⟩).next
    (.collect (Scan.ofTable numbersTable 2).start) trivial (.collect _)
  obtain ⟨found, filled, scanned, rescanned⟩ : storedSample.catalog.table 0 = .ok numbersTable ∧
      0 < numbersTable.pages scannedSample.volume ∧
      ((Scan.ofTable numbersTable 2).start.collect storedSample).1 =
        [⟨⟨[⟨.int, none⟩]⟩, [.int 7], some ⟨⟨0, 0⟩, 0⟩⟩].map .ok ∧
      ((Scan.ofTable numbersTable 2).start.collect
        (scannedSample.perform (Prepared.insertion 3 8)).2).1 =
          [⟨⟨[⟨.int, none⟩]⟩, [.int 7], some ⟨⟨0, 0⟩, 0⟩⟩].map .ok := by
    decide +kernel
  have known : storedSample.Knows numbersTable := found
  have first := Scan.Completes.of_collect scanned []
  have again := Scan.Completes.of_collect rescanned
    [(Prepared.insertion 3 8, (scannedSample.perform (Prepared.insertion 3 8)).1)]
  have begins : BeginWithin numbersTable
      ([(Prepared.insertion 3 8, (scannedSample.perform (Prepared.insertion 3 8)).1)] ++
        [(.collect (Scan.ofTable numbersTable 2).start, ((scannedSample.perform (Prepared.insertion 3 8)).2.perform
          (.collect (Scan.ofTable numbersTable 2).start)).1)]) := by
    intro earlier later i reply same
    have listed : (Action.advance i, reply) ∈ earlier ++ (Action.advance i, reply) :: later :=
      List.mem_append_right _ List.mem_cons_self
    rw [← same] at listed
    simp [Prepared.insertion] at listed
  obtain ⟨common, added, whole, alike, -, nothing⟩ :=
    scans_repeatable Prepared.of_sample run known scanning first rescanning again
  rw [nothing filled begins, List.append_nil] at whole
  exact ⟨_, _, _, _, _, _, Prepared.of_sample, run, known, scanning, first, filled, rescanning, again, begins,
    rfl, rfl, whole ▸ alike⟩

private def visitedSample : Database :=
  (Prepared.sample.perform (.collect (Scan.ofTable numbersTable 1).start)).2

private def steppedInsertion (position : Nat) (known : Option Nat) : Insertion :=
  ⟨numbersTable, 2, ⟨⟨[⟨.int, none⟩]⟩, [.int 10], none⟩, position, known⟩

private def performAll (db : Database) (actions : List Action) : Database :=
  actions.foldl (fun db action => (db.perform action).2) db

private def overtakenSample : Database :=
  performAll Prepared.sample [Prepared.insertion 1 7, Prepared.insertion 1 8, Prepared.insertion 1 9,
    .complete 1 true [⟨0, 0⟩], .advance (steppedInsertion 0 none), .advance (steppedInsertion 0 (some 1))]

private def surveyedSample : Database :=
  (overtakenSample.perform (.collect (Scan.ofTable numbersTable 3).start)).2

private def outgrownSample : Database :=
  performAll surveyedSample [.advance (steppedInsertion 1 (some 1)), .advance (steppedInsertion 1 none),
    .advance (steppedInsertion 1 (some 2)), .complete 2 true [⟨0, 1⟩]]

private theorem Ordinary.Short.advance {db : Database} {position : Nat} {known : Option Nat}
    (knows : db.catalog.table 0 = .ok numbersTable) (room : numbersTable.pages db.volume < 4294967296) :
    Ordinary.Short db (.advance (steppedInsertion position known))
      (db.perform (.advance (steppedInsertion position known))).1 :=
  ⟨⟨.inr ⟨knows, fun _ => room⟩, rfl⟩, Prepared.short_insertion 2 10⟩

private theorem run_overtakenSample : ∃ trace, Run Ordinary.Short Prepared.sample trace overtakenSample := by
  have inserts {db : Database} {number : Int32} (ends : (db.perform (Prepared.insertion 1 number)).1.ends) :
      Ordinary.Short db (Prepared.insertion 1 number) (db.perform (Prepared.insertion 1 number)).1 :=
    ⟨⟨.inl trivial, ends⟩, Prepared.short_insertion 1 number⟩
  have listed : [PageId.mk 0 0].Perm ((performAll Prepared.sample [Prepared.insertion 1 7,
      Prepared.insertion 1 8, Prepared.insertion 1 9]).cache.dirtyPagesOf 1) := by decide +kernel
  exact ⟨_, (((((Run.start.next (Prepared.insertion 1 7) rfl (inserts (by decide +kernel))).next
    (Prepared.insertion 1 8) rfl (inserts (by decide +kernel))).next
    (Prepared.insertion 1 9) rfl (inserts (by decide +kernel))).next
    (.complete 1 true [⟨0, 0⟩]) listed ⟨⟨.inl trivial, rfl⟩, trivial⟩).next
    (.advance (steppedInsertion 0 none)) rfl (.advance (by decide +kernel) (by decide +kernel))).next
    (.advance (steppedInsertion 0 (some 1))) rfl (.advance (by decide +kernel) (by decide +kernel))⟩

private theorem run_outgrownSample :
    ∃ trace, Run (Undisturbed 3 numbersTable) surveyedSample trace outgrownSample := by
  have listed : [PageId.mk 0 1].Perm ((performAll surveyedSample [.advance (steppedInsertion 1 (some 1)),
      .advance (steppedInsertion 1 none), .advance (steppedInsertion 1 (some 2))]).cache.dirtyPagesOf 2) := by
    decide +kernel
  exact ⟨_, (((Run.start.next (.advance (steppedInsertion 1 (some 1))) rfl
      ⟨.advance (by decide +kernel) (by decide +kernel), Action.not_disturbs (by decide) _ _⟩).next
    (.advance (steppedInsertion 1 none)) rfl
      ⟨.advance (by decide +kernel) (by decide +kernel), Action.not_disturbs (by decide) _ _⟩).next
    (.advance (steppedInsertion 1 (some 2))) rfl
      ⟨.advance (by decide +kernel) (by decide +kernel), Action.not_disturbs (by decide) _ _⟩).next
    (.complete 2 true [⟨0, 1⟩]) listed ⟨⟨⟨.inl trivial, rfl⟩, trivial⟩, Action.not_disturbs (by decide) _ _⟩⟩

/-- A scan of a table without pages takes no lock, and a second one yields what another transaction has
committed in between. Where the table has a page, a second scan yields a row that another transaction has put into a
page added since, after it had passed the first page before the first scan. -/
theorem scans_not_repeated :
    (∃ first again db₂, ∃ tuples tuples' : List Tuple,
      Prepared { pageSize := 16 } .empty Prepared.sample ∧ Prepared.sample.Knows numbersTable ∧
      Run (Undisturbed 1 numbersTable) Prepared.sample first visitedSample ∧
      (Scan.ofTable numbersTable 1).start.Completes first tuples ∧
      Run (Undisturbed 1 numbersTable) visitedSample again db₂ ∧
      (Scan.ofTable numbersTable 1).start.Completes again tuples' ∧
      again.map Prod.fst = [Prepared.insertion 2 7, .complete 2 true [⟨0, 0⟩],
        .collect (Scan.ofTable numbersTable 1).start] ∧
      tuples = [] ∧ tuples'.map Tuple.values = [[.int 7]]) ∧
    ∃ trace first again db₂, ∃ tuples tuples' : List Tuple,
      Run Ordinary.Short Prepared.sample trace overtakenSample ∧ overtakenSample.Knows numbersTable ∧
      Run (Undisturbed 3 numbersTable) overtakenSample first surveyedSample ∧
      (Scan.ofTable numbersTable 3).start.Completes first tuples ∧
      numbersTable.pages surveyedSample.volume = 1 ∧
      Run (Undisturbed 3 numbersTable) surveyedSample again db₂ ∧
      (Scan.ofTable numbersTable 3).start.Completes again tuples' ∧
      tuples.map Tuple.values = [[.int 7], [.int 8], [.int 9]] ∧
      tuples'.map Tuple.values = [[.int 7], [.int 8], [.int 9], [.int 10]] := by
  constructor
  · have scanning : Run (Undisturbed 1 numbersTable) Prepared.sample _ visitedSample :=
      Run.start.next (.collect (Scan.ofTable numbersTable 1).start) trivial (.collect _)
    have inserting := (Run.start : Run (Undisturbed 1 numbersTable) visitedSample [] _).next
      (Prepared.insertion 2 7) rfl ⟨⟨⟨.inl trivial, by decide +kernel⟩, Prepared.short_insertion 2 7⟩,
        Action.not_disturbs (by decide) _ _⟩
    have listed : [⟨0, 0⟩].Perm
        ((visitedSample.perform (Prepared.insertion 2 7)).2.cache.dirtyPagesOf 2) := by decide +kernel
    have rescanning := (inserting.next (.complete 2 true [⟨0, 0⟩]) listed
      ⟨⟨⟨.inl trivial, rfl⟩, trivial⟩, Action.not_disturbs (by decide) _ _⟩).next
        (.collect (Scan.ofTable numbersTable 1).start) trivial (.collect _)
    obtain ⟨known, scanned, rescanned⟩ : Prepared.sample.catalog.table 0 = .ok numbersTable ∧
        ((Scan.ofTable numbersTable 1).start.collect Prepared.sample).1 = [].map .ok ∧
        ((Scan.ofTable numbersTable 1).start.collect ((visitedSample.perform
          (Prepared.insertion 2 7)).2.perform (.complete 2 true [⟨0, 0⟩])).2).1 =
            [⟨⟨[⟨.int, none⟩]⟩, [.int 7], some ⟨⟨0, 0⟩, 0⟩⟩].map .ok := by
      decide +kernel
    exact ⟨_, _, _, _, _, Prepared.of_sample, known, scanning, .of_collect scanned [],
      rescanning, .of_collect rescanned _, rfl, rfl, rfl⟩
  · obtain ⟨trace, run⟩ := run_overtakenSample
    obtain ⟨onward, outgrown⟩ := run_outgrownSample
    have scanning : Run (Undisturbed 3 numbersTable) overtakenSample _ surveyedSample :=
      Run.start.next (.collect (Scan.ofTable numbersTable 3).start) trivial (.collect _)
    have rescanning := outgrown.next (.collect (Scan.ofTable numbersTable 3).start) trivial (.collect _)
    obtain ⟨known, one, scanned, rescanned⟩ : overtakenSample.catalog.table 0 = .ok numbersTable ∧
        numbersTable.pages surveyedSample.volume = 1 ∧
        ((Scan.ofTable numbersTable 3).start.collect overtakenSample).1 =
          [⟨⟨[⟨.int, none⟩]⟩, [.int 7], some ⟨⟨0, 0⟩, 0⟩⟩, ⟨⟨[⟨.int, none⟩]⟩, [.int 8], some ⟨⟨0, 0⟩, 1⟩⟩,
            ⟨⟨[⟨.int, none⟩]⟩, [.int 9], some ⟨⟨0, 0⟩, 2⟩⟩].map .ok ∧
        ((Scan.ofTable numbersTable 3).start.collect outgrownSample).1 =
          [⟨⟨[⟨.int, none⟩]⟩, [.int 7], some ⟨⟨0, 0⟩, 0⟩⟩, ⟨⟨[⟨.int, none⟩]⟩, [.int 8], some ⟨⟨0, 0⟩, 1⟩⟩,
            ⟨⟨[⟨.int, none⟩]⟩, [.int 9], some ⟨⟨0, 0⟩, 2⟩⟩,
            ⟨⟨[⟨.int, none⟩]⟩, [.int 10], some ⟨⟨0, 1⟩, 0⟩⟩].map .ok := by
      decide +kernel
    exact ⟨_, _, _, _, _, _, run, known, scanning, .of_collect scanned [], one, rescanning,
      .of_collect rescanned onward, rfl, rfl⟩

end PagedStore
