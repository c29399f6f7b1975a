import PagedStore.Proofs.Database.Crowded
import PagedStore.Proofs.Run.Whole
import PagedStore.Proofs.Scan.Calls

/-! A scan as it is used: it is started, asked and closed in any order, while the database goes on. What it
yields after a start are the tuples of the pages that it fetches, in order. -/
namespace PagedStore

namespace Scan

/-- Calls of a scan, with anything done to the database in between that leaves the table its number of pages
and, if it is one that keeps them, the transaction its locks. -/
inductive Session (keeps : Prop) (s₀ : Scan) (db₀ : Database) : List Entry → Scan → Database → Prop
  | fresh : Session keeps s₀ db₀ [] s₀ db₀
  | call {log : List Entry} {s : Scan} {db : Database} (call : Call) : Session keeps s₀ db₀ log s db →
      Session keeps s₀ db₀ (log ++ [s.entry db call]) (s.perform db call).2.1 (s.perform db call).2.2
  | meanwhile {log : List Entry} {s : Scan} {db db' : Database} {trace : List (Action × Reply)} :
      Session keeps s₀ db₀ log s db → Run Wholesome db trace db' →
      s.table.pages db'.volume = s.table.pages db.volume →
      (keeps → ∀ page, db.locks.holds s.txn page → db'.locks.holds s.txn page) →
      Session keeps s₀ db₀ log s db'

variable {keeps : Prop}

/-- What is noted of calls with nothing in between, and the scan and the database after them. -/
def performAll (s : Scan) (db : Database) : List Call → List Entry × Scan × Database
  | [] => ([], s, db)
  | call :: calls =>
    let (_, s', db') := s.perform db call
    let (log, last) := performAll s' db' calls
    (s.entry db call :: log, last)

private theorem Session.goes_on {s₀ s : Scan} {db₀ db : Database} {log : List Entry}
    (session : Session keeps s₀ db₀ log s db) (calls : List Call) :
    Session keeps s₀ db₀ (log ++ (s.performAll db calls).1) (s.performAll db calls).2.1
      (s.performAll db calls).2.2 := by
  induction calls generalizing log s db with
  | nil => rwa [performAll, List.append_nil]
  | cons call calls ih =>
    have rest := ih (session.call call)
    rwa [List.append_assoc] at rest

private theorem session_performAll (keeps : Prop) (s : Scan) (db : Database) (calls : List Call) :
    Session keeps s db (s.performAll db calls).1 (s.performAll db calls).2.1 (s.performAll db calls).2.2 :=
  Session.fresh.goes_on calls

/-! ### What stays as it is -/

/-- What a session keeps: the table and the transaction, the number of pages, the order of the database, and
the locks of the transaction. -/
structure Along (keeps : Prop) (s : Scan) (db : Database) (s' : Scan) (db' : Database) : Prop where
  table : s'.table = s.table
  txn : s'.txn = s.txn
  pages : s.table.pages db'.volume = s.table.pages db.volume
  ordered : db.Sound → db.Whole → db'.Sound ∧ db'.Whole
  locks : keeps → ∀ page, db.locks.holds s.txn page → db'.locks.holds s.txn page

namespace Along
variable {s mid s' : Scan} {db between db' : Database}

private theorem refl (s : Scan) (db : Database) : Along keeps s db s db :=
  ⟨rfl, rfl, rfl, fun sound whole => ⟨sound, whole⟩, fun _ _ held => held⟩

private theorem trans (h : Along keeps s db mid between) (h' : Along keeps mid between s' db') :
    Along keeps s db s' db' where
  table := h'.table.trans h.table
  txn := h'.txn.trans h.txn
  pages := by rw [← h.table, h'.pages, h.table, h.pages]
  ordered sound whole := (h.ordered sound whole).elim h'.ordered
  locks kept page held := h.txn ▸ h'.locks kept page (h.txn ▸ h.locks kept page held)

private theorem of_turn {yielded : List Tuple} (turn : s.Turn db yielded s' db') : Along keeps s db s' db' := by
  have way := turn.approach fun _ _ => False
  obtain ⟨shown, mid, -, table, txn, -⟩ := turn
  exact ⟨table, txn, by rw [way.volume_eq], fun sound whole => ⟨sound.of_approach way, whole.approach way⟩,
    fun _ _ held => way.onward.holds held⟩

private theorem perform (s : Scan) (db : Database) (call : Call) :
    Along keeps s db (s.perform db call).2.1 (s.perform db call).2.2 := by
  cases call with
  | hasMore => exact .of_turn (s.turn_hasMore db).1
  | step => exact .of_turn (s.turn_step db)
  | start | restart | close => exact ⟨rfl, rfl, rfl, fun sound whole => ⟨sound, whole⟩, fun _ _ held => held⟩

end Along

namespace Session
variable {s₀ s : Scan} {db₀ db : Database} {log later : List Entry}

private theorem along (session : Session keeps s₀ db₀ log s db) : Along keeps s₀ db₀ s db := by
  induction session with
  | fresh => exact .refl s₀ db₀
  | call call _ ih => exact ih.trans (.perform _ _ call)
  | meanwhile _ run pages locks ih =>
    exact ih.trans ⟨rfl, rfl, pages, fun sound whole => ⟨run.sound sound, run.whole sound whole⟩, locks⟩

private theorem split (session : Session keeps s₀ db₀ (log ++ later) s db) :
    ∃ mid between, Session keeps s₀ db₀ log mid between ∧ Session keeps mid between later s db := by
  generalize whole : log ++ later = calls at session
  induction session generalizing later with
  | fresh =>
    obtain ⟨rfl, rfl⟩ := List.append_eq_nil_iff.mp whole
    exact ⟨s₀, db₀, .fresh, .fresh⟩
  | @call calls s db call earlier ih =>
    rcases List.eq_nil_or_concat later with rfl | ⟨init, last, rfl⟩
    · rw [List.append_nil] at whole
      exact ⟨_, _, whole ▸ earlier.call call, .fresh⟩
    · rw [List.concat_eq_append, ← List.append_assoc] at whole
      obtain ⟨same, last_eq⟩ := List.append_inj' whole rfl
      obtain ⟨mid, between, first, rest⟩ := ih same
      cases last_eq
      rw [List.concat_eq_append]
      exact ⟨mid, between, first, rest.call call⟩
  | meanwhile _ run pages locks ih =>
    obtain ⟨mid, between, first, rest⟩ := ih whole
    exact ⟨mid, between, first, rest.meanwhile run pages locks⟩

end Session

/-! ### One pass over the table -/

def Entry.next? (e : Entry) : Option (Option (Except Fault Tuple)) :=
  match e.answer with
  | .next result => some result
  | _ => none

def told (tuples : List Tuple) : List (Option (Except Fault Tuple)) :=
  tuples.map fun tuple => some (.ok tuple)

private theorem told_append (tuples others : List Tuple) :
    told (tuples ++ others) = told tuples ++ told others :=
  List.map_append

/-- A scan that was started and is going on: it has fetched the given pages and yielded these of their
tuples, and was asked in vain as often as given, if it has come to the end of the table. -/
structure Going (pages : Nat) (shown : List Page) (yielded : List Tuple) (vain : Nat) (s : Scan) :
    Prop where
  isOpen : s.isOpen
  next : s.next = shown.length
  rest : yielded ++ s.pending = shown.flatMap Page.tuples
  ended : vain ≠ 0 → s.pending = [] ∧ shown.length = pages

/-- How far a scan has come that was started, and what it has answered: it is going on, or it has failed at a
page and is closed. -/
inductive Stage (pages : Nat) (shown : List Page) : Scan → List (Option (Except Fault Tuple)) → Prop
  | going {s : Scan} {yielded : List Tuple} {vain : Nat} : Going pages shown yielded vain s →
      Stage pages shown s (told yielded ++ List.replicate vain none)
  | failed {s : Scan} (fault : Fault) (vain : Nat) : s.isOpen = false → shown.length < pages →
      Stage pages shown s
        (told (shown.flatMap Page.tuples) ++ some (.error fault) :: List.replicate vain none)

/-- What a scan has done since it was started: it has fetched pages in order, which its transaction holds,
and has yielded what they show. -/
structure Pass (keeps : Prop) (table : Table) (txn : TxnId) (pages : Nat) (shown : List Page)
    (nexts : List (Option (Except Fault Tuple))) (s : Scan) (db : Database) : Prop where
  length_le : shown.length ≤ pages
  sound : ∀ i p, shown[i]? = some p → p.id = table.pageAt i ∧ p.Sound
  locked : keeps → ∀ i < shown.length, db.locks.holds txn (table.pageAt i)
  stage : Stage pages shown s nexts

section Pass
variable {s s' : Scan} {db db' : Database} {shown new : List Page} {left : Nat} {fault : Option Fault}
  {result : Except Fault Bool}

private theorem Looks.sound (looks : s.Looks db left new fault result s' db') (keyed : db.cache.Keyed)
    (whole : db.Whole) (i : Nat) (p : Page) (listed : new[i]? = some p) :
    p.id = s.table.pageAt (s.next + i) ∧ p.Sound := by
  obtain ⟨mid, reads, -⟩ := looks.reads
  refine reads.holds (P := fun page p => p.id = page ∧ p.Sound) (fun {page frame} _ cached => ?_)
    (fun {page p} loaded => ?_) i p listed
  · exact ⟨keyed cached, whole cached⟩
  · exact ⟨(Database.shown_of_load loaded).1, (Database.kept_of_load loaded).1⟩

variable {s₀ : Scan} {db₀ : Database} {pages : Nat} {nexts : List (Option (Except Fault Tuple))}

private theorem Pass.extend (pass : Pass keeps s₀.table s₀.txn pages shown nexts s db)
    (along : Along keeps s₀ db₀ s db)
    (next : s.next = shown.length) (keyed : db.cache.Keyed) (whole : db.Whole)
    (looks : s.Looks db (pages - s.next) new fault result s' db')
    {nexts' : List (Option (Except Fault Tuple))} {last : Scan}
    (stage : Stage pages (shown ++ new) last nexts') :
    Pass keeps s₀.table s₀.txn pages (shown ++ new) nexts' last db' where
  length_le := by
    have before := pass.length_le
    have more := looks.length_le
    rw [List.length_append]
    omega
  sound i p listed := by
    rw [List.getElem?_append] at listed
    split at listed
    · exact pass.sound i p listed
    · rename_i behind
      have found := looks.sound keyed whole _ p listed
      rwa [along.table, next, Nat.add_sub_cancel' (Nat.not_lt.mp behind)] at found
  locked kept i inside := by
    rw [List.length_append] at inside
    rcases Nat.lt_or_ge i shown.length with before | behind
    · rw [← along.txn]
      exact (looks.approach fun _ _ => False).onward.holds (along.txn ▸ pass.locked kept i before)
    · have held := looks.locked (i - shown.length) (by omega)
      rwa [along.table, along.txn, next, Nat.add_sub_cancel' behind] at held
  stage := stage

namespace Going
variable {yielded : List Tuple} {vain : Nat} (going : Going pages shown yielded vain s)
include going

private theorem look (looks : s.Looks db (pages - s.next) new fault result s' db') :
    Going pages (shown ++ new) yielded vain s' where
  isOpen := looks.isOpen ▸ going.isOpen
  next := by rw [looks.next, going.next, List.length_append]
  rest := by rw [looks.pending, ← List.append_assoc, going.rest, List.flatMap_append]
  ended asked := by
    obtain ⟨none_left, all⟩ := going.ended asked
    have short := looks.length_le
    have none_new : new = [] := List.eq_nil_of_length_eq_zero (by have := going.next; omega)
    rw [looks.pending, none_left, none_new, List.append_nil]
    exact ⟨rfl, all⟩

private theorem finish (none_left : s.pending = []) (all : shown.length = pages) :
    Going pages shown yielded (vain + 1) s :=
  ⟨going.isOpen, going.next, going.rest, fun _ => ⟨none_left, all⟩⟩

private theorem yield {tuple : Tuple} {rest : List Tuple} (first : s.pending = tuple :: rest) :
    vain = 0 ∧ Going pages shown (yielded ++ [tuple]) 0 { s with pending := rest } := by
  refine ⟨?_, going.isOpen, going.next, ?_, fun asked => absurd rfl asked⟩
  · by_contra asked
    cases first.symm.trans (going.ended asked).1
  · rw [← going.rest, first, List.append_assoc]
    rfl

private theorem fail (none_left : s.pending = []) (more : shown.length < pages) :
    vain = 0 ∧ yielded = shown.flatMap Page.tuples := by
  constructor
  · by_contra asked
    exact absurd (going.ended asked).2 (Nat.ne_of_lt more)
  · rw [← going.rest, none_left, List.append_nil]

end Going

private theorem Pass.call_going {yielded : List Tuple} {vain : Nat} {call : Call} (asks : call.Asks)
    (pass : Pass keeps s₀.table s₀.txn (s₀.table.pages db₀.volume) shown
      (told yielded ++ List.replicate vain none) s db)
    (along : Along keeps s₀ db₀ s db) (keyed : db.cache.Keyed) (whole : db.Whole)
    (going : Going (s₀.table.pages db₀.volume) shown yielded vain s) :
    Pass keeps s₀.table s₀.txn (s₀.table.pages db₀.volume) (shown ++ (s.entry db call).shown)
      (told yielded ++ List.replicate vain none ++ (s.entry db call).next?.toList)
      (s.perform db call).2.1 (s.perform db call).2.2 := by
  have left : s.pagesLeft db = s₀.table.pages db₀.volume - s.next := by
    rw [pagesLeft, along.table, along.pages]
  cases call with
  | start | restart | close => exact asks.elim
  | hasMore =>
    have looks := looks_hasMore going.isOpen db
    rw [left] at looks
    refine pass.extend along going.next keyed whole looks ?_
    rw [show (s.entry db .hasMore).next?.toList = [] from rfl, List.append_nil]
    exact .going (going.look looks)
  | step =>
    obtain ⟨result, s', looks, outcome⟩ := looks_step going.isOpen db
    rw [left] at looks
    refine pass.extend along going.next keyed whole looks ?_
    have looked := going.look looks
    have short := pass.length_le
    have upTo := going.next
    show Stage _ (shown ++ (s.fetched db .step).1) (s.step db).2.1 (_ ++ [(s.step db).1])
    generalize (s.fetched db .step).1 = new, (s.fetched db .step).2 = fault at looks outcome looked ⊢
    rcases outcome with ⟨cause, rfl, answer, after⟩ | ⟨rfl, ⟨none_left, answer, after⟩ |
      ⟨tuple, others, first, answer, after⟩⟩ <;> rw [answer, after]
    · obtain ⟨-, none_left, less⟩ := looks.stuck cause rfl
      have more : (shown ++ new).length < s₀.table.pages db₀.volume := by rw [List.length_append]; omega
      obtain ⟨rfl, every⟩ := looked.fail none_left more
      rw [every, List.replicate_zero, List.append_nil]
      exact .failed cause 0 rfl more
    · have every := looks.done rfl none_left
      have whole_table : (shown ++ new).length = s₀.table.pages db₀.volume := by rw [List.length_append]; omega
      rw [List.append_assoc, ← List.replicate_succ']
      exact .going (looked.finish none_left whole_table)
    · obtain ⟨rfl, taken⟩ := looked.yield first
      have stage := Stage.going taken
      rw [told_append, List.replicate_zero, List.append_nil] at stage
      rwa [List.replicate_zero, List.append_nil]

private theorem Pass.call {call : Call} (asks : call.Asks)
    (pass : Pass keeps s₀.table s₀.txn (s₀.table.pages db₀.volume) shown nexts s db)
    (along : Along keeps s₀ db₀ s db) (keyed : db.cache.Keyed) (whole : db.Whole) :
    Pass keeps s₀.table s₀.txn (s₀.table.pages db₀.volume) (shown ++ (s.entry db call).shown)
      (nexts ++ (s.entry db call).next?.toList) (s.perform db call).2.1 (s.perform db call).2.2 := by
  obtain ⟨length_le, sound, locked, stage⟩ := pass
  cases stage with
  | going going =>
    exact Pass.call_going asks ⟨length_le, sound, locked, .going going⟩ along keyed whole going
  | failed fault vain closed more =>
    cases call with
    | start | restart | close => exact asks.elim
    | hasMore =>
      rw [entry, perform, fetched, hasMore_of_closed closed, closed, if_neg Bool.false_ne_true,
        List.append_nil]
      exact ⟨length_le, sound, locked, (List.append_nil _).symm ▸ .failed fault vain closed more⟩
    | step =>
      rw [entry, perform, fetched, step_of_closed closed, closed, if_neg Bool.false_ne_true, List.append_nil]
      refine ⟨length_le, sound, locked, ?_⟩
      show Stage _ _ _ (_ ++ [none])
      rw [List.append_assoc, List.cons_append, ← List.replicate_succ']
      exact .failed fault (vain + 1) closed more

end Pass

private theorem Session.pass {s₀ s : Scan} {db₀ db : Database} {log : List Entry}
    (session : Session keeps s₀ db₀ log s db)
    (asks : ∀ e ∈ log, e.call.Asks) (started : Going (s₀.table.pages db₀.volume) [] [] 0 s₀)
    (sound : db₀.Sound) (whole : db₀.Whole) :
    Pass keeps s₀.table s₀.txn (s₀.table.pages db₀.volume) (log.flatMap Entry.shown)
      (log.filterMap Entry.next?) s db := by
  induction session with
  | fresh =>
    refine ⟨Nat.zero_le _, ?_, ?_, .going started⟩
    · rintro i p ⟨⟩
    · rintro - i ⟨⟩
  | @call log s db call earlier ih =>
    have along := earlier.along
    obtain ⟨sound', whole'⟩ := along.ordered sound whole
    have pass := ih fun e listed => asks e (List.mem_append_left _ listed)
    have step := pass.call (asks _ List.mem_concat_self) along sound'.keyed whole'
    rwa [List.flatMap_append, List.filterMap_append, List.flatMap_singleton, List.filterMap_cons,
      List.filterMap_nil]
  | @meanwhile log s db db' trace earlier run pages locks ih =>
    have pass := ih asks
    have own := earlier.along.txn
    exact ⟨pass.length_le, pass.sound,
      fun kept i inside => own ▸ locks kept _ (own ▸ pass.locked kept i inside), pass.stage⟩

namespace Session
variable {s₀ s : Scan} {db₀ db : Database} {log : List Entry} {table : Table} {txn : TxnId}

private theorem of_concat {last : Entry} (session : Session keeps s₀ db₀ (log ++ [last]) s db) :
    ∃ (mid : Scan) (between : Database), last = mid.entry between last.call ∧
      s = (mid.perform between last.call).2.1 := by
  generalize same : log ++ [last] = calls at session
  induction session with
  | fresh => exact absurd same (List.append_ne_nil_of_right_ne_nil _ (List.cons_ne_nil _ _))
  | call call _ _ =>
    obtain ⟨-, last_eq⟩ := List.append_inj' same rfl
    cases last_eq
    exact ⟨_, _, rfl, rfl⟩
  | meanwhile _ _ _ _ ih => exact ih same

private theorem of_nil (session : Session keeps s₀ db₀ [] s db) : s = s₀ := by
  generalize same : ([] : List Entry) = calls at session
  induction session with
  | fresh => rfl
  | call => exact absurd same.symm (List.append_ne_nil_of_right_ne_nil _ (List.cons_ne_nil _ _))
  | meanwhile _ _ _ _ ih => exact ih same

private theorem going_of_opens {last : Entry} (session : Session keeps s₀ db₀ (log ++ [last]) s db)
    (opens : last.call.Opens) (pages : Nat) : Going pages [] [] 0 s := by
  obtain ⟨mid, between, -, rfl⟩ := session.of_concat
  cases called : last.call with
  | start | restart => exact ⟨rfl, rfl, rfl, fun asked => absurd rfl asked⟩
  | close | hasMore | step =>
    rw [called] at opens
    exact opens.elim

private theorem closed_of_close (session : Session keeps (.ofTable table txn) db₀ log s db)
    (shut : ∀ e, log.getLast? = some e → e.call = .close) : s.isOpen = false := by
  rcases List.eq_nil_or_concat log with rfl | ⟨init, last, rfl⟩
  · rw [session.of_nil]
    rfl
  · rw [List.concat_eq_append] at session shut
    obtain ⟨mid, between, -, rfl⟩ := session.of_concat
    rw [shut last List.getLast?_concat]
    rfl

private theorem fault_eq (session : Session keeps s₀ db₀ log s db) : ∀ e ∈ log, e.answer.fault? = e.fault := by
  induction session with
  | fresh =>
    intro e listed
    cases listed
  | call call _ ih =>
    intro e listed
    rcases List.mem_append.mp listed with before | last
    · exact ih e before
    · rw [List.mem_singleton.mp last]
      exact fault_entry _ _ call
  | meanwhile _ _ _ _ ih => exact ih

/-- A scan that is closed stays so until it is started, and has nothing to answer. -/
private theorem idle (session : Session keeps s₀ db₀ log s db) (closed : s₀.isOpen = false)
    (unopened : ∀ e ∈ log, ¬ e.call.Opens) : s.isOpen = false ∧ ∀ e ∈ log, e.Idle := by
  induction session with
  | fresh =>
    refine ⟨closed, fun e listed => ?_⟩
    cases listed
  | @call log s db call _ ih =>
    obtain ⟨shut, before⟩ := ih fun e listed => unopened e (List.mem_append_left _ listed)
    obtain ⟨here, after⟩ := idle_of_closed shut db (unopened _ List.mem_concat_self)
    refine ⟨after, fun e listed => ?_⟩
    rcases List.mem_append.mp listed with earlier | last
    · exact before e earlier
    · rwa [List.mem_singleton.mp last]
  | meanwhile _ _ _ _ ih => exact ih unopened

end Session

/-- What a scan may answer to the calls for the next tuple since it was started, if it has fetched the given
pages of a table: some tuples of these pages in order; all, and that there is none, if that was all of the
table; or all, then once the fault of the next page, and then that there is none. -/
inductive Yields (pages : Nat) (shown : List Page) : List (Option (Except Fault Tuple)) → Prop
  | part (yielded pending : List Tuple) : yielded ++ pending = shown.flatMap Page.tuples →
      Yields pages shown (told yielded)
  | all (vain : Nat) : shown.length = pages →
      Yields pages shown (told (shown.flatMap Page.tuples) ++ List.replicate vain none)
  | failed (fault : Fault) (vain : Nat) : shown.length < pages →
      Yields pages shown
        (told (shown.flatMap Page.tuples) ++ some (.error fault) :: List.replicate vain none)

/-- A walk of a scan over a table: it has fetched pages in turn from the first one on, which are still locked if
the transaction keeps its locks, and has yielded the tuples in their slots as records of the slots. They come in
order as long as pages have numbers of their own. -/
structure Walk (keeps : Prop) (table : Table) (txn : TxnId) (pages : Nat) (shown : List Page)
    (nexts : List (Option (Except Fault Tuple))) (db : Database) : Prop where
  ids : shown.map Page.id = (List.range shown.length).map table.pageAt
  length_le : shown.length ≤ pages
  yields : Yields pages shown nexts
  records : ∀ p ∈ shown, ∀ tuple, tuple ∈ p.tuples ↔
    ∃ slot, p.tuple? slot = some tuple ∧ tuple.record = some ⟨p.id, slot⟩
  inOrder : pages ≤ 4294967296 → (shown.flatMap Page.tuples).Pairwise Page.InOrder
  locked : keeps → ∀ p ∈ shown, db.locks.holds txn p.id

section Walk
variable {s : Scan} {db db' : Database} {table : Table} {txn : TxnId} {pages : Nat} {shown : List Page}
  {nexts : List (Option (Except Fault Tuple))}

private theorem Stage.yields (stage : Stage pages shown s nexts) : Yields pages shown nexts := by
  cases stage with
  | @going yielded vain going =>
    cases vain with
    | zero =>
      rw [List.replicate_zero, List.append_nil]
      exact .part yielded s.pending going.rest
    | succ vain =>
      obtain ⟨none_left, all⟩ := going.ended (Nat.succ_ne_zero vain)
      have every := going.rest
      rw [none_left, List.append_nil] at every
      exact every ▸ .all (vain + 1) all
  | failed fault vain _ more => exact .failed fault vain more

private theorem Pass.walk (pass : Pass keeps table txn pages shown nexts s db)
    (locks : keeps → ∀ page, db.locks.holds txn page → db'.locks.holds txn page) :
    Walk keeps table txn pages shown nexts db' where
  ids := by
    refine List.ext_getElem (by simp) fun i inside _ => ?_
    rw [List.length_map] at inside
    rw [List.getElem_map, List.getElem_map, List.getElem_range]
    exact (pass.sound i _ (List.getElem?_eq_getElem inside)).1
  length_le := pass.length_le
  yields := pass.stage.yields
  records p listed tuple := by
    obtain ⟨i, found⟩ := List.mem_iff_getElem?.mp listed
    exact (pass.sound i p found).2.mem_tuples_iff
  inOrder numbered := by
    refine Page.pairwise_inOrder (fun p listed => ?_) (List.pairwise_iff_getElem.mpr ?_)
    · obtain ⟨i, found⟩ := List.mem_iff_getElem?.mp listed
      exact (pass.sound i p found).2
    · intro i j hi hj before
      have upTo := pass.length_le
      have number {k : Nat} (inside : k < shown.length) : shown[k].id.number = k := by
        rw [(pass.sound k _ (List.getElem?_eq_getElem inside)).1]
        exact pageNumber_of_lt (by omega)
      rwa [number hi, number hj]
  locked kept p listed := by
    obtain ⟨i, found⟩ := List.mem_iff_getElem?.mp listed
    rw [(pass.sound i p found).1]
    exact locks kept _ (pass.locked kept i (List.getElem?_eq_some_iff.mp found).1)

end Walk

/-! ### Blank pages -/

section Undisturbed
variable {s : Scan} {db : Database}

private theorem advance_over (undisturbed : db.Undisturbed s.txn) (none_left : s.pending = []) {blank : Nat}
    (empty : ∀ i < blank, ∃ p, db.load (s.table.pageAt (s.next + i)) = .ok p ∧ p.tuples = []) (left : Nat) :
    ∃ mid, advance db s (blank + left) = advance mid { s with next := s.next + blank } left ∧
      mid.Undisturbed s.txn ∧ mid.volume = db.volume ∧ mid.catalog = db.catalog := by
  induction blank generalizing s db with
  | zero => exact ⟨db, by rw [Nat.zero_add]; rfl, undisturbed, rfl, rfl⟩
  | succ blank ih =>
    obtain ⟨p, loaded, nothing⟩ := empty 0 (Nat.succ_pos blank)
    obtain ⟨frame, mid, fetched, rfl, undisturbed', volume, catalog⟩ := undisturbed.fetch loaded .read
    rw [Nat.add_zero] at fetched
    obtain ⟨last, rest, undisturbed'', volume', catalog'⟩ :=
      @ih { s with next := s.next + 1, pending := frame.page.tuples } mid undisturbed' nothing fun i inside => by
        rw [Database.load, volume, catalog, Nat.add_assoc, Nat.add_comm 1]
        exact empty (i + 1) (Nat.succ_lt_succ inside)
    refine ⟨last, ?_, undisturbed'', volume'.trans volume, catalog'.trans catalog⟩
    rw [Nat.add_right_comm, advance]
    simp only [none_left, fetched]
    rw [rest, nothing, Nat.add_assoc, Nat.add_comm 1]

private theorem step_over (undisturbed : db.Undisturbed s.txn) (opened : s.isOpen) (none_left : s.pending = [])
    {blank : Nat} (more : s.next + blank < s.table.pages db.volume)
    (empty : ∀ i < blank, ∃ p, db.load (s.table.pageAt (s.next + i)) = .ok p ∧ p.tuples = [])
    {p : Page} (loaded : db.load (s.table.pageAt (s.next + blank)) = .ok p) {tuple : Tuple}
    (one : p.tuples = [tuple]) : ∃ mid, s.step db =
        (some (.ok tuple), { s with next := s.next + blank + 1, pending := [] }, mid) ∧
      mid.Undisturbed s.txn ∧ mid.volume = db.volume ∧ mid.catalog = db.catalog := by
  obtain ⟨left, all⟩ := Nat.exists_eq_add_of_lt more
  have pagesLeft : s.pagesLeft db = blank + (left + 1) := by
    rw [Scan.pagesLeft]
    omega
  obtain ⟨before, advanced, undisturbed', volume, catalog⟩ := advance_over undisturbed none_left empty (left + 1)
  have loaded : before.load (s.table.pageAt (s.next + blank)) = .ok p := by
    rw [Database.load, volume, catalog]
    exact loaded
  obtain ⟨frame, mid, fetched, rfl, undisturbed'', volume', catalog'⟩ := undisturbed'.fetch loaded .read
  refine ⟨mid, ?_, undisturbed'', volume'.trans volume, catalog'.trans catalog⟩
  rw [step, hasMore, if_pos opened, pagesLeft, advanced, advance]
  simp only [none_left, fetched]
  rw [one]
  cases left <;> rfl

/-- In a table with one page more than there are page numbers, a scan comes to the first page again. -/
private theorem nexts_again {table : Table} {txn : TxnId} (undisturbed : db.Undisturbed txn)
    (pages : table.pages db.volume = 4294967297) {p : Page} (loaded : db.load ⟨table.id, 0⟩ = .ok p)
    {tuple : Tuple} (one : p.tuples = [tuple]) (blank : ∀ number < 4294967296, number ≠ 0 →
      ∃ q, db.load ⟨table.id, number⟩ = .ok q ∧ q.tuples = []) :
    ((ofTable table txn).performAll db [.start, .step, .step]).1.filterMap Entry.next? =
      [some (.ok tuple), some (.ok tuple)] := by
  obtain ⟨mid, first, undisturbed', volume, catalog⟩ := @step_over (ofTable table txn).start db undisturbed rfl rfl
    0 (show 0 + 0 < table.pages db.volume by omega) (fun i inside => absurd inside (Nat.not_lt_zero i)) p loaded
    tuple one
  have same (page : PageId) : mid.load page = db.load page := by
    rw [Database.load, Database.load, volume, catalog]
  obtain ⟨others, number⟩ : ∃ others, others = 4294967295 := ⟨_, rfl⟩
  have empty (i : Nat) (inside : i < others) :
      ∃ q, mid.load (table.pageAt (0 + 0 + 1 + i)) = .ok q ∧ q.tuples = [] := by
    rw [same, Table.pageAt, pageNumber_of_lt (by omega)]
    exact blank (0 + 0 + 1 + i) (by omega) (by omega)
  have begins : table.pageAt (0 + 0 + 1 + others) = ⟨table.id, 0⟩ := by
    rw [number]
    exact congrArg (PageId.mk table.id) (Nat.mod_self 4294967296)
  obtain ⟨last, second, -⟩ := @step_over ⟨table, txn, 0 + 0 + 1, [], true⟩ mid undisturbed' rfl rfl others
    (show 0 + 0 + 1 + others < table.pages mid.volume by rw [volume]; omega) empty p
    (by rw [same, begins, loaded]) tuple one
  have calls : ((ofTable table txn).performAll db [.start, .step, .step]).1.filterMap Entry.next? =
      [((ofTable table txn).start.step db).1,
        (((ofTable table txn).start.step db).2.1.step ((ofTable table txn).start.step db).2.2).1] := rfl
  rw [calls, first]
  exact congrArg (fun outcome => [some (.ok tuple), outcome.1]) second

end Undisturbed

end Scan

/-- Whatever was done before, and in whatever order a scan of a table is started, asked for tuples, asked
whether there are more, and closed, while the table keeps its number of pages: from each start on, the scan
walks over the table, page by page, with locks that the transaction may keep or not. While it is closed, it
yields nothing. It answers a fault just where it cannot fetch a page. Asking whether there is more does not change
what the next tuple is. -/
theorem scan_law {keeps : Prop} {settings : Settings} {volume : Volume} {start db db' : Database}
    {trace : List (Action × Reply)} {table : Table} {txn : TxnId} {log : List Scan.Entry} {s : Scan}
    (opened : Database.ofVolume settings volume = .ok start) (run : Run Wholesome start trace db)
    (session : Scan.Session keeps (.ofTable table txn) db log s db') :
    (∀ earlier first asked later, log = earlier ++ first :: (asked ++ later) → first.call.Opens →
      (∀ e ∈ asked, e.call.Asks) →
      Scan.Walk keeps table txn (table.pages db.volume) (asked.flatMap Scan.Entry.shown)
        (asked.filterMap Scan.Entry.next?) db') ∧
    (∀ earlier idle later, log = earlier ++ (idle ++ later) →
      (∀ e, earlier.getLast? = some e → e.call = .close) → (∀ e ∈ idle, ¬ e.call.Opens) →
      ∀ e ∈ idle, e.Idle) ∧
    (∀ e ∈ log, e.answer.fault? = e.fault) ∧
    ((s.hasMore db').2.1.step (s.hasMore db').2.2).1 = (s.step db').1 := by
  have start_sound := Database.sound_ofVolume opened
  have start_whole := Database.whole_ofVolume opened
  refine ⟨fun earlier first asked later same opens asks => ?_, fun earlier idle later same shut unopened => ?_,
    session.fault_eq, Scan.step_hasMore s db'⟩
  · rw [same, ← List.singleton_append, ← List.append_assoc] at session
    obtain ⟨begun, mid, started, rest⟩ := session.split
    obtain ⟨walked, between, asking, remaining⟩ := rest.split
    have along := started.along
    obtain ⟨sound, whole⟩ := along.ordered (run.sound start_sound) (run.whole start_sound start_whole)
    have pass := asking.pass asks (started.going_of_opens opens _) sound whole
    rw [along.table, along.pages, along.txn] at pass
    have own : walked.txn = txn := asking.along.txn.trans along.txn
    exact pass.walk fun kept page held => own ▸ remaining.along.locks kept page (own ▸ held)
  · rw [same] at session
    obtain ⟨begun, mid, before, rest⟩ := session.split
    obtain ⟨closed, between, idling, -⟩ := rest.split
    exact (idling.idle (before.closed_of_close shut) unopened).2

/-- A database whose table of numbers has a full page, which is committed, while a transaction has begun a
second one. -/
private def twoPagesSample : Database :=
  (Prepared.filled.perform (Prepared.insertion 3 10)).2

private def readRow (number : Int32) (slot : Nat) : Option (Except Fault Tuple) :=
  some (.ok ⟨⟨[⟨.int, none⟩]⟩, [.int number], some ⟨⟨0, 0⟩, slot⟩⟩)

/-- A scan of the table by another transaction, which is started, asked until there is nothing more, started
again and asked once more. -/
private def lockedScan : List Scan.Entry × Scan × Database :=
  (Scan.ofTable numbersTable 2).performAll twoPagesSample
    [.start, .step, .hasMore, .step, .step, .step, .step, .restart, .step]

private def firstCalls : List Scan.Entry × Scan × Database :=
  (Scan.ofTable numbersTable 2).performAll twoPagesSample [.start, .step]

private def endedSample : Database :=
  (firstCalls.2.2.perform (.complete 2 true [])).2

/-- In a table of more pages than page numbers, a scan yields the rows of the first page twice; and it goes on with
a page whose lock is gone, if the transaction ends meanwhile. -/
theorem scan_repeats_and_unlocks :
    (∃ trace log s db' row,
      Run Wholesome (Database.openedOver Database.oneMark) trace (Database.overMarks Database.oneMark) ∧
      Scan.Session True (.ofTable Database.marksTable 1) (Database.overMarks Database.oneMark) log s db' ∧
      log.filterMap Scan.Entry.next? = [some (.ok row), some (.ok row)]) ∧
    ∃ trace log s db', Run Wholesome Prepared.blank trace twoPagesSample ∧
      Scan.Session False (.ofTable numbersTable 2) twoPagesSample log s db' ∧
      log.filterMap Scan.Entry.next? = [readRow 7 0, readRow 8 1] ∧ db'.locks.holds 2 ⟨0, 0⟩ = false := by
  constructor
  · obtain ⟨p, loaded, one⟩ := Database.load_oneMark_first
    have again := Scan.nexts_again (Database.undisturbed_overMarks Database.oneMark 1)
      ((Database.pages_overMarks Database.oneMark).trans Database.length_oneMark) loaded one
      fun number inside other => Database.load_oneMark_blank other (Database.length_oneMark ▸ Nat.lt_succ_of_lt inside)
    exact ⟨_, _, _, _, _, Run.start.next (.attachTable (.file 0) ⟨[]⟩ 1 "marks" "") trivial trivial,
      Scan.session_performAll _ _ _ _, again⟩
  · obtain ⟨trace, filled⟩ := Prepared.run_filled
    have run : Run Wholesome Prepared.blank _ twoPagesSample :=
      filled.next (Prepared.insertion 3 10) rfl trivial
    have none_left : [].Perm (firstCalls.2.2.cache.dirtyPagesOf 2) := by decide +kernel
    have ends : Run Wholesome firstCalls.2.2 _ endedSample :=
      Run.start.next (.complete 2 true []) none_left trivial
    have session := ((Scan.session_performAll False (.ofTable numbersTable 2) twoPagesSample
      [.start, .step]).meanwhile ends (by decide +kernel) False.elim).goes_on [.step]
    exact ⟨_, _, _, _, run, session, by decide +kernel, by decide +kernel⟩

/-- A scan yields the numbers of the first page, then fails once at the second one, which is locked, and
yields the first number again when it is started again. -/
theorem scan_law_locked : ∃ trace shown,
    Database.ofVolume { pageSize := 16 } .empty = .ok Prepared.blank ∧
    Run Wholesome Prepared.blank trace twoPagesSample ∧
    Scan.Session True (.ofTable numbersTable 2) twoPagesSample lockedScan.1 lockedScan.2.1 lockedScan.2.2 ∧
    lockedScan.1.filterMap Scan.Entry.next? =
      [readRow 7 0, readRow 8 1, readRow 9 2, some (.error (.lockTimeout 2)), none, readRow 7 0] ∧
    Scan.Walk True numbersTable 2 2 shown
      [readRow 7 0, readRow 8 1, readRow 9 2, some (.error (.lockTimeout 2)), none] lockedScan.2.2 := by
  obtain ⟨trace, filled⟩ := Prepared.run_filled
  have run : Run Wholesome Prepared.blank _ twoPagesSample :=
    filled.next (Prepared.insertion 3 10) rfl trivial
  have session : Scan.Session True (.ofTable numbersTable 2) twoPagesSample lockedScan.1 lockedScan.2.1
      lockedScan.2.2 := Scan.session_performAll _ _ _ _
  have parted : lockedScan.1 = [] ++ (Scan.ofTable numbersTable 2).entry twoPagesSample .start ::
      ((lockedScan.1.tail.take 6) ++ lockedScan.1.tail.drop 6) := by
    rw [List.take_append_drop]
    rfl
  have two : numbersTable.pages twoPagesSample.volume = 2 := by decide +kernel
  have calls : (lockedScan.1.tail.take 6).map Scan.Entry.call =
      [.step, .hasMore, .step, .step, .step, .step] := rfl
  have asks : ∀ e ∈ lockedScan.1.tail.take 6, e.call.Asks := by
    rw [← List.forall_mem_map, calls]
    simp [Scan.Call.Asks]
  have walk := (scan_law Prepared.ofVolume_blank run session).1 _ _ _ _ parted trivial asks
  have nexts : (lockedScan.1.tail.take 6).filterMap Scan.Entry.next? =
      [readRow 7 0, readRow 8 1, readRow 9 2, some (.error (.lockTimeout 2)), none] := by decide +kernel
  rw [two, nexts] at walk
  exact ⟨_, _, Prepared.ofVolume_blank, run, session, by decide +kernel, walk⟩

end PagedStore
