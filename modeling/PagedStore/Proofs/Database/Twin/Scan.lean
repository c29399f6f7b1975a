import PagedStore.Proofs.Database.Twin
import PagedStore.Scan

/-! Scans in twins: they come equally far and yield the same, apart from the names of columns. -/
namespace PagedStore

namespace Scan

def nameless (s : Scan) : Scan :=
  { s with pending := s.pending.map Tuple.nameless }

theorem eq_of_nameless {s s' : Scan} (same : s'.nameless = s.nameless) : ∃ pending,
    s' = { s with pending := pending } ∧ pending.map Tuple.nameless = s.pending.map Tuple.nameless := by
  obtain ⟨table, txn, next, pending, isOpen⟩ := s
  obtain ⟨table', txn', next', pending', isOpen'⟩ := s'
  simp only [nameless, mk.injEq] at same
  obtain ⟨rfl, rfl, rfl, alike, rfl⟩ := same
  exact ⟨pending', rfl, alike⟩

private theorem isOpen_congr {s s' : Scan} (same : s'.nameless = s.nameless) : s'.isOpen = s.isOpen := by
  obtain ⟨pending, rfl, -⟩ := eq_of_nameless same
  rfl

private theorem nameless_congr (s : Scan) {pending pending' : List Tuple}
    (alike : pending'.map Tuple.nameless = pending.map Tuple.nameless) :
    nameless { s with pending := pending' } = nameless { s with pending := pending } := by
  rw [nameless, nameless, alike]

private theorem map_ok_congr {pending pending' : List Tuple}
    (alike : pending'.map Tuple.nameless = pending.map Tuple.nameless) :
    (pending'.map (Except.ok : Tuple → Except Fault Tuple)).map (Except.map Tuple.nameless) =
      (pending.map Except.ok).map (Except.map Tuple.nameless) := by
  have names (l : List Tuple) :
      (l.map (Except.ok : Tuple → Except Fault Tuple)).map (Except.map Tuple.nameless) =
        (l.map Tuple.nameless).map .ok := by
    rw [List.map_map, List.map_map]
    rfl
  rw [names, alike, names]

open Database in
private theorem roomy_of_advance {db : Database} {s : Scan} {left : Nat} (none_left : s.pending = [])
    (roomy : Roomy (advance db s (left + 1)).1) :
    Roomy (db.fetch s.txn (s.table.pageAt s.next) .read).1 := by
  intro fault failed
  rw [advance, none_left] at roomy
  cases he : db.fetch s.txn (s.table.pageAt s.next) .read with
  | mk result mid =>
    rw [he] at failed roomy
    cases failed
    exact roomy fault rfl

open Database in
private theorem roomy_of_step {db : Database} {s : Scan}
    (roomy : ∀ result, (s.step db).1 = some result → Roomy result) : Roomy (s.hasMore db).1 := by
  intro fault failed
  rw [step] at roomy
  generalize s.hasMore db = outcome at failed roomy
  obtain ⟨result, rest, mid⟩ := outcome
  cases failed
  exact roomy _ rfl fault rfl

open Database in
private theorem roomy_of_collectPages {db : Database} {s : Scan} {left : Nat}
    (roomy : ∀ result ∈ (collectPages db s (left + 1)).1, Roomy result) :
    Roomy (db.fetch s.txn (s.table.pageAt s.next) .read).1 := by
  intro fault failed
  rw [collectPages] at roomy
  generalize db.fetch s.txn (s.table.pageAt s.next) .read = outcome at failed roomy
  obtain ⟨result, mid⟩ := outcome
  cases failed
  exact roomy _ (List.mem_append_right _ (List.mem_singleton.mpr rfl)) fault rfl

end Scan

namespace Database.Twins
variable {db db' : Database} (h : Twins db db') {s s' : Scan} (same : s'.nameless = s.nameless)
include h same

private theorem advance (left : Nat) (roomy : Roomy (Scan.advance db s left).1)
    (roomy' : Roomy (Scan.advance db' s' left).1) :
    (Scan.advance db' s' left).1 = (Scan.advance db s left).1 ∧
      (Scan.advance db' s' left).2.1.nameless = (Scan.advance db s left).2.1.nameless ∧
      Twins (Scan.advance db s left).2.2 (Scan.advance db' s' left).2.2 := by
  induction left generalizing db db' s s' with
  | zero =>
    obtain ⟨pending, rfl, alike⟩ := Scan.eq_of_nameless same
    refine ⟨?_, same, h⟩
    rw [Scan.advance, Scan.advance, ← List.isEmpty_map, alike, List.isEmpty_map]
  | succ left ih =>
    obtain ⟨pending, rfl, alike⟩ := Scan.eq_of_nameless same
    cases hp : s.pending with
    | cons tuple rest =>
      rw [hp] at alike
      cases pending with
      | nil => cases alike
      | cons tuple' rest' =>
        simp only [Scan.advance, hp]
        exact ⟨trivial, same, h⟩
    | nil =>
      rw [hp, List.map_nil, List.map_eq_nil_iff] at alike
      subst alike
      have room := Scan.roomy_of_advance hp roomy
      have room' := @Scan.roomy_of_advance db' { s with pending := [] } left rfl roomy'
      rcases (h.fetch s.txn (s.table.pageAt s.next) .read).cases room room' with
        ⟨fault, mid, mid', he, he', twins⟩ | ⟨frame, frame', mid, mid', he, he', shown, twins⟩
      · simp only [Scan.advance, hp, he, he']
        exact ⟨trivial, same, twins⟩
      · simp only [Scan.advance, hp, he, he'] at roomy roomy' ⊢
        exact ih twins (Scan.nameless_congr { s with next := s.next + 1 } (Page.tuples_congr shown))
          roomy roomy'

private theorem pagesLeft_eq : s'.pagesLeft db' = s.pagesLeft db := by
  obtain ⟨pending, rfl, -⟩ := Scan.eq_of_nameless same
  exact congrArg (· - s.next) (h.pages_eq s.table)

theorem hasMore (roomy : Roomy (s.hasMore db).1) (roomy' : Roomy (s'.hasMore db').1) :
    (s'.hasMore db').1 = (s.hasMore db).1 ∧
      (s'.hasMore db').2.1.nameless = (s.hasMore db).2.1.nameless ∧
      Twins (s.hasMore db).2.2 (s'.hasMore db').2.2 := by
  rw [Scan.hasMore] at roomy roomy'
  rw [Scan.hasMore, Scan.hasMore]
  rw [Scan.isOpen_congr same, h.pagesLeft_eq same] at roomy' ⊢
  split
  · rename_i opened
    rw [if_pos opened] at roomy roomy'
    exact h.advance same _ roomy roomy'
  · exact ⟨rfl, same, h⟩

theorem step (roomy : ∀ result, (s.step db).1 = some result → Roomy result)
    (roomy' : ∀ result, (s'.step db').1 = some result → Roomy result) :
    (s'.step db').1.map (Except.map Tuple.nameless) = (s.step db).1.map (Except.map Tuple.nameless) ∧
      (s'.step db').2.1.nameless = (s.step db).2.1.nameless ∧
      Twins (s.step db).2.2 (s'.step db').2.2 := by
  obtain ⟨told, left, twins⟩ :=
    h.hasMore same (Scan.roomy_of_step roomy) (Scan.roomy_of_step roomy')
  rw [Scan.step, Scan.step]
  generalize s.hasMore db = outcome at told left twins
  generalize s'.hasMore db' = outcome' at told left twins
  obtain ⟨result, t, mid⟩ := outcome
  obtain ⟨result', t', mid'⟩ := outcome'
  obtain rfl : result' = result := told
  obtain ⟨pending, rfl, alike⟩ := Scan.eq_of_nameless left
  simp only at alike twins
  rcases result' with fault | (_ | _)
  · exact ⟨rfl, rfl, twins⟩
  · exact ⟨rfl, left, twins⟩
  · simp only
    cases hp : t.pending with
    | nil =>
      rw [hp, List.map_nil, List.map_eq_nil_iff] at alike
      subst alike
      exact ⟨rfl, left, twins⟩
    | cons tuple rest =>
      rw [hp] at alike
      cases pending with
      | nil => cases alike
      | cons tuple' rest' =>
        obtain ⟨first, others⟩ := List.cons.inj alike
        refine ⟨?_, Scan.nameless_congr t others, twins⟩
        exact congrArg (fun tuple => some (Except.ok tuple)) first

private theorem collectPages (left : Nat)
    (roomy : ∀ result ∈ (Scan.collectPages db s left).1, Roomy result)
    (roomy' : ∀ result ∈ (Scan.collectPages db' s' left).1, Roomy result) :
    (Scan.collectPages db' s' left).1.map (Except.map Tuple.nameless) =
        (Scan.collectPages db s left).1.map (Except.map Tuple.nameless) ∧
      (Scan.collectPages db' s' left).2.1.nameless = (Scan.collectPages db s left).2.1.nameless ∧
      Twins (Scan.collectPages db s left).2.2 (Scan.collectPages db' s' left).2.2 := by
  induction left generalizing db db' s s' with
  | zero =>
    obtain ⟨pending, rfl, alike⟩ := Scan.eq_of_nameless same
    refine ⟨?_, Scan.nameless_congr s rfl, h⟩
    exact Scan.map_ok_congr alike
  | succ left ih =>
    have room := Scan.roomy_of_collectPages roomy
    have room' := Scan.roomy_of_collectPages roomy'
    obtain ⟨pending, rfl, alike⟩ := Scan.eq_of_nameless same
    have first := Scan.map_ok_congr alike
    rcases (h.fetch s.txn (s.table.pageAt s.next) .read).cases room room' with
      ⟨fault, mid, mid', he, he', twins⟩ | ⟨frame, frame', mid, mid', he, he', shown, twins⟩
    · simp only [Scan.collectPages, he, he', List.map_append, first]
      exact ⟨trivial, Scan.nameless_congr { s with isOpen := false } rfl, twins⟩
    · simp only [Scan.collectPages, he, he'] at roomy roomy' ⊢
      obtain ⟨others, last, twins⟩ := ih twins
        (Scan.nameless_congr { s with next := s.next + 1 } (Page.tuples_congr shown))
        (fun result listed => roomy result (List.mem_append_right _ listed))
        (fun result listed => roomy' result (List.mem_append_right _ listed))
      refine ⟨?_, last, twins⟩
      rw [List.map_append, List.map_append, first, others]

theorem collect (roomy : ∀ result ∈ (s.collect db).1, Roomy result)
    (roomy' : ∀ result ∈ (s'.collect db').1, Roomy result) :
    (s'.collect db').1.map (Except.map Tuple.nameless) =
        (s.collect db).1.map (Except.map Tuple.nameless) ∧
      (s'.collect db').2.1.nameless = (s.collect db).2.1.nameless ∧
      Twins (s.collect db).2.2 (s'.collect db').2.2 := by
  rw [Scan.collect] at roomy roomy'
  rw [Scan.collect, Scan.collect]
  rw [Scan.isOpen_congr same, h.pagesLeft_eq same] at roomy' ⊢
  split
  · rename_i opened
    rw [if_pos opened] at roomy roomy'
    exact h.collectPages same _ roomy roomy'
  · exact ⟨rfl, same, h⟩

end Database.Twins

end PagedStore
