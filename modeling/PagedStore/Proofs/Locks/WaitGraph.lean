import Mathlib.Data.List.Cycle
import Mathlib.Logic.Function.Iterate
import PagedStore.Locks.WaitGraph

/-! A cycle of waits that is found is one: each transaction on it waits for the next, and the last one
for the first. The search comes to an end, and misses none. -/
namespace PagedStore.WaitGraph

def Edge (graph : WaitGraph) (txn other : TxnId) : Prop :=
  ∃ others, graph[txn]? = some others ∧ other ∈ others

/-- Whether a path searched leads along waits from the start, and whatever is still to be tried from a
transaction on it is waited for by that transaction. -/
structure Traced (graph : WaitGraph) (start : TxnId) (path : List Visit) : Prop where
  chain : (path.map Visit.txn).IsChain fun txn before => graph.Edge before txn
  origin : ∀ first ∈ (path.map Visit.txn).getLast?, first = start
  ahead : ∀ visit ∈ path, ∀ other ∈ visit.untried, graph.Edge visit.txn other

namespace Traced
variable {graph : WaitGraph} {start txn next : TxnId} {untried : List TxnId} {path : List Visit}

private theorem first (graph : WaitGraph) (start : TxnId) :
    Traced graph start [⟨start, graph[start]?.getD []⟩] where
  chain := List.isChain_singleton start
  origin first last := by
    cases last
    rfl
  ahead visit listed other tried := by
    rw [List.mem_singleton.mp listed] at tried ⊢
    cases waits : graph[start]? with
    | none => simp [waits] at tried
    | some others => exact ⟨others, waits, by simpa [waits] using tried⟩

private theorem leave (h : Traced graph start (⟨txn, []⟩ :: path)) : Traced graph start path where
  chain := h.chain.tail
  origin first last := by
    refine h.origin first ?_
    cases path with
    | nil => cases last
    | cons below path => exact (List.getLast?_cons_cons).trans last
  ahead visit listed := h.ahead visit (List.mem_cons_of_mem _ listed)

private theorem pass (h : Traced graph start (⟨txn, next :: untried⟩ :: path)) :
    Traced graph start (⟨txn, untried⟩ :: path) where
  chain := h.chain
  origin := h.origin
  ahead visit listed other tried := by
    rcases List.mem_cons.mp listed with rfl | below
    · exact h.ahead _ List.mem_cons_self other (List.mem_cons_of_mem next tried)
    · exact h.ahead visit (List.mem_cons_of_mem _ below) other tried

private theorem enter (h : Traced graph start (⟨txn, next :: untried⟩ :: path)) {onward : List TxnId}
    (waits : graph[next]? = some onward) :
    Traced graph start (⟨next, onward⟩ :: ⟨txn, untried⟩ :: path) where
  chain := List.isChain_cons_cons.mpr
    ⟨h.ahead _ List.mem_cons_self next List.mem_cons_self, h.chain⟩
  origin first last := h.origin first ((List.getLast?_cons_cons).symm.trans last)
  ahead visit listed other tried := by
    rcases List.mem_cons.mp listed with rfl | below
    · exact ⟨onward, waits, tried⟩
    · exact h.pass.ahead visit below other tried

private theorem cycle (h : Traced graph start (⟨txn, start :: untried⟩ :: path)) :
    (txn :: path.map Visit.txn).reverse.head? = some start ∧
      ((txn :: path.map Visit.txn).reverse : Cycle TxnId).Chain graph.Edge := by
  have some_first : (txn :: path.map Visit.txn).reverse ≠ [] := by simp
  obtain ⟨first, rest, split⟩ := List.exists_cons_of_ne_nil some_first
  have origin : first = start := h.origin first (by
    rw [List.map_cons, ← List.head?_reverse, split]
    rfl)
  subst origin
  have closed : (first :: txn :: path.map Visit.txn).IsChain fun txn before =>
      graph.Edge before txn :=
    List.isChain_cons_cons.mpr ⟨h.ahead _ List.mem_cons_self first List.mem_cons_self, h.chain⟩
  refine ⟨by rw [split, List.head?_cons], ?_⟩
  rw [split, Cycle.chain_coe_cons, ← List.cons_append, ← split, ← List.reverse_cons,
    List.isChain_reverse]
  exact closed

end Traced

private theorem cycle_of_search {graph unexplored : WaitGraph} {start : TxnId} {path : List Visit}
    {cycle : List TxnId} (found : search start unexplored path = some cycle)
    (within : ∀ {txn : TxnId} {others : List TxnId}, unexplored[txn]? = some others →
      graph[txn]? = some others)
    (traced : Traced graph start path) :
    cycle.head? = some start ∧ (cycle : Cycle TxnId).Chain graph.Edge := by
  fun_induction search start unexplored path with
  | case1 => cases found
  | case2 _ _ _ ih => exact ih found within traced.leave
  | case3 =>
    cases found
    exact traced.cycle
  | case4 _ _ _ _ _ _ _ ih => exact ih found within traced.pass
  | case5 unexplored path txn next untried _ onward waits ih =>
    refine ih found (fun {txn others} left => within ?_) (traced.enter (within waits))
    rw [Std.ExtTreeMap.getElem?_erase] at left
    split at left
    · cases left
    · exact left

/-- What is found begins with the transaction asked about, and leads back to it along waits. -/
theorem cycle_of_cycle? {graph : WaitGraph} {start : TxnId} {cycle : List TxnId}
    (found : graph.cycle? start = some cycle) :
    cycle.head? = some start ∧ (cycle : Cycle TxnId).Chain graph.Edge :=
  cycle_of_search found id (.first graph start)

/-- A transaction and the only one that it waits for are found where that one waits for it in turn. -/
theorem cycle?_of_mutual {graph : WaitGraph} {start other : TxnId} {others : List TxnId}
    (different : other ≠ start) (waits : graph[start]? = some [other])
    (back : graph[other]? = some (start :: others)) : graph.cycle? start = some [start, other] := by
  rw [cycle?, waits, Option.getD_some, search, if_neg different]
  split
  · rename_i absent
    rw [back] at absent
    cases absent
  · rename_i onward found
    rw [back] at found
    cases found
    rw [search, if_pos rfl]
    rfl

/-! ### How long a search takes -/

/-- How much there is to explore: each transaction that waits, and each that it waits for. -/
def extent (graph : WaitGraph) : Nat :=
  effort (graph.toList.map fun (txn, others) => ⟨txn, others⟩)

private theorem effort_eq_of_perm {path path' : List Visit} (same : path.Perm path') :
    effort path = effort path' := by
  induction same with
  | nil => rfl
  | cons visit _ ih => rw [effort, effort, ih]
  | swap visit next path =>
    simp only [effort]
    omega
  | trans _ _ ih ih' => exact ih.trans ih'

private theorem extent_eq_of_waits {graph : WaitGraph} {txn : TxnId} {others : List TxnId}
    (waits : graph[txn]? = some others) :
    extent graph = others.length + 1 + extent (graph.erase txn) := by
  have distinct (graph : WaitGraph) : graph.toList.Nodup :=
    (Std.ExtTreeMap.distinct_keys_toList (t := graph)).imp fun different same =>
      different (by rw [same]; exact Std.ReflCmp.compare_self)
  have listed : graph.toList.Perm ((txn, others) :: (graph.erase txn).toList) := by
    refine (List.perm_ext_iff_of_nodup (distinct graph) (List.nodup_cons.mpr ⟨?_, distinct _⟩)).mpr ?_
    · rw [Std.ExtTreeMap.mem_toList_iff_getElem?_eq_some, Std.ExtTreeMap.getElem?_erase_self]
      simp
    · rintro ⟨txn', others'⟩
      rw [List.mem_cons, Std.ExtTreeMap.mem_toList_iff_getElem?_eq_some,
        Std.ExtTreeMap.mem_toList_iff_getElem?_eq_some, Std.ExtTreeMap.getElem?_erase]
      simp only [Std.LawfulEqCmp.compare_eq_iff_eq, Prod.mk.injEq]
      grind
  rw [extent, effort_eq_of_perm (listed.map _), List.map_cons, effort, extent]

/-- A search that has come to a result, or is to go on with what is unexplored from a path. -/
abbrev Progress := Option (List TxnId) ⊕ WaitGraph × List Visit

/-- One turn of a search: the last transaction on the path is left, or one that it waits for is tried. -/
def turn (start : TxnId) : Progress → Progress
  | .inl result => .inl result
  | .inr (_, []) => .inl none
  | .inr (unexplored, ⟨_, []⟩ :: path) => .inr (unexplored, path)
  | .inr (unexplored, ⟨txn, next :: untried⟩ :: path) =>
    if next = start then .inl (some (txn :: path.map Visit.txn).reverse)
    else
      match unexplored[next]? with
      | none => .inr (unexplored, ⟨txn, untried⟩ :: path)
      | some onward => .inr (unexplored.erase next, ⟨next, onward⟩ :: ⟨txn, untried⟩ :: path)

/-- A search comes to its result in as many turns as there is to explore and to try. -/
private theorem turns_search (start : TxnId) (unexplored : WaitGraph) (path : List Visit) :
    (turn start)^[extent unexplored + effort path + 1] (.inr (unexplored, path)) =
      .inl (search start unexplored path) := by
  have ended (turns : Nat) (result : Option (List TxnId)) :
      (turn start)^[turns] (.inl result) = .inl result :=
    Function.iterate_fixed rfl turns
  fun_induction search start unexplored path with
  | case1 unexplored => exact ended (extent unexplored) none
  | case2 unexplored txn path ih =>
    have count : extent unexplored + effort (⟨txn, []⟩ :: path) + 1 =
        extent unexplored + effort path + 1 + 1 := by
      simp only [effort, List.length_nil]
      omega
    rw [count, Function.iterate_succ_apply]
    exact ih
  | case3 unexplored txn untried path =>
    rw [Function.iterate_succ_apply, turn, if_pos rfl, ended]
  | case4 unexplored txn next untried path other absent ih =>
    have count : extent unexplored + effort (⟨txn, next :: untried⟩ :: path) + 1 =
        extent unexplored + effort (⟨txn, untried⟩ :: path) + 1 + 1 := by
      simp only [effort, List.length_cons]
      omega
    rw [count, Function.iterate_succ_apply, turn, if_neg other, absent]
    exact ih
  | case5 unexplored txn next untried path other onward waits ih =>
    have count : extent unexplored + effort (⟨txn, next :: untried⟩ :: path) + 1 =
        extent (unexplored.erase next) + effort (⟨next, onward⟩ :: ⟨txn, untried⟩ :: path) + 1 + 1 := by
      simp only [effort, List.length_cons, extent_eq_of_waits waits]
      omega
    rw [count, Function.iterate_succ_apply, turn, if_neg other, waits]
    exact ih

/-! ### Nobody twice -/

/-- Whether a path names nobody twice, and nobody but the start who is unexplored. -/
structure Simple (unexplored : WaitGraph) (start : TxnId) (path : List Visit) : Prop where
  distinct : (path.map Visit.txn).Nodup
  explored : ∀ visit ∈ path, visit.txn ≠ start → unexplored[visit.txn]? = none

namespace Simple
variable {unexplored : WaitGraph} {start txn next : TxnId} {untried : List TxnId} {path : List Visit}

private theorem first (unexplored : WaitGraph) (start : TxnId) (untried : List TxnId) :
    Simple unexplored start [⟨start, untried⟩] where
  distinct := List.nodup_singleton start
  explored _ listed other := absurd (congrArg Visit.txn (List.mem_singleton.mp listed)) other

private theorem leave (h : Simple unexplored start (⟨txn, untried⟩ :: path)) :
    Simple unexplored start path where
  distinct := (List.nodup_cons.mp h.distinct).2
  explored visit listed := h.explored visit (List.mem_cons_of_mem _ listed)

private theorem pass (h : Simple unexplored start (⟨txn, next :: untried⟩ :: path)) :
    Simple unexplored start (⟨txn, untried⟩ :: path) where
  distinct := h.distinct
  explored visit listed other := by
    rcases List.mem_cons.mp listed with rfl | below
    · exact h.explored ⟨txn, next :: untried⟩ List.mem_cons_self other
    · exact h.leave.explored visit below other

private theorem enter (h : Simple unexplored start path) {onward : List TxnId} (other : next ≠ start)
    (waits : unexplored[next]? = some onward) :
    Simple (unexplored.erase next) start (⟨next, onward⟩ :: path) where
  distinct := by
    refine List.nodup_cons.mpr ⟨fun listed => ?_, h.distinct⟩
    obtain ⟨visit, mem, rfl⟩ := List.mem_map.mp listed
    rw [h.explored visit mem other] at waits
    cases waits
  explored visit listed different := by
    rw [Std.ExtTreeMap.getElem?_erase]
    split
    · rfl
    · rename_i elsewhere
      rcases List.mem_cons.mp listed with rfl | below
      · exact absurd (Std.LawfulEqCmp.compare_eq_iff_eq.mpr rfl) elsewhere
      · exact h.explored visit below different

end Simple

private theorem nodup_of_search {unexplored : WaitGraph} {start : TxnId} {path : List Visit}
    {cycle : List TxnId} (found : search start unexplored path = some cycle)
    (simple : Simple unexplored start path) : cycle.Nodup := by
  fun_induction search start unexplored path with
  | case1 => cases found
  | case2 _ _ _ ih => exact ih found simple.leave
  | case3 =>
    cases found
    exact List.nodup_reverse.mpr simple.distinct
  | case4 _ _ _ _ _ _ _ ih => exact ih found simple.pass
  | case5 _ _ _ _ _ other _ waits ih => exact ih found (simple.pass.enter other waits)

/-! ### No cycle is missed -/

/-- Whether all that the start and whoever is explored wait for is explored as well, and is not the
start, but for what is still to be tried on the path. -/
def Covered (graph unexplored : WaitGraph) (start : TxnId) (path : List Visit) : Prop :=
  ∀ ⦃txn other : TxnId⦄, txn = start ∨ unexplored[txn]? = none → graph.Edge txn other →
    (other ≠ start ∧ unexplored[other]? = none) ∨
      ∃ visit ∈ path, visit.txn = txn ∧ other ∈ visit.untried

namespace Covered
variable {graph unexplored : WaitGraph} {start txn next : TxnId} {untried : List TxnId}
  {path : List Visit}

private theorem first (graph : WaitGraph) (start : TxnId) :
    Covered graph graph start [⟨start, graph[start]?.getD []⟩] := by
  rintro txn other explored ⟨others, waits, listed⟩
  rcases explored with rfl | absent
  · exact .inr ⟨_, List.mem_singleton_self _, rfl, by simpa [waits] using listed⟩
  · rw [waits] at absent
    cases absent

private theorem leave (h : Covered graph unexplored start (⟨txn, []⟩ :: path)) :
    Covered graph unexplored start path := by
  intro from_txn other explored edge
  rcases h explored edge with done | ⟨visit, listed, here, ahead⟩
  · exact .inl done
  · rcases List.mem_cons.mp listed with rfl | below
    · cases ahead
    · exact .inr ⟨visit, below, here, ahead⟩

private theorem pass (h : Covered graph unexplored start (⟨txn, next :: untried⟩ :: path))
    (other : next ≠ start) (absent : unexplored[next]? = none) :
    Covered graph unexplored start (⟨txn, untried⟩ :: path) := by
  intro from_txn to_txn explored edge
  rcases h explored edge with done | ⟨visit, listed, rfl, ahead⟩
  · exact .inl done
  · rcases List.mem_cons.mp listed with rfl | below
    · rcases List.mem_cons.mp ahead with rfl | ahead
      · exact .inl ⟨other, absent⟩
      · exact .inr ⟨_, List.mem_cons_self, rfl, ahead⟩
    · exact .inr ⟨visit, List.mem_cons_of_mem _ below, rfl, ahead⟩

private theorem enter (h : Covered graph unexplored start (⟨txn, next :: untried⟩ :: path))
    (other : next ≠ start) {onward : List TxnId} (waits : graph[next]? = some onward) :
    Covered graph (unexplored.erase next) start (⟨next, onward⟩ :: ⟨txn, untried⟩ :: path) := by
  have erased (txn : TxnId) :
      (unexplored.erase next)[txn]? = none ↔ txn = next ∨ unexplored[txn]? = none := by
    rw [Std.ExtTreeMap.getElem?_erase]
    simp only [Std.LawfulEqCmp.compare_eq_iff_eq, ite_eq_left_iff, eq_comm (a := next)]
    exact or_iff_not_imp_left.symm
  intro from_txn to_txn explored edge
  rw [erased] at explored ⊢
  by_cases self : from_txn = next
  · subst self
    obtain ⟨others, waits', listed⟩ := edge
    rw [waits] at waits'
    cases waits'
    exact .inr ⟨_, List.mem_cons_self, rfl, listed⟩
  · rcases h (explored.imp_right (Or.resolve_left · self)) edge with
      ⟨away, absent⟩ | ⟨visit, listed, rfl, ahead⟩
    · exact .inl ⟨away, .inr absent⟩
    · rcases List.mem_cons.mp listed with rfl | below
      · rcases List.mem_cons.mp ahead with rfl | ahead
        · exact .inl ⟨other, .inl rfl⟩
        · exact .inr ⟨_, List.mem_cons_of_mem _ List.mem_cons_self, rfl, ahead⟩
      · exact .inr ⟨visit, List.mem_cons_of_mem _ (List.mem_cons_of_mem _ below), rfl, ahead⟩

private theorem acyclic (h : Covered graph unexplored start []) :
    ¬ Relation.TransGen graph.Edge start start := by
  have done {txn other : TxnId} (explored : txn = start ∨ unexplored[txn]? = none)
      (edge : graph.Edge txn other) : other ≠ start ∧ unexplored[other]? = none := by
    simpa using h explored edge
  have reached {txn : TxnId} (way : Relation.TransGen graph.Edge start txn) :
      txn ≠ start ∧ unexplored[txn]? = none := by
    induction way with
    | single edge => exact done (.inl rfl) edge
    | tail _ edge ih => exact done (.inr ih.2) edge
  exact fun way => (reached way).1 rfl

end Covered

private theorem acyclic_of_search {graph unexplored : WaitGraph} {start : TxnId} {path : List Visit}
    (missed : search start unexplored path = none)
    (within : ∀ {txn : TxnId} {others : List TxnId}, unexplored[txn]? = some others →
      graph[txn]? = some others)
    (covered : Covered graph unexplored start path) : ¬ Relation.TransGen graph.Edge start start := by
  fun_induction search start unexplored path with
  | case1 => exact covered.acyclic
  | case2 _ _ _ ih => exact ih missed within covered.leave
  | case3 => cases missed
  | case4 _ _ _ _ _ other absent ih => exact ih missed within (covered.pass other absent)
  | case5 unexplored _ next _ _ other _ waits ih =>
    refine ih missed (fun {txn others} left => within ?_) (covered.enter other (within waits))
    rw [Std.ExtTreeMap.getElem?_erase] at left
    split at left
    · cases left
    · exact left

private theorem transGen_of_chain {graph : WaitGraph} {cycle : Cycle TxnId} (chain : cycle.Chain graph.Edge)
    {txn other : TxnId} (mem : txn ∈ cycle) (mem' : other ∈ cycle) :
    Relation.TransGen graph.Edge txn other :=
  Cycle.chain_iff_pairwise.mp (chain.imp fun _ _ => Relation.TransGen.single) txn mem other mem'

/-- A cycle is found where waits lead from the transaction asked about back to it, and nowhere else. -/
theorem cycle?_isSome_iff {graph : WaitGraph} {start : TxnId} :
    (graph.cycle? start).isSome ↔ Relation.TransGen graph.Edge start start := by
  constructor
  · intro found
    obtain ⟨cycle, found⟩ := Option.isSome_iff_exists.mp found
    obtain ⟨head, chain⟩ := cycle_of_cycle? found
    have mem : start ∈ (cycle : Cycle TxnId) := Cycle.mem_coe_iff.mpr (List.mem_of_mem_head? head)
    exact transGen_of_chain chain mem mem
  · intro way
    rw [Option.isSome_iff_ne_none]
    exact fun missed => acyclic_of_search missed id (.first graph start) way

theorem nodup_of_cycle? {graph : WaitGraph} {start : TxnId} {cycle : List TxnId}
    (found : graph.cycle? start = some cycle) : cycle.Nodup :=
  nodup_of_search found (.first graph start _)

/-- Whoever waits for whom, in whichever order that is listed: the search for a cycle through a
transaction comes to its result, in no more turns than there is to explore. It finds one just where waits
lead from the transaction back to it. What it finds begins with the transaction, names nobody twice, and
leads along waits from each to the next and from the last one back to the first. -/
theorem cycle?_exact (graph : WaitGraph) (start : TxnId) :
    (∃ turns ≤ 2 * extent graph + 2,
      (turn start)^[turns] (.inr (graph, [⟨start, graph[start]?.getD []⟩])) =
        .inl (graph.cycle? start)) ∧
    ((graph.cycle? start).isSome ↔ Relation.TransGen graph.Edge start start) ∧
    ∀ cycle ∈ graph.cycle? start,
      cycle.head? = some start ∧ cycle.Nodup ∧ (cycle : Cycle TxnId).Chain graph.Edge := by
  refine ⟨⟨_, ?_, turns_search start graph _⟩, cycle?_isSome_iff, fun cycle found => ?_⟩
  · simp only [effort]
    cases waits : graph[start]? with
    | none =>
      simp
      omega
    | some others =>
      have := extent_eq_of_waits waits
      rw [Option.getD_some]
      omega
  · obtain ⟨head, chain⟩ := cycle_of_cycle? found
    exact ⟨head, nodup_of_cycle? found, chain⟩

end PagedStore.WaitGraph
