import PagedStore.Proofs.Database.Alone
import PagedStore.Proofs.Run.Isolation

/-! A database opened anew over the files of another: a scan of it yields all that is on disk. -/
namespace PagedStore

/-- A scan for a transaction that is alone yields tuples only, if all of its pages can be read. -/
theorem Scan.collectPages_alone (s : Scan) {db : Database} (alone : db.Alone s.txn) (left : Nat)
    (readable : ∀ i < left, ∃ p, db.load (s.table.pageAt (s.next + i)) = .ok p) :
    ∃ tuples : List Tuple, (collectPages db s left).1 = tuples.map .ok := by
  induction left generalizing s db with
  | zero => exact ⟨s.pending, rfl⟩
  | succ left ih =>
    obtain ⟨p, loaded⟩ := readable 0 (Nat.zero_lt_succ left)
    obtain ⟨⟨frame, got⟩, alone'⟩ := alone.fetch loaded .read
    have same := db.load_fetch s.txn (s.table.pageAt (s.next + 0)) .read
    simp only [Nat.add_zero] at got alone' same
    rw [collectPages]
    cases he : db.fetch s.txn (s.table.pageAt s.next) .read with
    | mk result mid =>
      rw [he] at got alone' same
      cases got
      obtain ⟨tuples, collected⟩ :=
        ih { s with next := s.next + 1, pending := frame.page.tuples } alone' fun i inside => by
          rw [same, Nat.add_assoc, Nat.add_comm 1]
          exact readable (i + 1) (Nat.succ_lt_succ inside)
      refine ⟨s.pending ++ tuples, ?_⟩
      simp only [collected, List.map_append]

/-- When it starts, it reads all pages of its table, those again whose numbers begin again. -/
private theorem Scan.collect_start {db : Database} {txn : TxnId} (alone : db.Alone txn) {table : Table}
    (readable : ∀ number < table.pages db.volume, ∃ p, db.load ⟨table.id, number⟩ = .ok p) :
    ∃ (shown : List Page) (mid : Database),
      ((ofTable table txn).start.collect db).1 = (shown.flatMap Page.tuples).map .ok ∧
      Database.Reads table txn db 0 shown mid ∧
      shown.length = table.pages db.volume := by
  obtain ⟨tuples, collected⟩ := collectPages_alone (ofTable table txn).start alone
    (table.pages db.volume) fun i inside => by
      rw [show (ofTable table txn).start.next + i = i from Nat.zero_add i]
      exact readable (pageNumber i) (Nat.lt_of_le_of_lt (Nat.mod_le i _) inside)
  obtain ⟨shown, reads, count, rfl, -⟩ := reads_of_collectPages collected
  exact ⟨shown, _, collected, reads, count⟩

private theorem Prepared.alone {settings : Settings} {volume : Volume} {db : Database}
    (h : Prepared settings volume db) (txn : TxnId) : db.Alone txn := by
  obtain ⟨cache, locks, -⟩ := h.fresh
  refine ⟨cache ▸ .empty _, ?_, fun _ page => ?_⟩
  · rw [cache]
    exact h.room
  · rw [locks, Locks.mode?_empty]

/-- Whether tuples are all rows of a table, each as its record and each once. -/
structure Scan.Exhausts (tuples : List Tuple) (table : TableId)
    (rows : RecordId → Option (List Value)) : Prop where
  once : (tuples.map Tuple.record).Nodup
  placed : ∀ tuple ∈ tuples, ∃ record, tuple.record = some record ∧ record.page.table = table ∧
    rows record = some tuple.values
  complete : ∀ {record : RecordId} {values : List Value}, record.page.table = table →
    rows record = some values → ∃ tuple ∈ tuples, tuple.record = some record ∧ tuple.values = values

theorem Scan.Exhausts.congr {tuples : List Tuple} {table : TableId}
    {rows rows' : RecordId → Option (List Value)} (h : Exhausts tuples table rows)
    (same : ∀ {record : RecordId}, record.page.table = table → rows' record = rows record) :
    Exhausts tuples table rows' where
  once := h.once
  placed tuple listed := by
    obtain ⟨record, stands, here, held⟩ := h.placed tuple listed
    exact ⟨record, stands, here, (same here).trans held⟩
  complete here held := h.complete here ((same here).symm.trans held)

/-- A scan of a table in a database that was just opened comes to all of its pages, which show what its file
holds. -/
private theorem Prepared.shows {settings : Settings} {volume : Volume} {db : Database}
    (h : Prepared settings volume db) {table : Table} (known : db.Knows table)
    (readable : ∀ number < table.pages db.volume, ∃ p, db.load ⟨table.id, number⟩ = .ok p) (txn : TxnId) :
    ∃ (s : Scan) (shown : List Page), db.scan txn table.id = .ok s ∧
      (s.collect db).1 = (shown.flatMap Page.tuples).map .ok ∧
      shown.map Page.id = (List.range (table.pages db.volume)).map table.pageAt ∧
      ∀ page ∈ shown, page.Sound ∧ ∀ slot, page.row? slot = db.contents ⟨page.id, slot⟩ := by
  obtain ⟨shown, mid, collected, reads, count⟩ := Scan.collect_start (h.alone txn) readable
  refine ⟨_, shown, congrArg _ known, collected, ?_, reads.seen h.agrees h.verbatim⟩
  rw [reads.ids h.sound.keyed, count, List.range_eq_range']

/-- A scan of a table in a database that was just opened yields what its file holds. -/
theorem Prepared.scan {settings : Settings} {volume : Volume} {db : Database}
    (h : Prepared settings volume db) {table : Table} (known : db.Knows table)
    (readable : ∀ number < table.pages db.volume, ∃ p, db.load ⟨table.id, number⟩ = .ok p)
    (numbered : table.pages db.volume ≤ 4294967296) (txn : TxnId) :
    ∃ (s : Scan) (tuples : List Tuple), db.scan txn table.id = .ok s ∧
      (s.collect db).1 = tuples.map .ok ∧ Scan.Exhausts tuples table.id db.contents := by
  obtain ⟨s, shown, scanned, collected, listed, whole⟩ := h.shows known readable txn
  have ids : shown.map Page.id =
      (List.range (table.pages db.volume)).map fun number => ⟨table.id, number⟩ := by
    refine listed.trans (List.map_congr_left fun number inside => ?_)
    rw [Table.pageAt, pageNumber_of_lt (Nat.lt_of_lt_of_le (List.mem_range.mp inside) numbered)]
  have whole {page : Page} (listed : page ∈ shown) := whole page listed
  refine ⟨s, _, scanned, collected, ?once, ?placed, ?complete⟩
  case once =>
    apply Page.nodup_records (fun page listed => (whole listed).1)
    rw [ids]
    exact List.Pairwise.map _ (fun a b different same => different (congrArg PageId.number same))
      List.nodup_range
  case placed =>
    intro tuple yielded
    obtain ⟨page, listed, held⟩ := List.mem_flatMap.mp yielded
    obtain ⟨slot, at_slot⟩ := Page.mem_tuples.mp held
    have stands := ((whole listed).1.typed at_slot).2.2
    have read : page.id ∈ shown.map Page.id := List.mem_map_of_mem listed
    rw [ids, List.mem_map] at read
    obtain ⟨number, -, own⟩ := read
    refine ⟨⟨page.id, slot⟩, stands, own ▸ rfl, ?_⟩
    rw [← (whole listed).2]
    exact (whole listed).1.row?_eq_some_iff.mpr ⟨tuple, held, stands, rfl⟩
  case complete =>
    intro record values here held
    have inside : record.page.number < table.pages db.volume := by
      refine Nat.not_le.mp fun behind => ?_
      have nothing : db.contents record = none := h.agrees.beyond (here ▸ known) behind record.slot
      rw [nothing] at held
      cases held
    have read : record.page ∈ shown.map Page.id := by
      rw [ids, List.mem_map]
      exact ⟨record.page.number, List.mem_range.mpr inside, by rw [← here]⟩
    obtain ⟨page, listed, own⟩ := List.mem_map.mp read
    have row : page.row? record.slot = some values := by
      rw [(whole listed).2, own]
      exact held
    obtain ⟨tuple, yielded, stands, same⟩ := (whole listed).1.row?_eq_some_iff.mp row
    rw [own] at stands
    exact ⟨tuple, List.mem_flatMap.mpr ⟨page, listed, yielded⟩, stands, same⟩

/-- Where there are more pages than page numbers, the rows of the first pages are yielded again. -/
theorem Prepared.scan_again {settings : Settings} {volume : Volume} {db : Database}
    (h : Prepared settings volume db) {table : Table} (known : db.Knows table)
    (readable : ∀ number < table.pages db.volume, ∃ p, db.load ⟨table.id, number⟩ = .ok p)
    {number slot : Nat} (again : number + 4294967296 < table.pages db.volume) {values : List Value}
    (row : db.contents ⟨table.pageAt number, slot⟩ = some values) (txn : TxnId) :
    ∃ (s : Scan) (tuples : List Tuple), db.scan txn table.id = .ok s ∧
      (s.collect db).1 = tuples.map .ok ∧ ¬ (tuples.map Tuple.record).Nodup := by
  obtain ⟨s, shown, scanned, collected, ids, whole⟩ := h.shows known readable txn
  refine ⟨s, _, scanned, collected, fun once => ?_⟩
  have count : shown.length = table.pages db.volume := by
    simpa using congrArg List.length ids
  -- The page at a position shows the row if its number is that of the record.
  have shows {position : Nat} (inside : position < shown.length)
      (own : table.pageAt position = table.pageAt number) :
      some ⟨table.pageAt number, slot⟩ ∈ shown[position].tuples.map Tuple.record := by
    obtain ⟨sound, rows⟩ := whole _ (List.getElem_mem inside)
    have id : shown[position].id = table.pageAt number := by
      have there := congrArg (·[position]?) ids
      rw [List.getElem?_map, List.getElem?_map, List.getElem?_eq_getElem inside,
        List.getElem?_range (count ▸ inside), Option.map_some, Option.map_some, Option.some_inj] at there
      exact there.trans own
    obtain ⟨tuple, yielded, stands, -⟩ := sound.row?_eq_some_iff.mp ((rows slot).trans (id ▸ row))
    exact List.mem_map.mpr ⟨tuple, yielded, id ▸ stands⟩
  rw [List.map_flatMap, List.Nodup, List.pairwise_flatMap] at once
  have apart := List.pairwise_iff_getElem.mp once.2 number (number + 4294967296) (by omega) (by omega) (by omega)
  refine apart _ (shows _ rfl) _ (shows _ (congrArg (PageId.mk table.id) ?_)) rfl
  rw [pageNumber, pageNumber, Nat.add_mod_right]

end PagedStore
