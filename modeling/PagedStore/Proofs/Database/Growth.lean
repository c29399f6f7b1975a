import Mathlib.Data.List.Perm.Subperm
import PagedStore.Proofs.Database.Crowded
import PagedStore.Proofs.Database.Progress
import PagedStore.Proofs.Database.Search

/-! How much a table can grow by an insertion. A page that was added is passed over only if an outdated
copy of it is cached, so that each page added but the last one takes one such copy. -/
namespace PagedStore.Database

def cachedFrom (db : Database) (table : Table) (number : Nat) : List PageId :=
  db.cache.frames.keys.filter fun id => id.table = table.id ∧ number ≤ id.number

private theorem mem_cachedFrom {db : Database} {table : Table} {number : Nat} {id : PageId} :
    id ∈ db.cachedFrom table number ↔
      id ∈ db.cache.frames ∧ id.table = table.id ∧ number ≤ id.number := by
  rw [cachedFrom, List.mem_filter, Std.ExtTreeMap.mem_keys, decide_eq_true_iff]

private theorem nodup_cachedFrom (db : Database) (table : Table) (number : Nat) :
    (db.cachedFrom table number).Nodup :=
  db.cache.frames.nodup_keys.filter _

private theorem length_cachedFrom_le (db : Database) (table : Table) (number : Nat) :
    (db.cachedFrom table number).length ≤ db.cache.frames.size := by
  rw [← Std.ExtTreeMap.length_keys]
  exact List.length_filter_le _ _

/-- A full page that was cached is passed over without a change of the cached pages. -/
private theorem frames_of_full {db db' : Database} {txn : TxnId} {tuple : Tuple} {page : PageId}
    (passed : db.tryPage txn tuple page = (.ok none, db')) {frame : Frame}
    (cached : db.cache.frames[page]? = some frame) : db'.cache.frames = db.cache.frames := by
  have fetched : (db.fetch txn page .write).2.cache.frames = db.cache.frames :=
    frames_fetch_of_cached cached
  cases trial_of_eq passed with
  | full he _ =>
    rw [he] at fetched
    split <;> exact fetched

section Growth
variable {table : Table} {txn : TxnId} {tuple : Tuple} {db mid db' : Database} {count : Nat}

/-- What a search keeps to: the table has the next page at most, the cached pages that are left make up for
the pages added, and the file has changed by empty pages only unless page numbers have run out. -/
structure Bounded (table : Table) (txn : TxnId) (db : Database) (count : Nat) (mid : Database) :
    Prop where
  inside : count ≤ table.pages mid.volume
  pages_le : table.pages mid.volume ≤ max (table.pages db.volume) (count + 1)
  cached_le : max count (table.pages db.volume) +
      (mid.cachedFrom table (max count (table.pages db.volume))).length ≤
    table.pages db.volume + (db.cachedFrom table (table.pages db.volume)).length
  quiet : Quiet txn db mid ∨ 4294967296 ≤ count ∧ count = table.pages mid.volume

namespace Bounded

private theorem refl (table : Table) (txn : TxnId) (db : Database) : Bounded table txn db 0 db where
  inside := Nat.zero_le _
  pages_le := Nat.le_max_left _ _
  cached_le := Nat.le_of_eq (by rw [Nat.zero_max])
  quiet := .inl (.refl txn db)

private theorem append (h : Bounded table txn db count mid) (known : db.Knows table)
    (all : count = table.pages mid.volume) : Bounded table txn db count (mid.appendPage table).2 := by
  rcases Nat.lt_or_ge count 4294967296 with room | full
  · have quiet := h.quiet.resolve_right fun wrapped => absurd wrapped.1 (Nat.not_le.mpr room)
    have grown := (table.grown_append (all ▸ room)).2
    have pages : table.pages (mid.appendPage table).2.volume = table.pages mid.volume + 1 := grown
    have may : mid.MayGrow table mid.volume := ⟨by rwa [Knows, quiet.catalog], all ▸ room⟩
    exact ⟨by omega, by omega, h.cached_le, .inl (quiet.trans (quiet_append may txn))⟩
  · have pages : table.pages (mid.appendPage table).2.volume = table.pages mid.volume :=
      table.pages_append_of_full (all ▸ full)
    exact ⟨by omega, by omega, h.cached_le, .inr ⟨full, by omega⟩⟩

/-- A page of the table's old pages may come into the cache, but none behind them. -/
private theorem cachedFrom_of_old (h : Bounded table txn db count mid) (known : mid.Knows table)
    (quiet : Quiet txn mid db') (same : db'.volume = mid.volume) (old : count < table.pages db.volume) :
    db'.cachedFrom table (table.pages db.volume) ⊆ mid.cachedFrom table (table.pages db.volume) := by
  intro id listed
  obtain ⟨cached, own, behind⟩ := mem_cachedFrom.mp listed
  refine mem_cachedFrom.mpr ⟨?_, own, behind⟩
  obtain ⟨frame, held⟩ := Cache.exists_frame_of_mem cached
  rcases quiet.frames id with same | ⟨-, loaded⟩
  · exact Cache.mem_frames_of_eq (same ▸ held)
  · obtain ⟨other, known', shown⟩ := load_eq_ok_iff.mp (loaded frame held)
    rw [quiet.catalog, own] at known'
    cases known.symm.trans known'
    have inside := (table.shown_of_load shown).1
    have pages := h.pages_le
    rw [same] at inside
    omega

/-- A page behind the table's old pages was added blank, so that it is full only as an outdated copy. -/
private theorem cached_of_added (known : db.Knows table) (quiet : Quiet txn db mid)
    (added : table.pages db.volume ≤ count) (inside : count < table.pages mid.volume)
    (passed : mid.tryPage txn tuple (table.pageAt count) = (.ok none, db')) :
    count < 4294967296 ∧ ∃ frame, mid.cache.frames[table.pageAt count]? = some frame := by
  have numbered := quiet.numbered table known
  have room : count < 4294967296 := by omega
  have number : (table.pageAt count).number = count := pageNumber_of_lt room
  obtain ⟨p, blank, none_taken⟩ := (quiet.grown table known).load_blank
    (rfl : (table.pageAt count).table = table.id) (by omega) (by omega)
  have free := (table.shown_of_load blank).2.sound.freeCount_ne_zero none_taken
  have loads : mid.load (table.pageAt count) = .ok p :=
    load_eq_ok_iff.mpr ⟨table, quiet.catalog ▸ known, blank⟩
  refine ⟨room, ?_⟩
  rcases @tryPage_cases mid txn tuple (table.pageAt count) with
    ⟨fault, failed, -⟩ | ⟨record, done⟩ | ⟨-, frame, full, cached | loaded⟩
  · rw [passed] at failed
    cases failed
  · rw [passed] at done
    cases done
  · exact ⟨frame, cached⟩
  · cases loads.symm.trans loaded
    exact absurd full free

private theorem length_cachedFrom_succ {frame : Frame}
    (cached : mid.cache.frames[table.pageAt count]? = some frame) (room : count < 4294967296)
    (same : db'.cache.frames = mid.cache.frames) :
    (db'.cachedFrom table (count + 1)).length + 1 ≤ (mid.cachedFrom table count).length := by
  have number : (table.pageAt count).number = count := pageNumber_of_lt room
  have fresh : table.pageAt count ∉ db'.cachedFrom table (count + 1) := by
    intro listed
    have behind := (mem_cachedFrom.mp listed).2.2
    omega
  have distinct := List.nodup_cons.mpr ⟨fresh, db'.nodup_cachedFrom table (count + 1)⟩
  refine (List.subperm_of_subset distinct fun id listed => ?_).length_le
  rcases List.mem_cons.mp listed with rfl | listed
  · exact mem_cachedFrom.mpr ⟨Cache.mem_frames_of_eq cached, rfl, Nat.le_of_eq number.symm⟩
  · obtain ⟨cached, own, behind⟩ := mem_cachedFrom.mp listed
    exact mem_cachedFrom.mpr ⟨same ▸ cached, own, Nat.le_of_succ_le behind⟩

private theorem pass (h : Bounded table txn db count mid) (known : db.Knows table)
    (inside : count < table.pages mid.volume)
    (passed : mid.tryPage txn tuple (table.pageAt count) = (.ok none, db')) :
    Bounded table txn db (count + 1) db' := by
  have quiet := h.quiet.resolve_right fun wrapped => Nat.ne_of_lt inside wrapped.2
  have onwards : Quiet txn mid db' :=
    (approach_of_full passed fun _ _ => False).quiet fun _ _ => False.elim
  have same : db'.volume = mid.volume := by
    have volume := mid.volume_tryPage txn tuple (table.pageAt count)
    rwa [passed] at volume
  have pages := h.pages_le
  refine ⟨by rw [same]; omega, by rw [same]; omega, ?_, .inl (quiet.trans onwards)⟩
  rcases Nat.lt_or_ge count (table.pages db.volume) with old | added
  · have known' : mid.Knows table := by rwa [Knows, quiet.catalog]
    have cached := h.cached_le
    have fewer := (List.subperm_of_subset (db'.nodup_cachedFrom table (table.pages db.volume))
      (h.cachedFrom_of_old known' onwards same old)).length_le
    rw [Nat.max_eq_right (by omega)] at cached ⊢
    omega
  · obtain ⟨room, frame, cached⟩ := cached_of_added known quiet added inside passed
    have fewer := length_cachedFrom_succ cached room (frames_of_full passed cached)
    have before := h.cached_le
    rw [Nat.max_eq_left (by omega)] at before ⊢
    omega

end Bounded

private theorem Search.bounded (search : Search table txn tuple db count mid) (known : db.Knows table) :
    Bounded table txn db count mid := by
  induction search with
  | start => exact .refl table txn db
  | pass _ inside passed ih => exact ih.pass known inside passed
  | append _ all ih => exact ih.append known all

private theorem Bounded.pages_le_cached (h : Bounded table txn db count mid) :
    table.pages mid.volume ≤ table.pages db.volume + 1 +
      (db.cachedFrom table (table.pages db.volume)).length := by
  have pages := h.pages_le
  have cached := h.cached_le
  omega

/-- The table grows by a page, and by one more for each cached page that was behind its end. -/
private theorem pages_insertWithin (known : db.Knows table) (txn : TxnId) (tuple : Tuple) (limit : Nat) :
    table.pages (db.insertWithin table txn tuple limit).2.volume ≤ table.pages db.volume + 1 +
      (db.cachedFrom table (table.pages db.volume)).length := by
  have ending := db.ending_insertWithin table txn tuple limit
  generalize (db.insertWithin table txn tuple limit).1 = result,
    (db.insertWithin table txn tuple limit).2 = after at ending ⊢
  cases ending with
  | conflict => omega
  | @found count mid _ _ search tried =>
    have volume := mid.volume_tryPage txn tuple (table.pageAt count)
    rw [tried] at volume
    exact volume ▸ (search.bounded known).pages_le_cached
  | @failed count mid _ _ search tried =>
    have volume := mid.volume_tryPage txn tuple (table.pageAt count)
    rw [tried] at volume
    exact volume ▸ (search.bounded known).pages_le_cached
  | spent search => exact (search.bounded known).pages_le_cached

/-- An insertion is given up only where it has passed over as many pages as its limit allows for. -/
private theorem spent_of_endless {limit : Nat} (endless : endless (db.insertWithin table txn tuple limit).1) :
    ∃ count mid, Search table txn tuple db count mid ∧
      min (table.pages db.volume + limit) 4294967296 ≤ count := by
  have ending := db.ending_insertWithin table txn tuple limit
  generalize (db.insertWithin table txn tuple limit).1 = result,
    (db.insertWithin table txn tuple limit).2 = after at ending endless
  cases ending with
  | conflict => cases endless
  | found => cases endless
  | @failed count mid _ fault search tried =>
    rcases @tryPage_cases mid txn tuple (table.pageAt count) with
      ⟨cause, failed, other⟩ | ⟨record, done⟩ | ⟨passed, -⟩
    · rw [tried] at failed
      cases failed
      cases fault with
      | pageFull full => exact absurd rfl (other full)
      | _ => cases endless
    · rw [tried] at done
      cases done
    · rw [tried] at passed
      cases passed
  | spent search far => exact ⟨_, _, search, far⟩

/-- An insertion comes to an end within as many pages as there are cached pages behind the end of the
table, and one more, unless page numbers run out. -/
private theorem not_endless_insertWithin (known : db.Knows table)
    (room : table.pages db.volume + (db.cachedFrom table (table.pages db.volume)).length < 4294967296)
    {limit : Nat} (enough : (db.cachedFrom table (table.pages db.volume)).length < limit) :
    ¬ endless (db.insertWithin table txn tuple limit).1 := by
  intro endless
  obtain ⟨count, mid, search, far⟩ := spent_of_endless endless
  have near := (search.bounded known).cached_le
  omega

private theorem tryAppended_of_not_endless {position rounds more : Nat} (le : rounds ≤ more)
    (ends : ¬ endless (db.tryAppended table txn tuple position rounds).1) :
    db.tryAppended table txn tuple position more = db.tryAppended table txn tuple position rounds := by
  induction rounds generalizing db position more with
  | zero => exact absurd rfl ends
  | succ rounds ih =>
    obtain ⟨more, rfl⟩ := Nat.exists_eq_add_of_le' (Nat.lt_of_lt_of_le (Nat.succ_pos rounds) le)
    simp only [tryAppended] at ends ⊢
    generalize (db.appendPage table).2 = added at ends ⊢
    cases tried : added.tryPages table txn tuple position (table.pages added.volume - position) with
    | mk first mid =>
      rw [tried] at ends
      rcases first with fault | (_ | record)
      · rfl
      · exact ih (Nat.le_of_succ_le_succ le) ends
      · rfl

private theorem insertWithin_of_not_endless {limit more : Nat} (le : limit ≤ more)
    (ends : ¬ endless (db.insertWithin table txn tuple limit).1) :
    db.insertWithin table txn tuple more = db.insertWithin table txn tuple limit := by
  rw [insertWithin] at ends
  rw [insertWithin, insertWithin]
  split
  · rename_i agrees
    rw [if_pos agrees] at ends
    simp only at ends ⊢
    cases tried : db.tryPages table txn tuple 0 (table.pages db.volume) with
    | mk first mid =>
      rw [tried] at ends
      rcases first with fault | (_ | record)
      · rfl
      · exact tryAppended_of_not_endless le ends
      · rfl
  · rfl

/-- Up to where a search has come, each page of the table was tried in turn and found full. -/
private theorem Search.passed (search : Search table txn tuple db count mid) {position : Nat}
    (behind : position < count) : ∃ before after, Search table txn tuple db position before ∧
      before.tryPage txn tuple (table.pageAt position) = (.ok none, after) := by
  induction search with
  | start => exact absurd behind (Nat.not_lt_zero position)
  | @pass count _ _ earlier _ passed ih =>
    rcases Nat.lt_succ_iff_lt_or_eq.mp behind with before | rfl
    · exact ih before
    · exact ⟨_, _, earlier, passed⟩
  | append _ _ ih => exact ih behind

end Growth

/-- Whatever is in the cache and in the files, also where a table was cut short while pages behind its new
end stay cached, an insertion adds a page at most to a known table, and one more for each of those pages.
It comes to an end, and would do so just the same if it were not allowed any page more than that, unless
the table has taken all page numbers and all of its pages are full. -/
theorem insertion_growth {db : Database} {table : Table} (known : db.Knows table) (txn : TxnId)
    (tuple : Tuple) :
    table.pages (db.insertInto table txn tuple).2.volume ≤
      table.pages db.volume + 1 + (db.cachedFrom table (table.pages db.volume)).length ∧
    (table.pages db.volume + (db.cachedFrom table (table.pages db.volume)).length < 4294967296 →
      ¬ endless (db.insertInto table txn tuple).1 ∧
      ∀ limit, (db.cachedFrom table (table.pages db.volume)).length < limit →
        db.insertWithin table txn tuple limit = db.insertInto table txn tuple) ∧
    (endless (db.insertInto table txn tuple).1 → ∀ number < 4294967296, ∃ before after,
      Search table txn tuple db number before ∧
      before.tryPage txn tuple ⟨table.id, number⟩ = (.ok none, after)) := by
  obtain ⟨limit, large, same⟩ := db.insertInto_eq_insertWithin table txn tuple
  have enough := Nat.lt_of_le_of_lt (db.length_cachedFrom_le table (table.pages db.volume)) large
  rw [same]
  refine ⟨pages_insertWithin known txn tuple limit, fun room => ?_, fun endless number small => ?_⟩
  · refine ⟨not_endless_insertWithin known room enough, fun other enough' => ?_⟩
    have least := @not_endless_insertWithin table txn tuple db known room _ (Nat.lt_succ_self _)
    rw [insertWithin_of_not_endless enough' least, insertWithin_of_not_endless enough least]
  · obtain ⟨count, mid, search, far⟩ := spent_of_endless endless
    have near := (search.bounded known).cached_le
    have found := search.passed (show number < count by omega)
    rwa [Table.pageAt, pageNumber_of_lt small] at found

/-- Into a table that has used up the page numbers, all of whose pages are full and none of whose pages is
cached, an insertion adds pages for ever. -/
theorem insertion_never_ends : (overMarks allMarks).Knows marksTable ∧
    marksTable.pages (overMarks allMarks).volume = 4294967296 ∧
    (overMarks allMarks).cachedFrom marksTable 4294967296 = [] ∧
    ¬ ∃ limit, ¬ endless ((overMarks allMarks).insertWithin marksTable 1 mark limit).1 := by
  have used : marksTable.pages (overMarks allMarks).volume = 4294967296 :=
    (pages_overMarks allMarks).trans length_allMarks
  refine ⟨knows_overMarks allMarks, used, List.eq_nil_iff_forall_not_mem.mpr fun page listed => ?_, ?_⟩
  · obtain ⟨frame, cached⟩ := Cache.exists_frame_of_mem (mem_cachedFrom.mp listed).1
    cases (uncached_overMarks allMarks page).symm.trans cached
  · rintro ⟨limit, ends⟩
    exact ends (crowded_allMarks.endless_insertWithin 1 mark rfl (Nat.le_of_eq used.symm) limit)

private theorem slotCount_slim_pos : 0 < Layout.slotCount 16 ⟨[⟨.int, none⟩]⟩ := by
  decide

private def slimTable : Table :=
  ⟨0, 0, ⟨[⟨.int, none⟩]⟩, 16, slotCount_slim_pos⟩

private def slimRow (number : Int32) : Tuple :=
  ⟨⟨[⟨.int, none⟩]⟩, [.int number], none⟩

/-- A database whose file of that table was emptied while the one page it had stays cached, and is full. -/
private def cutSample : Database :=
  let opened : Database := ⟨{ pageSize := 16 }, .empty, .empty, .empty, .empty 50, 1, 0⟩
  let created := (opened.createTable (.file 0) ⟨[⟨.int, none⟩]⟩ "numbers" "").2
  let filled := [7, 8, 9].foldl (fun db number => (db.insert 1 0 (slimRow number)).2) created
  { (filled.commit 1).2 with volume := .empty }

/-- The table gets two pages, of which the second has the number. -/
theorem insertion_growth_cut : cutSample.Knows slimTable ∧ slimTable.pages cutSample.volume = 0 ∧
    cutSample.cachedFrom slimTable 0 = [⟨0, 0⟩] ∧
    (cutSample.insertInto slimTable 2 (slimRow 10)).1 = .ok ⟨⟨0, 1⟩, 0⟩ ∧
    slimTable.pages (cutSample.insertInto slimTable 2 (slimRow 10)).2.volume = 2 ∧
    cutSample.insertWithin slimTable 2 (slimRow 10) 2 = cutSample.insertInto slimTable 2 (slimRow 10) := by
  have known : cutSample.Knows slimTable := show cutSample.catalog.table 0 = .ok slimTable by decide +kernel
  have empty : slimTable.pages cutSample.volume = 0 := by decide +kernel
  have one : cutSample.cachedFrom slimTable 0 = [⟨0, 0⟩] := by decide +kernel
  obtain ⟨bound, ends, -⟩ := insertion_growth known 2 (slimRow 10)
  rw [empty, one] at ends
  exact ⟨known, empty, one, by decide +kernel, by decide +kernel, (ends (by decide)).2 2 (by decide)⟩

end PagedStore.Database
