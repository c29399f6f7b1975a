import PagedStore.Proofs.Database.Twin

/-! Insertions and deletions in twins: they find the same place, or fail alike. -/
namespace PagedStore.Database

private theorem tryPage_eq (db : Database) (txn : TxnId) (tuple : Tuple) (page : PageId) :
    db.tryPage txn tuple page = andThen (db.fetch txn page .write) fun frame mid =>
      if frame.page.freeCount = 0 then
        (.ok none, if db.locks.holds txn page then mid else mid.releasePage txn page)
      else andThen (frame.page.insert tuple, mid) fun outcome mid =>
        (.ok (some outcome.1), mid.replaced page outcome.2 txn) := by
  rw [tryPage]
  rcases db.fetch txn page .write with ⟨_ | frame, mid⟩
  · rfl
  · simp only [andThen]
    split
    · rfl
    · cases frame.page.insert tuple <;> rfl

private theorem tryPages_succ (db : Database) (table : Table) (txn : TxnId) (tuple : Tuple)
    (position left : Nat) : db.tryPages table txn tuple position (left + 1) =
      andThen (db.tryPage txn tuple (table.pageAt position)) fun found mid =>
        match found with
        | none => mid.tryPages table txn tuple (position + 1) left
        | some record => (.ok (some record), mid) := by
  rw [tryPages]
  rcases db.tryPage txn tuple (table.pageAt position) with ⟨_ | _ | _, _⟩ <;> rfl

private theorem knows_of_tryPages {db mid : Database} (keyed : db.cache.Keyed) {table : Table}
    (known : db.Knows table) {txn : TxnId} {tuple : Tuple} {position left : Nat}
    {result : Except Fault (Option RecordId)}
    (tried : db.tryPages table txn tuple position left = (result, mid)) :
    mid.Knows table ∧ table.pages mid.volume = table.pages db.volume := by
  obtain ⟨last, way, edit⟩ := attempt_tryPages (fun _ _ => False) txn tuple keyed table position left
  rw [tried] at edit
  have same : mid.volume = db.volume ∧ mid.catalog = db.catalog := by
    split at edit
    · rw [show mid = last from edit]
      exact ⟨way.volume_eq, way.catalog_eq⟩
    · exact ⟨edit.volume.trans way.volume_eq, edit.catalog.trans way.catalog_eq⟩
  exact ⟨by rwa [Knows, same.2], congrArg table.pages same.1⟩

private theorem tryAppended_succ (db : Database) (table : Table) (txn : TxnId) (tuple : Tuple)
    (position limit : Nat) : db.tryAppended table txn tuple position (limit + 1) =
      andThen ((db.appendPage table).2.tryPages table txn tuple position
          (table.pages (db.appendPage table).2.volume - position)) fun found mid =>
        match found with
        | none => mid.tryAppended table txn tuple (table.pages (db.appendPage table).2.volume) limit
        | some record => (.ok record, mid) := by
  simp only [tryAppended, andThen]
  rcases (db.appendPage table).2.tryPages table txn tuple position _ with ⟨_ | _ | _, _⟩ <;> rfl

private theorem insertInto_andThen (db : Database) (table : Table) (txn : TxnId) (tuple : Tuple) :
    db.insertInto table txn tuple = if tuple.schema.agrees table.schema then
      andThen (db.tryPages table txn tuple 0 (table.pages db.volume)) fun found mid =>
        match found with
        | none => mid.tryAppended table txn tuple (table.pages db.volume) (mid.appendLimit table)
        | some record => (.ok record, mid)
      else (.error (.schemaConflict table.id), db) := by
  simp only [insertInto_eq, andThen]
  split
  · rcases db.tryPages table txn tuple 0 (table.pages db.volume) with ⟨_ | _ | _, _⟩ <;> rfl
  · rfl

private theorem insert_andThen {db : Database} (keyed : db.cache.Keyed) (txn : TxnId) (id : TableId)
    (tuple : Tuple) :
    db.insert txn id tuple = andThen (db.catalog.table id, db) fun table mid =>
      andThen (mid.insertInto table txn tuple) fun record mid =>
        (.ok record, { mid with cache := (mid.cache.access record.page).pin record.page }) := by
  rw [insert_eq txn tuple keyed]
  cases db.catalog.table id with
  | error fault => rfl
  | ok table =>
    simp only [andThen]
    rcases db.insertInto table txn tuple with ⟨_ | _, _⟩ <;> rfl

private theorem not_endless_of_andThen {outcome : Except Fault RecordId × Database}
    {next : RecordId → Database → Except Fault RecordId × Database}
    (ends : ¬ endless (andThen outcome next).1) : ¬ endless outcome.1 := by
  obtain ⟨result, mid⟩ := outcome
  cases result with
  | error fault => exact ends
  | ok record => exact Bool.false_ne_true

private theorem deleteFrom_andThen (db : Database) (table : Table) (txn : TxnId) (record : RecordId) :
    db.deleteFrom table txn (some record) =
      if record.page.table = table.id ∧ record.page.number < table.pages db.volume then
        andThen (db.fetch txn record.page .write) fun frame mid =>
          andThen (frame.page.delete (some record), mid) fun content mid =>
            (.ok record, mid.replaced record.page content txn)
      else (.error (.noSuchRecord (some record)), db) := by
  rw [deleteFrom_some]
  split
  · rcases db.fetch txn record.page .write with ⟨_ | frame, mid⟩
    · rfl
    · simp only [andThen]
      cases frame.page.delete (some record) <;> rfl
  · rfl

private theorem delete_andThen {db : Database} (keyed : db.cache.Keyed) (txn : TxnId) (record : RecordId) :
    db.delete txn (some record) = andThen (db.catalog.table record.page.table, db) fun table mid =>
      andThen (mid.deleteFrom table txn (some record)) fun deleted mid =>
        (.ok deleted, { mid with cache := (mid.cache.access deleted.page).pin deleted.page }) := by
  rw [delete_some db txn keyed]
  cases db.catalog.table record.page.table with
  | error fault => rfl
  | ok table =>
    simp only [andThen]
    rcases db.deleteFrom table txn (some record) with ⟨_ | _, _⟩ <;> rfl

namespace Twins
variable {db db' : Database} (h : Twins db db') (txn : TxnId)
include h

private theorem pin (page : PageId) : Twins { db with cache := (db.cache.access page).pin page }
    { db' with cache := (db'.cache.access page).pin page } :=
  ⟨⟨h.sound.keyed, h.sound.filed, h.sound.locks⟩, ⟨h.sound'.keyed, h.sound'.filed, h.sound'.locks⟩,
    h.policy, h.catalog, h.locks, h.nextTxn, h.content, h.changed, h.echoes, h.echoes'⟩

/-- A page that is cached in both is replaced in both, if its new contents are found alike. -/
private theorem put {α β γ : Type} {page : PageId} {frame frame' : Frame}
    (cached : db.cache.frames[page]? = some frame) (cached' : db'.cache.frames[page]? = some frame')
    {see : α → β} {answer : α → γ} {content : α → Page} {result result' : Except Fault α}
    (same : result'.map see = result.map see)
    (seen : ∀ {a a'}, see a' = see a →
      answer a' = answer a ∧ (content a').nameless = (content a).nameless)
    (own : ∀ {a}, result = .ok a → (content a).id = page) :
    Matches id
      (andThen (result, db) fun a mid => (.ok (answer a), mid.replaced page (content a) txn))
      (andThen (result', db') fun a mid => (.ok (answer a), mid.replaced page (content a) txn)) := by
  have found : Matches see (result, db) (result', db') := fun _ _ => ⟨same, h⟩
  refine found.andThen fun {a a' _ _} done done' alike twins => ?_
  obtain ⟨given, rfl⟩ := Prod.mk.inj done
  obtain ⟨-, rfl⟩ := Prod.mk.inj done'
  obtain ⟨told, contents⟩ := seen alike
  rw [told]
  exact .of_twins (twins.replaced cached cached' (own given) contents) _

section Insertion
variable (tuple : Tuple)

private theorem tryPage (page : PageId) :
    Matches id (db.tryPage txn tuple page) (db'.tryPage txn tuple page) := by
  rw [tryPage_eq, tryPage_eq]
  refine (h.fetch txn page .write).andThen fun {frame frame' mid mid'} fetched fetched' same twins => ?_
  rw [Page.freeCount_congr same, h.locks]
  split
  · split
    · exact .of_twins twins _
    · exact .of_twins (twins.release page) _
  · have cached := (fetch_eq_ok fetched).1
    refine twins.put txn cached (fetch_eq_ok fetched').1 (Page.insert_congr same tuple)
      (fun alike => ?_) fun inserted => ?_
    · obtain ⟨record, content⟩ := Prod.mk.inj alike
      exact ⟨congrArg some record, content⟩
    · rw [(Page.insert_eq_ok inserted).2]
      exact twins.sound.keyed cached

private theorem tryPages (table : Table) (position left : Nat) :
    Matches id (db.tryPages table txn tuple position left)
      (db'.tryPages table txn tuple position left) := by
  induction left generalizing db db' position with
  | zero => exact .of_twins h _
  | succ left ih =>
    rw [tryPages_succ, tryPages_succ]
    refine (h.tryPage txn tuple _).andThen fun {found found' mid mid'} _ _ same twins => ?_
    obtain rfl : found' = found := same
    cases found' with
    | none => exact ih twins (position + 1)
    | some record => exact .of_twins twins _

private theorem append {table : Table} (known : db.Knows table) (room : table.pages db.volume < 4294967296) :
    Twins (db.appendPage table).2 (db'.appendPage table).2 := by
  refine h.quiet (quiet_append ⟨known, room⟩ 0)
    (quiet_append ⟨h.knows_iff.mpr known, (h.pages_eq table).symm ▸ room⟩ 0) h.locks h.nextTxn
    fun file => ?_
  by_cases own : file = table.id
  · simp only [appendPage, Table.append, Volume.content_put, own, if_true, Table.file, h.content]
  · exact (table.content_append _ own).trans ((h.content file).trans (table.content_append _ own).symm)

private theorem tryAppended {table : Table} (known : db.Knows table) {limit limit' : Nat}
    (ends : ¬ endless (db.tryAppended table txn tuple (table.pages db.volume) limit).1)
    (ends' : ¬ endless (db'.tryAppended table txn tuple (table.pages db.volume) limit').1) :
    Matches id (db.tryAppended table txn tuple (table.pages db.volume) limit)
      (db'.tryAppended table txn tuple (table.pages db.volume) limit') := by
  induction limit generalizing db db' limit' with
  | zero => exact absurd rfl ends
  | succ limit ih =>
    cases limit' with
    | zero => exact absurd rfl ends'
    | succ limit' =>
      have room : table.pages db.volume < 4294967296 := by
        refine Nat.not_le.mp fun full => ends ?_
        exact endless_tryAppended txn tuple full (limit + 1)
      have added := h.append known room
      rw [tryAppended_succ] at ends ends'
      rw [tryAppended_succ, tryAppended_succ]
      rw [added.pages_eq] at ends' ⊢
      refine (added.tryPages txn tuple table _ _).andThen
        fun {found found' mid mid'} tried tried' same twins => ?_
      obtain rfl : found' = found := same
      cases found' with
      | some record => exact .of_twins twins _
      | none =>
        obtain ⟨known, pages⟩ := knows_of_tryPages added.sound.keyed known tried
        rw [tried, ← pages] at ends
        rw [tried', ← pages] at ends'
        rw [← pages]
        exact ih twins known ends ends'

private theorem insertInto {table : Table} (known : db.Knows table)
    (ends : ¬ endless (db.insertInto table txn tuple).1)
    (ends' : ¬ endless (db'.insertInto table txn tuple).1) :
    Matches id (db.insertInto table txn tuple) (db'.insertInto table txn tuple) := by
  rw [insertInto_andThen] at ends ends'
  rw [insertInto_andThen, insertInto_andThen]
  rw [h.pages_eq] at ends' ⊢
  by_cases agrees : tuple.schema.agrees table.schema
  · rw [if_pos agrees] at ends ends'
    rw [if_pos agrees, if_pos agrees]
    refine (h.tryPages txn tuple table _ _).andThen
      fun {found found' mid mid'} tried tried' same twins => ?_
    obtain rfl : found' = found := same
    cases found' with
    | some record => exact .of_twins twins _
    | none =>
      obtain ⟨known, pages⟩ := knows_of_tryPages h.sound.keyed known tried
      rw [tried, ← pages] at ends
      rw [tried', ← pages] at ends'
      rw [← pages]
      exact twins.tryAppended txn tuple known ends ends'
  · rw [if_neg agrees, if_neg agrees]
    exact .of_twins h _

theorem insert (table : TableId) (ends : ¬ endless (db.insert txn table tuple).1)
    (ends' : ¬ endless (db'.insert txn table tuple).1) :
    Matches id (db.insert txn table tuple) (db'.insert txn table tuple) := by
  rw [insert_andThen h.sound.keyed] at ends
  rw [insert_andThen h.sound'.keyed] at ends'
  rw [insert_andThen h.sound.keyed, insert_andThen h.sound'.keyed]
  rw [h.catalog] at ends' ⊢
  have opened : Matches id (db.catalog.table table, db) (db.catalog.table table, db') := .of_twins h _
  refine opened.andThen fun {found found' mid mid'} looked looked' same twins => ?_
  obtain rfl : found' = found := same
  rw [looked] at ends
  rw [looked'] at ends'
  obtain ⟨known, rfl⟩ := Prod.mk.inj looked
  have known' : db.Knows found' := by rw [Knows, h.sound.filed known, known]
  refine (twins.insertInto txn tuple known' (not_endless_of_andThen ends)
    (not_endless_of_andThen ends')).andThen fun {record record' _ _} _ _ same twins => ?_
  obtain rfl : record' = record := same
  exact .of_twins (twins.pin record'.page) _

end Insertion

section Underway
variable {i : Insertion}

private theorem visitNext (roomy : ∀ result ∈ (db.visitNext i).1.result?, Roomy result)
    (roomy' : ∀ result ∈ (db'.visitNext i).1.result?, Roomy result) :
    (db'.visitNext i).1 = (db.visitNext i).1 ∧ Twins (db.visitNext i).2 (db'.visitNext i).2 := by
  cases asked : (db.locks.request i.txn i.page .exclusive).1 with
  | false =>
    have asked' : (db'.locks.request i.txn i.page .exclusive).1 = false := by rw [h.locks, asked]
    rw [visitNext_of_denied i asked, visitNext_of_denied i asked', h.locks]
    exact ⟨rfl, h.relock ((db.locks.onward_request i.txn i.page .exclusive).sound h.sound.locks)⟩
  | true =>
    have asked' : (db'.locks.request i.txn i.page .exclusive).1 = true := by rw [h.locks, asked]
    rw [visitNext_of_granted h.sound.keyed i asked] at roomy ⊢
    rw [visitNext_of_granted h.sound'.keyed i asked'] at roomy' ⊢
    have first : Roomy (db.tryPage i.txn i.tuple i.page).1 := by
      rcases he : db.tryPage i.txn i.tuple i.page with ⟨fault | found, mid⟩
      · rw [he] at roomy
        exact roomy_error_iff.mpr (roomy_error_iff.mp (roomy _ rfl))
      · exact roomy_ok found
    have first' : Roomy (db'.tryPage i.txn i.tuple i.page).1 := by
      rcases he : db'.tryPage i.txn i.tuple i.page with ⟨fault | found, mid⟩
      · rw [he] at roomy'
        exact roomy_error_iff.mpr (roomy_error_iff.mp (roomy' _ rfl))
      · exact roomy_ok found
    rcases (h.tryPage i.txn i.tuple i.page).cases first first' with
      ⟨fault, mid, mid', he, he', twins⟩ | ⟨found, found', mid, mid', he, he', same, twins⟩
    · rw [he, he']
      exact ⟨rfl, twins⟩
    · obtain rfl : found' = found := same
      rw [he, he']
      cases found' with
      | none => exact ⟨rfl, twins⟩
      | some record => exact ⟨rfl, twins.pin record.page⟩

theorem takeTurn (known : db.Knows i.table) (room : i.appends → i.table.pages db.volume < 4294967296)
    (roomy : ∀ result ∈ (db.takeTurn i).1.result?, Roomy result)
    (roomy' : ∀ result ∈ (db'.takeTurn i).1.result?, Roomy result) :
    (db'.takeTurn i).1 = (db.takeTurn i).1 ∧ Twins (db.takeTurn i).2 (db'.takeTurn i).2 := by
  rw [Database.takeTurn] at roomy roomy' ⊢
  rw [Database.takeTurn]
  cases counted : i.known with
  | none => exact ⟨by rw [h.pages_eq], h⟩
  | some pages =>
    simp only [counted] at roomy roomy' ⊢
    by_cases more : i.position < pages
    · simp only [if_pos more] at roomy roomy' ⊢
      exact h.visitNext roomy roomy'
    · simp only [if_neg more]
      refine ⟨trivial, h.append known (room (by simp [Insertion.appends, counted, Nat.le_of_not_lt more]))⟩

end Underway

section Deletion
variable (record : Option RecordId)

private theorem deleteFrom (table : Table) :
    Matches id (db.deleteFrom table txn record) (db'.deleteFrom table txn record) := by
  cases record with
  | none => exact .of_twins h _
  | some record =>
    rw [deleteFrom_andThen, deleteFrom_andThen, h.pages_eq]
    split
    · refine (h.fetch txn record.page .write).andThen
        fun {frame frame' mid mid'} fetched fetched' same twins => ?_
      have cached := (fetch_eq_ok fetched).1
      refine twins.put txn cached (fetch_eq_ok fetched').1 (Page.delete_congr same (some record))
        (fun alike => ⟨rfl, alike⟩) fun deleted => ?_
      rw [(Page.delete_eq_ok deleted).2]
      exact twins.sound.keyed cached
    · exact .of_twins h _

theorem delete : Matches id (db.delete txn record) (db'.delete txn record) := by
  cases record with
  | none => exact .of_twins h _
  | some record =>
    rw [delete_andThen h.sound.keyed, delete_andThen h.sound'.keyed, h.catalog]
    have opened : Matches id (db.catalog.table record.page.table, db)
      (db.catalog.table record.page.table, db') := .of_twins h _
    refine opened.andThen fun {found found' mid mid'} _ _ same twins => ?_
    obtain rfl : found' = found := same
    refine (twins.deleteFrom txn (some record) found').andThen
      fun {deleted deleted' _ _} _ _ same twins => ?_
    obtain rfl : deleted' = deleted := same
    exact .of_twins (twins.pin deleted'.page) _

end Deletion

end Twins

end PagedStore.Database
