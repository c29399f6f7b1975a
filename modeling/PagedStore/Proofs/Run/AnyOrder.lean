import PagedStore.Proofs.Database.Turns
import PagedStore.Proofs.Run.Completion

/-! The pages that a transaction has changed may be visited in any order at its end. -/
namespace PagedStore.Database

/-- The pages that a transaction has changed are ready to be visited, if their files have them. -/
private theorem Sound.ready {db : Database} (sound : db.Sound) {txn : TxnId}
    (onDisk : ∀ page ∈ db.cache.dirtyPagesOf txn, db.OnDisk page) : db.Ready (db.cache.dirtyPagesOf txn) where
  filed := sound.filed
  keyed := sound.keyed
  distinct := db.cache.nodup_dirtyPagesOf txn
  cached page mem := by
    obtain ⟨frame, held, -⟩ := Cache.mem_dirtyPagesOf.mp mem
    exact Cache.mem_frames_of_eq held
  onDisk := onDisk

section Ending
variable {db : Database} {pages order : List PageId} (ready : db.Ready pages) (listed : order.Perm pages)
  (txn : TxnId) (commit : Bool)
include ready

private theorem order_completeIn : (db.completeIn txn commit pages).2.cache.recency.order =
    db.cache.recency.order.diff pages ++ pages.filter fun page => (db.turn commit page).content.isSome := by
  rw [← ready.order_visit commit, completeIn, visit_eq]

private theorem completeIn_eq_ok_iff : (db.completeIn txn commit pages).1 = .ok () ↔
    ∀ page ∈ pages, (db.turn commit page).content.isSome := by
  rw [← (ready.visit_all commit).2, completeIn, visit_eq]

include listed

private theorem unordered_completeIn :
    (db.completeIn txn commit order).2.unordered = (db.completeIn txn commit pages).2.unordered := by
  simp only [completeIn, visit_eq]
  exact congrArg (fun db => { db with locks := db.locks.forget txn }) (ready.visit_perm commit listed)

end Ending

/-- Where the files have all pages that a transaction has changed, it does not matter in which order they are
visited at its end: it succeeds or fails, and leaves the same files, tables and locks and the same cached
pages. Only those of the visited pages that stay in the cache are next to leave in the order of the visits,
after all others. -/
theorem ends_alike {settings : Settings} {volume : Volume} {start db : Database}
    {trace : List (Action × Reply)} (opened : ofVolume settings volume = .ok start)
    (run : Run (fun _ _ _ => True) start trace db) (txn : TxnId) (commit : Bool)
    (onDisk : ∀ page ∈ db.cache.dirtyPagesOf txn, db.OnDisk page) {order order' : List PageId}
    (listed : order.Perm (db.cache.dirtyPagesOf txn)) (listed' : order'.Perm (db.cache.dirtyPagesOf txn)) :
    ((db.completeIn txn commit order).1 = .ok () ↔ (db.completeIn txn commit order').1 = .ok ()) ∧
      (db.completeIn txn commit order).2.unordered = (db.completeIn txn commit order').2.unordered ∧
      ∃ (others : List PageId) (kept : PageId → Bool),
        (db.completeIn txn commit order).2.cache.recency.order = others ++ order.filter kept ∧
        (db.completeIn txn commit order').2.cache.recency.order = others ++ order'.filter kept := by
  have ready := (run.sound (sound_ofVolume opened)).ready onDisk
  have first := ready.perm listed
  have second := ready.perm listed'
  have same := listed.trans listed'.symm
  refine ⟨?_, unordered_completeIn second same txn commit, _, _, order_completeIn first txn commit, ?_⟩
  · rw [completeIn_eq_ok_iff first, completeIn_eq_ok_iff second]
    exact forall_congr' fun page => by rw [same.mem_iff]
  · rw [same.diff_left]
    exact order_completeIn second txn commit

/-- Of three changed pages the first one cannot be written any more, since its table is known with pages of
another size then. Whether it comes first or last, the other two are written. -/
theorem ends_alike_partly : ∃ start trace db,
    ofVolume { pageSize := 16 } .empty = .ok start ∧ Run (fun _ _ _ => True) start trace db ∧
      db.cache.dirtyPagesOf 1 = [⟨0, 0⟩, ⟨1, 0⟩, ⟨2, 0⟩] ∧
      (∀ page ∈ db.cache.dirtyPagesOf 1, db.OnDisk page) ∧
      (db.completeIn 1 true [⟨0, 0⟩, ⟨1, 0⟩, ⟨2, 0⟩]).1 ≠ .ok () ∧
      (db.completeIn 1 true [⟨0, 0⟩, ⟨1, 0⟩, ⟨2, 0⟩]).2.cache.pageIds = [⟨1, 0⟩, ⟨2, 0⟩] ∧
      (db.completeIn 1 true [⟨2, 0⟩, ⟨1, 0⟩, ⟨0, 0⟩]).2.cache.pageIds = [⟨2, 0⟩, ⟨1, 0⟩] ∧
      (db.completeIn 1 true [⟨0, 0⟩, ⟨1, 0⟩, ⟨2, 0⟩]).2.unordered =
        (db.completeIn 1 true [⟨2, 0⟩, ⟨1, 0⟩, ⟨0, 0⟩]).2.unordered := by
  have opened : ofVolume { pageSize := 16 } .empty =
    .ok ⟨{ pageSize := 16 }, .empty, .empty, .empty, .empty 50, 1, 0⟩ := rfl
  have run := (((((((Run.start : Run (fun _ _ _ => True) _ [] ⟨{ pageSize := 16 }, .empty, .empty, .empty,
    .empty 50, 1, 0⟩).next (.attachTable (.file 0) ⟨[⟨.int, none⟩]⟩ 16 "a" "") trivial trivial).next
      (.attachTable (.file 1) ⟨[⟨.int, none⟩]⟩ 16 "b" "") trivial trivial).next
      (.attachTable (.file 2) ⟨[⟨.int, none⟩]⟩ 16 "c" "") trivial trivial).next
      (.insert 1 0 ⟨⟨[⟨.int, none⟩]⟩, [.int 7], none⟩) rfl trivial).next
      (.insert 1 1 ⟨⟨[⟨.int, none⟩]⟩, [.int 8], none⟩) rfl trivial).next
      (.insert 1 2 ⟨⟨[⟨.int, none⟩]⟩, [.int 9], none⟩) rfl trivial).next
      (.attachTable (.file 0) ⟨[⟨.int, none⟩]⟩ 8 "a" "") trivial trivial
  refine ⟨_, _, _, opened, run, ?changed, ?onDisk, ?failed, ?left, ?left',
    (ends_alike opened run 1 true ?onDisk ?listed ?listed').2.1⟩
  all_goals decide +kernel

end PagedStore.Database
