import PagedStore.Proofs.Catalog
import PagedStore.Proofs.Database.Fetch

/-! Which faults getting a page can have. -/
namespace PagedStore

def Fault.ofReading : Fault → Bool
  | .unknownTable _ => true
  | .foreignPage _ _ => true
  | .beyondEnd _ _ => true
  | .shortRead _ _ _ => true
  | .badImage _ _ => true
  | _ => false

def Fault.noRoom : Fault → Bool
  | .allDirty _ => true
  | _ => false

/-- The faults of fetching a page: the lock is denied, the page cannot be read, or there is no room
for it. -/
def Fault.ofFetching (fault : Fault) : Bool :=
  fault.abortsTransaction || fault.ofReading || fault.noRoom

namespace Page

private theorem ofReading_of_readSlots {id : PageId} {schema : Schema} {bytes : Nat → List UInt8}
    {marks : List Bool} {fault : Fault} (failed : readSlots id schema bytes marks = .error fault) :
    fault.ofReading := by
  obtain ⟨-, ⟨used, slot⟩, -, failed, -⟩ := mapM_eq_error_iff.mp failed
  simp only [readSlot] at failed
  split at failed
  · split at failed
    · cases failed
      rfl
    · cases failed
  · cases failed

private theorem ofReading_of_ofImage {id : PageId} {schema : Schema} {image : List UInt8} {fault : Fault}
    (failed : ofImage id schema image = .error fault) : fault.ofReading := by
  rw [ofImage] at failed
  simp only at failed
  split at failed
  · cases failed
    rfl
  · split at failed
    · rename_i slots
      cases failed
      exact ofReading_of_readSlots slots
    · cases failed

end Page

namespace Database
variable {db : Database} {page : PageId} {fault : Fault}

theorem ofReading_of_load (failed : db.load page = .error fault) : fault.ofReading := by
  rw [load] at failed
  cases known : db.catalog.table page.table with
  | error cause =>
    rw [known] at failed
    cases failed
    rw [Catalog.table_eq_error known]
    rfl
  | ok table =>
    rw [known] at failed
    simp only at failed
    by_cases own : page.table = table.id
    · rw [table.load_eq _ own] at failed
      split at failed
      · exact Page.ofReading_of_ofImage failed
      · cases failed
        rfl
    · rw [Table.load, if_neg own] at failed
      cases failed
      rfl

theorem ofFetching_of_fetch {txn : TxnId} {access : Access}
    (failed : (db.fetch txn page access).1 = .error fault) : fault.ofFetching := by
  rcases db.fetch_cases txn page access with
    ⟨-, cause, aborts, he⟩ | ⟨-, ⟨frame, -, he⟩ | ⟨-, ⟨cause, unread, he⟩ | ⟨content, -, he⟩⟩⟩
  · rw [he] at failed
    cases failed
    simp [Fault.ofFetching, aborts]
  · rw [he] at failed
    cases failed
  · rw [he] at failed
    cases failed
    simp [Fault.ofFetching, ofReading_of_load unread]
  · rw [he] at failed
    rcases db.cache.bringIn_cases content with ⟨full, -⟩ | ⟨frame, brought, -⟩
    · rw [full] at failed
      cases failed
      rfl
    · rw [brought] at failed
      cases failed

end Database

end PagedStore
