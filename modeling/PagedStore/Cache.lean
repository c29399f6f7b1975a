import PagedStore.Cache.Recency
import PagedStore.Page

/-!
A cache of a limited number of pages. Dirty pages are pinned and never leave to make room. Whoever
got a page keeps seeing that copy of it, also after the copy has left the cache.
-/
namespace PagedStore

/-- A copy of a page in memory. The serial number tells it from other copies of the page. -/
structure Frame where
  serial : Nat
  page : Page
deriving DecidableEq

/-- What a user of a page holds on to: a page and which copy of it. -/
structure Handle where
  page : PageId
  serial : Nat
deriving DecidableEq

/-- The cached copies, in which order they leave, and the copies outside the cache. -/
structure Cache where
  capacity : Nat
  frames : Std.ExtTreeMap PageId Frame
  recency : Recency
  loose : Std.ExtTreeMap Nat Page
  nextSerial : Nat

namespace Cache

def empty (capacity : Nat) : Cache :=
  ⟨capacity, ∅, .empty, ∅, 0⟩

def page? (c : Cache) (id : PageId) : Option Page :=
  c.frames[id]?.map Frame.page

def contains (c : Cache) (id : PageId) : Bool :=
  c.frames.contains id

def isClean (c : Cache) (id : PageId) : Bool :=
  (c.page? id).any fun page => !page.isDirty

/-- The cached pages: those that may leave, least recently used first, then the pinned ones. -/
def pageIds (c : Cache) : List PageId :=
  c.recency.order ++ c.frames.keys.filter (· ∈ c.recency.pinned)

def dirtyPagesOf (c : Cache) (txn : TxnId) : List PageId :=
  c.frames.keys.filter fun id => (c.page? id).any fun page => page.changedBy = some txn

def dirtyPages (c : Cache) : List PageId :=
  c.frames.keys.filter fun id => (c.page? id).any Page.isDirty

def access (c : Cache) (id : PageId) : Cache :=
  { c with recency := c.recency.access id }

def pin (c : Cache) (id : PageId) : Cache :=
  { c with recency := c.recency.pin id }

def unpin (c : Cache) (id : PageId) : Cache :=
  { c with recency := c.recency.unpin id }

def modify (c : Cache) (id : PageId) (change : Page → Page) : Cache :=
  { c with frames := c.frames.modify id fun frame => { frame with page := change frame.page } }

def drop (c : Cache) (id : PageId) : Cache :=
  match c.frames[id]? with
  | none => { c with recency := c.recency.forget id }
  | some frame =>
    { c with
      frames := c.frames.erase id
      recency := c.recency.forget id
      loose := c.loose.insert frame.serial frame.page }

/-- Takes the least recently used clean page out. Dirty pages passed over are pinned. -/
def evict (c : Cache) : Except Fault Unit × Cache :=
  let passed := c.recency.order.takeWhile fun id => !c.isClean id
  let c := passed.foldl pin c
  match c.recency.order with
  | [] => (.error (.allDirty c.frames.size), c)
  | id :: _ => (.ok (), c.drop id)

def insert (c : Cache) (page : Page) : Frame × Cache :=
  let frame : Frame := ⟨c.nextSerial, page⟩
  (frame, { c with
    frames := c.frames.insert page.id frame
    recency := c.recency.access page.id
    nextSerial := c.nextSerial + 1 })

def makeRoom (c : Cache) : Except Fault Unit × Cache :=
  if c.capacity ≤ c.frames.size then c.evict else (.ok (), c)

/-- Puts a page that is not cached into the cache, after making room if the cache is full. -/
def bringIn (c : Cache) (page : Page) : Except Fault Frame × Cache :=
  match c.makeRoom with
  | (.error fault, c) => (.error fault, c)
  | (.ok (), c) =>
    let (frame, c) := c.insert page
    (.ok frame, c)

def keepLoose (c : Cache) (page : Page) : Handle × Cache :=
  (⟨page.id, c.nextSerial⟩, { c with
    loose := c.loose.insert c.nextSerial page
    nextSerial := c.nextSerial + 1 })

def isCurrent (c : Cache) (h : Handle) : Bool :=
  c.frames[h.page]?.any fun frame => frame.serial = h.serial

def held? (c : Cache) (h : Handle) : Option Page :=
  if c.isCurrent h then c.page? h.page else c.loose[h.serial]?

def modifyHeld (c : Cache) (h : Handle) (change : Page → Page) : Cache :=
  if c.isCurrent h then c.modify h.page change
  else { c with loose := c.loose.modify h.serial change }

/-- Puts a copy that is held on to into the cache, in place of any other copy of its page. -/
def restore (c : Cache) (h : Handle) (page : Page) : Cache :=
  let loose := c.loose.erase h.serial
  { c with
    frames := c.frames.insert h.page ⟨h.serial, page⟩
    recency := c.recency.access h.page
    loose :=
      match c.frames[h.page]? with
      | none => loose
      | some other => loose.insert other.serial other.page }

/-- Marks a copy that is held on to as changed and keeps it in the cache. By then another copy of the page may be
cached, which it takes the place of, or none, so that there has to be room for it. -/
def keepChanged (c : Cache) (h : Handle) (txn : TxnId) : Except Fault Unit × Cache :=
  let c := c.modifyHeld h fun page => page.changed txn
  match c.held? h with
  | none => (.ok (), c)
  | some page =>
    if c.isCurrent h then (.ok (), (c.access h.page).pin h.page)
    else if c.contains h.page then (.ok (), (c.restore h page).pin h.page)
    else
      match c.makeRoom with
      | (.error fault, c) => (.error fault, c)
      | (.ok (), c) => (.ok (), (c.restore h page).pin h.page)

end Cache

end PagedStore
