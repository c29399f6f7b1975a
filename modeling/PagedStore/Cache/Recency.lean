import PagedStore.Identity

/-!
Which pages may leave a cache, and in which order. Pinned pages may not; the others leave least
recently used first.
-/
namespace PagedStore

/-- The pages that may leave, least recently used first, and those that may not. -/
structure Recency where
  order : List PageId
  pinned : Std.ExtTreeSet PageId

namespace Recency

def empty : Recency :=
  ⟨[], ∅⟩

def touch (r : Recency) (page : PageId) : Recency :=
  { r with order := r.order.erase page ++ [page] }

def access (r : Recency) (page : PageId) : Recency :=
  if page ∈ r.pinned then r else r.touch page

def pin (r : Recency) (page : PageId) : Recency :=
  ⟨r.order.erase page, r.pinned.insert page⟩

def unpin (r : Recency) (page : PageId) : Recency :=
  { r with pinned := r.pinned.erase page }.touch page

def forget (r : Recency) (page : PageId) : Recency :=
  ⟨r.order.erase page, r.pinned.erase page⟩

def victim (r : Recency) : Option PageId × Recency :=
  match r.order with
  | [] => (none, r)
  | page :: rest => (some page, { r with order := rest })

end Recency

end PagedStore
