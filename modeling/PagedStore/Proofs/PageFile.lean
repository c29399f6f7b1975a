import PagedStore.PageFile

/-! Files as rows of pages: which pages a file has, and what reading, writing and adding a page come to. -/
namespace PagedStore

/-- Page numbers begin again after this many. -/
theorem pageNumber_of_lt {position : Nat} (h : position < 4294967296) :
    pageNumber position = position :=
  Nat.mod_eq_of_lt h

theorem Content.getElem?_read (c : Content) (offset count i : Nat) :
    (c.read offset count)[i]? =
      if i < min count (c.length - offset) then some (c.byte (offset + i)) else none := by
  rw [read, List.getElem?_map]
  split
  · rename_i inside
    rw [List.getElem?_range' inside, Nat.one_mul]
    rfl
  · rw [List.getElem?_eq_none (by rw [List.length_range']; omega)]
    rfl

/-- Bytes put over two parts of a content that do not overlap may be put in either order. -/
theorem Content.overwrite_comm (c : Content) {offset offset' : Nat} {bytes bytes' : List UInt8}
    (apart : offset + bytes.length ≤ offset' ∨ offset' + bytes'.length ≤ offset) :
    (c.overwrite offset bytes).overwrite offset' bytes' =
      (c.overwrite offset' bytes').overwrite offset bytes := by
  refine Content.ext ?_ fun position => ?_
  · simp only [length_overwrite]
    grind
  · simp only [byte_overwrite]
    grind

namespace PageFile
variable (f : PageFile)

def image? (number : Nat) : Option (List UInt8) :=
  if number < f.pages then some (f.content.read (f.offset number) f.pageSize) else none

/-- A file has the pages that lie within it. -/
theorem lt_pages_iff {number : Nat} :
    number < f.pages ↔ f.offset number + f.pageSize ≤ f.content.length := by
  rw [pages, offset, ← Nat.succ_le_iff, Nat.le_div_iff_mul_le f.pageSize_pos, Nat.succ_mul]

private theorem contains_iff {number : Nat} : f.contains number = true ↔ number < f.pages := by
  rw [lt_pages_iff, contains, decide_eq_true_iff]

/-- What is left over behind the pages is no page. -/
theorem length_lt_offset_pages : f.content.length < f.offset f.pages + f.pageSize :=
  Nat.not_le.mp fun whole => Nat.lt_irrefl _ (f.lt_pages_iff.mpr whole)

private theorem image?_eq_some_iff {number : Nat} {image : List UInt8} : f.image? number = some image ↔
    number < f.pages ∧ image.length = f.pageSize ∧
      ∀ i < f.pageSize, image[i]? = some (f.content.byte (number * f.pageSize + i)) := by
  rw [image?]
  by_cases inside : number < f.pages
  · have room := f.lt_pages_iff.mp inside
    rw [if_pos inside, and_iff_right inside, Option.some.injEq]
    constructor
    · rintro rfl
      refine ⟨by rw [Content.length_read]; omega, fun i here => ?_⟩
      rw [Content.getElem?_read, if_pos (by omega)]
      rfl
    · rintro ⟨long, bytes⟩
      apply List.ext_getElem?
      intro i
      rw [Content.getElem?_read]
      by_cases here : i < f.pageSize
      · rw [if_pos (by omega), bytes i here]
        rfl
      · rw [if_neg (by omega), List.getElem?_eq_none (by omega)]
  · simp [inside]

/-- Reading takes a page that the file has and room for all of it. -/
theorem read_eq (page : PageId) (length : Nat) : f.read page length =
    if page.number < f.pages then
      if length < f.pageSize then .error (.shortRead page length f.pageSize)
      else .ok (f.content.read (f.offset page.number) length)
    else .error (.beyondEnd page f.pages) := by
  rw [read]
  by_cases inside : page.number < f.pages
  · have room := f.lt_pages_iff.mp inside
    rw [if_pos (f.contains_iff.mpr inside), if_pos inside]
    simp only [Content.length_read]
    by_cases short : length < f.pageSize
    · rw [if_pos short, if_pos (by omega), Nat.min_eq_left (by omega)]
    · rw [if_neg short, if_neg (by omega)]
  · rw [if_neg (mt f.contains_iff.mp inside), if_neg inside]

theorem read_eq_ok_iff {page : PageId} {length : Nat} {bytes : List UInt8} :
    f.read page length = .ok bytes ↔ page.number < f.pages ∧ f.pageSize ≤ length ∧
      bytes = f.content.read (f.offset page.number) length := by
  rw [read_eq]
  by_cases inside : page.number < f.pages
  · by_cases short : length < f.pageSize
    · simp [inside, short, Nat.not_le.mpr short]
    · simp [inside, short, Nat.le_of_not_lt short, eq_comm]
  · simp [inside]

/-- Reading as much as a page shows the page. -/
theorem toOption_read (page : PageId) : (f.read page f.pageSize).toOption = f.image? page.number := by
  rw [read_eq, if_neg (Nat.lt_irrefl _), image?]
  split <;> rfl

/-- Writing takes an image of the size of a page and a page that the file has, or the one after its last. -/
theorem write_eq_ok_iff {page : PageId} {image : List UInt8} {after : PageFile} :
    f.write page image = .ok after ↔ image.length = f.pageSize ∧ page.number ≤ f.pages ∧
      after = { f with content := f.content.overwrite (f.offset page.number) image } := by
  rw [write]
  by_cases long : image.length = f.pageSize
  · by_cases beyond : f.pages < page.number
    · simp [long, beyond, Nat.not_le.mpr beyond]
    · simp [long, beyond, Nat.le_of_not_lt beyond, eq_comm]
  · simp [long]

variable {f}

/-- Whether a file has become another by an image in the place of a page. The file reaches at least to the end
of that page, and nothing else in it has changed. -/
structure Placed (f after : PageFile) (number : Nat) (image : List UInt8) : Prop where
  pageSize_eq : after.pageSize = f.pageSize
  length_eq : after.content.length = max f.content.length ((number + 1) * f.pageSize)
  inside : ∀ i < f.pageSize, image[i]? = some (after.content.byte (number * f.pageSize + i))
  outside : ∀ position, position < number * f.pageSize ∨ (number + 1) * f.pageSize ≤ position →
    after.content.byte position = f.content.byte position

theorem placed_of_write {page : PageId} {image : List UInt8} {after : PageFile}
    (h : f.write page image = .ok after) : Placed f after page.number image := by
  obtain ⟨long, -, rfl⟩ := f.write_eq_ok_iff.mp h
  have filled : image ≠ [] := List.ne_nil_of_length_pos (long ▸ f.pageSize_pos)
  refine ⟨rfl, ?_, fun i inside => ?_, fun position apart => ?_⟩
  · rw [Content.length_overwrite, if_neg filled, long, Nat.succ_mul]
    rfl
  · rw [Content.byte_overwrite, offset, if_neg (by omega), Nat.add_sub_cancel_left,
      List.getElem?_eq_getElem (by omega), Option.getD_some]
  · rw [Nat.succ_mul] at apart
    rw [Content.byte_overwrite, offset]
    split
    · rfl
    · rw [List.getElem?_eq_none (by omega), Option.getD_none]

/-- Where page numbers do not begin again, a page of zeros takes the place behind the last page. -/
theorem placed_append (room : f.pages < 4294967296) : f.append.1 = f.pages ∧
    Placed f f.append.2 f.pages (List.replicate f.pageSize 0) := by
  have number := pageNumber_of_lt room
  refine ⟨number, rfl, ?_, fun i inside => ?_, fun position apart => ?_⟩
  · simp only [append, number, Content.length_padTo, Content.length_clear, offset, Nat.succ_mul]
  · rw [List.getElem?_replicate_of_lt inside]
    simp only [append, number, Content.byte_padTo, Content.byte_clear, offset]
    rw [if_pos (by omega)]
  · rw [Nat.succ_mul] at apart
    simp only [append, number, Content.byte_padTo, Content.byte_clear, offset]
    rw [if_neg (by omega)]

namespace Placed
variable {after : PageFile} {number : Nat} {image : List UInt8} (h : Placed f after number image)
include h

/-- The page behind the last one makes the file longer by a page, and any other leaves it as long. -/
theorem pages_eq (reached : number ≤ f.pages) : after.pages = max f.pages (number + 1) := by
  have size := f.pageSize_pos
  rw [pages, h.pageSize_eq, h.length_eq]
  rcases Nat.lt_or_eq_of_le reached with within | rfl
  · have room := f.lt_pages_iff.mp within
    rw [offset, ← Nat.succ_mul] at room
    rw [Nat.max_eq_left room, Nat.max_eq_left within]
    rfl
  · have ragged := f.length_lt_offset_pages
    rw [offset, ← Nat.succ_mul] at ragged
    rw [Nat.max_eq_right (Nat.le_of_lt ragged), Nat.max_eq_right (Nat.le_succ _), Nat.mul_div_cancel _ size]

/-- The image stands in its place and the other pages stay. -/
theorem image?_eq (reached : number ≤ f.pages) (long : image.length = f.pageSize) (other : Nat) :
    after.image? other = if other = number then some image else f.image? other := by
  have pages := h.pages_eq reached
  split
  · rename_i here
    subst here
    rw [image?_eq_some_iff, h.pageSize_eq]
    exact ⟨by omega, long, h.inside⟩
  · rename_i different
    by_cases within : other < f.pages
    · have before : f.image? other = some (f.content.read (f.offset other) f.pageSize) := if_pos within
      obtain ⟨-, whole, same⟩ := f.image?_eq_some_iff.mp before
      rw [before, image?_eq_some_iff, h.pageSize_eq]
      refine ⟨by omega, whole, fun i inside => ?_⟩
      rw [h.outside _ ?_, same i inside]
      rcases Nat.lt_or_gt_of_ne different with lower | higher
      · have : (other + 1) * f.pageSize ≤ number * f.pageSize := Nat.mul_le_mul_right _ lower
        rw [Nat.succ_mul] at this
        omega
      · have : (number + 1) * f.pageSize ≤ other * f.pageSize := Nat.mul_le_mul_right _ higher
        omega
    · rw [image?, image?, if_neg within, if_neg (by omega)]

end Placed

end PageFile

end PagedStore
