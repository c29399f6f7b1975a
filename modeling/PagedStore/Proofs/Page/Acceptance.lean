import Mathlib.Data.List.Basic
import PagedStore.Proofs.Bits
import PagedStore.Proofs.Page.Image

/-! Which images are accepted: those whose marked slots can be read. Nothing else in an image matters, and
no byte outside it is looked at. -/
namespace PagedStore.Page

/-! ### The layout of an image -/

section Layout
variable (schema : Schema) (image : List UInt8)

def slotsIn : Nat :=
  Layout.slotCount image.length schema

def slotStart (slot : Nat) : Nat :=
  Layout.headerBytes (slotsIn schema image) + slot * schema.width

def window (slot : Nat) : List UInt8 :=
  (image.drop (slotStart schema image slot)).take schema.width

def Readable (slot : Nat) : Prop :=
  ∃ tuple rest, Tuple.decode schema (window schema image slot) = .ok (tuple, rest)

private theorem headerBytes_le : Layout.headerBytes (slotsIn schema image) ≤ image.length :=
  Nat.le_trans (Nat.le_add_right _ _) (Layout.header_add_slots_le image.length schema)

variable {schema image}

private theorem slotEnd_le {slot : Nat} (inside : slot < slotsIn schema image) :
    slotStart schema image slot + schema.width ≤ image.length :=
  Layout.slot_end_le inside

private theorem byte_lt_headerBytes {slot : Nat} (inside : slot < slotsIn schema image) :
    slot / 8 < Layout.headerBytes (slotsIn schema image) := by
  have := Layout.le_header_bits (slotsIn schema image)
  omega

end Layout

section Reading
variable (id : PageId) (schema : Schema) (image : List UInt8)

def slotIn (slot : Nat) : Except Fault (Option Tuple) :=
  readSlot id schema (window schema image) (Bits.bit image slot) slot

private theorem marks_eq :
    (Bits.ofBytes (image.take (Layout.headerBytes (slotsIn schema image)))).take (slotsIn schema image) =
      (List.range (slotsIn schema image)).map (Bits.bit image) := by
  have room := Layout.le_header_bits (slotsIn schema image)
  have whole := headerBytes_le schema image
  apply List.ext_getElem?
  intro slot
  rw [List.getElem?_take, List.getElem?_map]
  split
  · rename_i inside
    rw [Bits.getElem?_ofBytes (by rw [List.length_take]; omega), Bits.bit_take _ (by omega),
      List.getElem?_range inside]
    rfl
  · rw [List.getElem?_eq_none (by rw [List.length_range]; omega)]
    rfl

/-- A page is read slot by slot, where the bits of the image say which slots are used. -/
theorem ofImage_eq : ofImage id schema image =
    if slotsIn schema image = 0 then .error (.badImage id (.tooNarrow schema.width image.length))
    else ((List.range (slotsIn schema image)).mapM (slotIn id schema image)).map fun slots =>
      ⟨id, schema, image.length, slots,
        (Bits.ofBytes (image.take (Layout.headerBytes (slotsIn schema image)))).drop (slotsIn schema image),
        none⟩ := by
  have numbered (count : Nat) (mark : Nat → Bool) :
      ((List.range count).map mark).zipIdx = (List.range count).map fun slot => (mark slot, slot) := by
    apply List.ext_getElem?
    intro slot
    simp only [List.getElem?_zipIdx, List.getElem?_map, Nat.zero_add, Option.map_map]
    by_cases inside : slot < count
    · rw [List.getElem?_range inside]
      rfl
    · rw [List.getElem?_eq_none (by rw [List.length_range]; omega)]
      rfl
  have slots : readSlots id schema (Layout.slotBytes schema (slotsIn schema image) image.toArray)
      ((Bits.ofBytes (image.take (Layout.headerBytes (slotsIn schema image)))).take (slotsIn schema image)) =
      (List.range (slotsIn schema image)).mapM (slotIn id schema image) := by
    rw [marks_eq, readSlots, numbered, List.mapM_map]
    congr 1
    funext slot
    simp only [Function.comp_apply, slotIn, readSlot, slotBytes_eq]
    rfl
  simp only [ofImage, show Layout.slotCount image.length schema = slotsIn schema image from rfl, slots]
  cases (List.range (slotsIn schema image)).mapM (slotIn id schema image) <;> rfl

variable {id schema image}

private theorem slotIn_of_free {slot : Nat} (free : Bits.bit image slot = false) :
    slotIn id schema image slot = .ok none := by
  rw [slotIn, free]
  rfl

private theorem slotIn_ok_iff {slot : Nat} : (∃ content, slotIn id schema image slot = .ok content) ↔
    (Bits.bit image slot → Readable schema image slot) := by
  cases used : Bits.bit image slot with
  | false => simp [slotIn_of_free used]
  | true =>
    rw [slotIn, used, readSlot, if_pos rfl, Readable]
    cases Tuple.decode schema (window schema image slot) with
    | error cause => simp
    | ok result => exact iff_of_true ⟨_, rfl⟩ fun _ => ⟨_, _, rfl⟩

private theorem isSome_of_slotIn {slot : Nat} {content : Option Tuple}
    (h : slotIn id schema image slot = .ok content) : content.isSome = Bits.bit image slot := by
  cases used : Bits.bit image slot with
  | false =>
    rw [slotIn_of_free used] at h
    cases h
    rfl
  | true =>
    rw [slotIn, used, readSlot, if_pos rfl] at h
    cases read : Tuple.decode schema (window schema image slot) with
    | error cause =>
      rw [read] at h
      cases h
    | ok result =>
      rw [read] at h
      cases h
      rfl

private theorem slotIn_error_iff {slot : Nat} {fault : Fault} : slotIn id schema image slot = .error fault ↔
    ∃ cause, Bits.bit image slot ∧ Tuple.decode schema (window schema image slot) = .error cause ∧
      fault = .badImage id (.slot slot cause) := by
  cases used : Bits.bit image slot with
  | false => simp [slotIn_of_free used]
  | true =>
    rw [slotIn, used, readSlot, if_pos rfl]
    cases Tuple.decode schema (window schema image slot) with
    | error cause => simp [eq_comm]
    | ok result => simp

/-- What a page that was read has in its slots and in its header. -/
theorem slots_of_ofImage {p : Page} (h : ofImage id schema image = .ok p) :
    p.slots.length = slotsIn schema image ∧
    (∀ slot < slotsIn schema image, slotIn id schema image slot = .ok (p.tuple? slot)) ∧
    p.header = image.take (Layout.headerBytes (slotsIn schema image)) := by
  rw [ofImage_eq] at h
  split at h
  · cases h
  · cases read : (List.range (slotsIn schema image)).mapM (slotIn id schema image) with
    | error fault =>
      rw [read] at h
      cases h
    | ok slots =>
      rw [read] at h
      cases h
      obtain ⟨count, all⟩ := mapM_eq_ok_iff.mp read
      rw [List.length_range] at count
      have shown (slot : Nat) (inside : slot < slotsIn schema image) :
          slotIn id schema image slot = .ok (slots[slot]?.join) := by
        rw [List.getElem?_eq_getElem (by omega)]
        exact all slot slot _ (List.getElem?_range inside) (List.getElem?_eq_getElem (by omega))
      refine ⟨count, shown, ?_⟩
      have used : slots.map Option.isSome = (List.range (slotsIn schema image)).map (Bits.bit image) := by
        apply List.ext_getElem?
        intro slot
        rw [List.getElem?_map, List.getElem?_map]
        by_cases inside : slot < slotsIn schema image
        · have held := isSome_of_slotIn (shown slot inside)
          rw [List.getElem?_eq_getElem (by omega)] at held ⊢
          rw [List.getElem?_range inside]
          exact congrArg some held
        · rw [List.getElem?_eq_none (by omega), List.getElem?_eq_none (by rw [List.length_range]; omega)]
          rfl
      rw [header, used, ← marks_eq, List.take_append_drop, Bits.toBytes_ofBytes]

end Reading

/-! ### Reading with bounds -/

def slice? (bytes : List UInt8) (start stop : Nat) : Option (List UInt8) :=
  if start ≤ stop ∧ stop ≤ bytes.length then some ((bytes.take stop).drop start) else none

def bit? (bytes : List UInt8) (i : Nat) : Option Bool :=
  bytes[i / 8]?.map fun byte => byte.toNat.testBit (i % 8)

section Checked
variable (id : PageId) (schema : Schema) (image : List UInt8)

def slotWithin (header : List UInt8) (slot : Nat) : Option (Except Fault (Option Tuple)) :=
  match bit? header slot with
  | none => none
  | some false => some (.ok none)
  | some true =>
    (slice? image (slotStart schema image slot) (slotStart schema image slot + schema.width)).map fun bytes =>
      readSlot id schema (fun _ => bytes) true slot

def slotsWithin (header : List UInt8) : List Nat → Option (Except Fault (List (Option Tuple)))
  | [] => some (.ok [])
  | slot :: slots =>
    match slotWithin id schema image header slot with
    | none => none
    | some (.error fault) => some (.error fault)
    | some (.ok content) => (slotsWithin header slots).map (·.map (content :: ·))

def ofImageWithin : Option (Except Fault Page) :=
  if slotsIn schema image = 0 then some (.error (.badImage id (.tooNarrow schema.width image.length)))
  else
    match slice? image 0 (Layout.headerBytes (slotsIn schema image)) with
    | none => none
    | some header =>
      (slotsWithin id schema image header (List.range (slotsIn schema image))).map (·.map fun slots =>
        ⟨id, schema, image.length, slots, (Bits.ofBytes header).drop (slotsIn schema image), none⟩)

variable {id schema image}

private theorem slotWithin_eq {slot : Nat} (inside : slot < slotsIn schema image) :
    slotWithin id schema image (image.take (Layout.headerBytes (slotsIn schema image))) slot =
      some (slotIn id schema image slot) := by
  have whole := headerBytes_le schema image
  have place := byte_lt_headerBytes inside
  have present : bit? (image.take (Layout.headerBytes (slotsIn schema image))) slot =
      some (Bits.bit image slot) := by
    rw [bit?, List.getElem?_take, if_pos place, List.getElem?_eq_getElem (by omega), Bits.bit,
      List.getD_eq_getElem?_getD, List.getElem?_eq_getElem (by omega)]
    rfl
  rw [slotWithin, present]
  cases used : Bits.bit image slot with
  | false => rw [slotIn_of_free used]
  | true =>
    have room := slotEnd_le inside
    have bytes : (image.take (slotStart schema image slot + schema.width)).drop (slotStart schema image slot) =
        window schema image slot := by
      rw [List.drop_take, Nat.add_sub_cancel_left, window]
    simp only [slice?, if_pos (And.intro (Nat.le_add_right _ _) room), Option.map_some, bytes, slotIn, used,
      readSlot]

private theorem slotsWithin_eq {slots : List Nat} (inside : ∀ slot ∈ slots, slot < slotsIn schema image) :
    slotsWithin id schema image (image.take (Layout.headerBytes (slotsIn schema image))) slots =
      some (slots.mapM (slotIn id schema image)) := by
  induction slots with
  | nil => rfl
  | cons slot slots ih =>
    have rest := ih fun other listed => inside other (List.mem_cons_of_mem slot listed)
    rw [slotsWithin, slotWithin_eq (inside slot List.mem_cons_self), List.mapM_cons]
    cases slotIn id schema image slot with
    | error fault => rfl
    | ok content =>
      simp only [rest]
      cases slots.mapM (slotIn id schema image) <;> rfl

private theorem ofImageWithin_eq : ofImageWithin id schema image = some (ofImage id schema image) := by
  have header : slice? image 0 (Layout.headerBytes (slotsIn schema image)) =
      some (image.take (Layout.headerBytes (slotsIn schema image))) :=
    if_pos ⟨Nat.zero_le _, headerBytes_le schema image⟩
  rw [ofImageWithin, ofImage_eq, header]
  split
  · rfl
  · simp only [slotsWithin_eq fun slot listed => List.mem_range.mp listed, Option.map_some]

end Checked

section Decision
variable {id : PageId} {schema : Schema} {image : List UInt8}

private theorem exists_map_ok_iff {ε α β : Type} {x : Except ε α} {f : α → β} :
    (∃ b, x.map f = .ok b) ↔ ∃ a, x = .ok a := by
  cases x <;> simp [Except.map]

private theorem map_eq_error_iff {ε α β : Type} {x : Except ε α} {f : α → β} {fault : ε} :
    x.map f = .error fault ↔ x = .error fault := by
  cases x <;> simp [Except.map]

private theorem exists_ofImage_iff : (∃ p, ofImage id schema image = .ok p) ↔ 0 < slotsIn schema image ∧
    ∀ slot < slotsIn schema image, Bits.bit image slot → Readable schema image slot := by
  rw [ofImage_eq]
  split
  · rename_i narrow
    exact iff_of_false (fun ⟨_, h⟩ => nomatch h) fun h => Nat.ne_of_gt h.1 narrow
  · rename_i wide
    rw [exists_map_ok_iff, exists_mapM_ok_iff, and_iff_right (Nat.pos_of_ne_zero wide)]
    simp only [List.mem_range, slotIn_ok_iff]

/-- An image is refused if it has no slots, or for the first slot that is used and cannot be read. -/
private theorem ofImage_error_iff {fault : Fault} : ofImage id schema image = .error fault ↔
    slotsIn schema image = 0 ∧ fault = .badImage id (.tooNarrow schema.width image.length) ∨
    ∃ slot cause, slot < slotsIn schema image ∧ Bits.bit image slot ∧
      Tuple.decode schema (window schema image slot) = .error cause ∧
      (∀ lower < slot, Bits.bit image lower → Readable schema image lower) ∧
      fault = .badImage id (.slot slot cause) := by
  rw [ofImage_eq]
  split
  · rename_i narrow
    constructor
    · rintro ⟨⟩
      exact .inl ⟨narrow, rfl⟩
    · rintro (⟨-, rfl⟩ | ⟨slot, -, inside, -⟩)
      · rfl
      · omega
  · rename_i wide
    rw [map_eq_error_iff, mapM_eq_error_iff]
    constructor
    · rintro ⟨i, slot, listed, failed, before⟩
      obtain ⟨inside, rfl⟩ := List.getElem?_eq_some_iff.mp listed
      rw [List.length_range] at inside
      rw [List.getElem_range] at failed
      obtain ⟨cause, used, unread, rfl⟩ := slotIn_error_iff.mp failed
      refine .inr ⟨i, cause, inside, used, unread, fun lower earlier => ?_, rfl⟩
      exact slotIn_ok_iff.mp (before lower earlier lower (List.getElem?_range (by omega)))
    · rintro (⟨narrow, -⟩ | ⟨slot, cause, inside, used, unread, before, rfl⟩)
      · exact absurd narrow wide
      · refine ⟨slot, slot, List.getElem?_range inside, slotIn_error_iff.mpr ⟨cause, used, unread, rfl⟩, ?_⟩
        intro lower earlier other listed
        rw [List.getElem?_range (by omega)] at listed
        cases listed
        exact slotIn_ok_iff.mpr (before lower earlier)

/-- Images of one length with the same used slots, of the same bytes, show the same tuples or have the
same fault. -/
private theorem slots_ofImage_congr {other : List UInt8} (long : other.length = image.length)
    (same : ∀ slot < slotsIn schema image, Bits.bit other slot = Bits.bit image slot ∧
      (Bits.bit image slot → window schema other slot = window schema image slot)) :
    (ofImage id schema other).map slots = (ofImage id schema image).map slots := by
  have count : slotsIn schema other = slotsIn schema image := by
    rw [slotsIn, long, slotsIn]
  have each : ∀ slot ∈ List.range (slotsIn schema image),
      slotIn id schema other slot = slotIn id schema image slot := by
    intro slot listed
    obtain ⟨bit, bytes⟩ := same slot (List.mem_range.mp listed)
    cases used : Bits.bit image slot with
    | false => rw [slotIn_of_free used, slotIn_of_free (bit.trans used)]
    | true => rw [slotIn, slotIn, bit, used, readSlot, readSlot, bytes used]
  rw [ofImage_eq, ofImage_eq, count, long, mapM_congr each]
  split
  · rfl
  · cases (List.range (slotsIn schema image)).mapM (slotIn id schema image) <;> rfl

end Decision

/-- Reading a page never takes a byte outside the image. An image is accepted just if it has slots and the
bytes of all slots that its header marks as used make up tuples; it is refused for having no slots, or for
the first slot whose bytes do not. Free slots, spare bits of the header and what follows the slots play no
part in that. -/
theorem images_decided (id : PageId) (schema : Schema) (image : List UInt8) :
    ofImageWithin id schema image = some (ofImage id schema image) ∧
    ((∃ p, ofImage id schema image = .ok p) ↔ 0 < slotsIn schema image ∧
      ∀ slot < slotsIn schema image, Bits.bit image slot → Readable schema image slot) ∧
    (∀ fault, ofImage id schema image = .error fault ↔
      slotsIn schema image = 0 ∧ fault = .badImage id (.tooNarrow schema.width image.length) ∨
      ∃ slot cause, slot < slotsIn schema image ∧ Bits.bit image slot ∧
        Tuple.decode schema (window schema image slot) = .error cause ∧
        (∀ lower < slot, Bits.bit image lower → Readable schema image lower) ∧
        fault = .badImage id (.slot slot cause)) ∧
    ∀ other : List UInt8, other.length = image.length →
      (∀ slot < slotsIn schema image, Bits.bit other slot = Bits.bit image slot ∧
        (Bits.bit image slot → window schema other slot = window schema image slot)) →
      (ofImage id schema other).map slots = (ofImage id schema image).map slots :=
  ⟨ofImageWithin_eq, exists_ofImage_iff, fun _ => ofImage_error_iff, fun _ => slots_ofImage_congr⟩

def textSchema : Schema :=
  ⟨[⟨.text, none⟩]⟩

/-- The image of a page of two slots, with an empty text in the first one and a fill in all that does not
count. -/
def oneText (fill : UInt8) : List UInt8 :=
  (fill &&& 0xFC ||| 1) :: List.replicate 132 0 ++ List.replicate 134 fill

/-- It does not matter what fills a free slot, the spare bits and the last bytes. A used slot that tells a
negative length is refused. -/
theorem images_decided_filled :
    (oneText 0xFF).length = (oneText 0).length ∧
    (∀ slot < slotsIn textSchema (oneText 0), Bits.bit (oneText 0xFF) slot = Bits.bit (oneText 0) slot ∧
      (Bits.bit (oneText 0) slot → window textSchema (oneText 0xFF) slot = window textSchema (oneText 0) slot)) ∧
    (ofImage ⟨1, 0⟩ textSchema (oneText 0xFF)).map slots = (ofImage ⟨1, 0⟩ textSchema (oneText 0)).map slots ∧
    ofImage ⟨1, 0⟩ textSchema (List.replicate 133 0xFF) = .error (.badImage ⟨1, 0⟩ (.slot 0 (.textLength (-1)))) := by
  have long : (oneText 0xFF).length = (oneText 0).length := by decide +kernel
  have same : ∀ slot < slotsIn textSchema (oneText 0),
      Bits.bit (oneText 0xFF) slot = Bits.bit (oneText 0) slot ∧
        (Bits.bit (oneText 0) slot → window textSchema (oneText 0xFF) slot = window textSchema (oneText 0) slot) := by
    decide +kernel
  have unread : Tuple.decode textSchema (window textSchema (List.replicate 133 0xFF) 0) =
      .error (.textLength (-1)) := by
    decide +kernel
  obtain ⟨-, -, -, alike⟩ := images_decided ⟨1, 0⟩ textSchema (oneText 0)
  obtain ⟨-, -, refused, -⟩ := images_decided ⟨1, 0⟩ textSchema (List.replicate 133 0xFF)
  refine ⟨long, same, alike _ long same,
    (refused _).mpr (.inr ⟨0, _, by decide +kernel, by decide +kernel, unread, fun lower early => ?_, rfl⟩)⟩
  exact absurd early (Nat.not_lt_zero lower)

end PagedStore.Page
