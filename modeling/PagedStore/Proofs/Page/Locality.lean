import PagedStore.Proofs.Page.Calls

/-! What insertions and deletions do to the bytes of a page's image: a bit of the header and the bytes of a
slot change, and nothing else does. -/
namespace PagedStore.Page

/-- Whether an image differs from another by the bit of a slot, which is turned to what is given, and by the
bytes from a start on, which are replaced by the given ones. -/
structure Rewritten (before after : List UInt8) (slot start : Nat) (used : Bool) (bytes : List UInt8) : Prop where
  length_eq : after.length = before.length
  unset : Bits.bit before slot = !used
  set : Bits.bit after slot = used
  other_bits : ∀ other, other / 8 = slot / 8 → other ≠ slot → Bits.bit after other = Bits.bit before other
  window : (after.drop start).take bytes.length = bytes
  other_bytes : ∀ i, i ≠ slot / 8 → ¬ (start ≤ i ∧ i < start + bytes.length) → after[i]? = before[i]?

private theorem getElem?_exchange {front front' a x y b : List UInt8} (fronts : front'.length = front.length)
    (same : y.length = x.length) {i : Nat} (unchanged : i < front.length → front'[i]? = front[i]?)
    (outside : ¬ (front.length + a.length ≤ i ∧ i < front.length + a.length + y.length)) :
    (front' ++ (a ++ (y ++ b)))[i]? = (front ++ (a ++ (x ++ b)))[i]? := by
  simp only [List.getElem?_append, fronts, same]
  split
  · rename_i early
    exact unchanged early
  · split
    · rfl
    · rw [if_neg (by omega), if_neg (by omega)]

private def behind (p : Page) (slot : Nat) : List UInt8 :=
  (p.slots.drop (slot + 1)).flatMap p.slotImage ++ List.replicate (p.size - p.body.length) 0

private theorem image_at {p : Page} {slot : Nat} {content : Option Tuple}
    (held : p.slots[slot]? = some content) :
    p.image = p.header ++ ((p.slots.take slot).flatMap p.slotImage ++ (p.slotImage content ++ p.behind slot)) := by
  obtain ⟨inside, rfl⟩ := List.getElem?_eq_some_iff.mp held
  have slots : p.slots.flatMap p.slotImage = (p.slots.take slot).flatMap p.slotImage ++
      (p.slotImage p.slots[slot] ++ (p.slots.drop (slot + 1)).flatMap p.slotImage) := by
    rw [← List.flatMap_cons, ← List.drop_eq_getElem_cons inside, ← List.flatMap_append, List.take_append_drop]
  rw [image, body, slots]
  simp only [behind, body, slots, List.append_assoc]

private theorem Sound.bit_image {p : Page} (h : p.Sound) {i : Nat} (inside : i < 8 * p.header.length) :
    Bits.bit p.image i = Bits.bit p.header i := by
  rw [h.length_header] at inside
  rw [← h.take_header, Bits.bit_take _ inside]

section Change
variable {p : Page} (h : p.Sound) {record : RecordId} {content : Option Tuple}
    (takes : p.Takes record content) (typed : ∀ tuple, content = some tuple → tuple.IsTyped)
include h takes typed

/-- The image of a page whose slot gets a content: in front of the slot only the header changes, and behind it
nothing does. -/
private theorem image_withSlot : (p.withSlot record.slot content).image =
    Bits.mark p.header record.slot content.isSome ++
      ((p.slots.take record.slot).flatMap p.slotImage ++ (p.slotImage content ++ p.behind record.slot)) := by
  have count : (p.withSlot record.slot content).slots.length = p.slots.length := List.length_set
  have held : (p.withSlot record.slot content).slots[record.slot]? = some content :=
    List.getElem?_set_self takes.inside
  have front : (p.withSlot record.slot content).slots.take record.slot = p.slots.take record.slot :=
    List.take_set_of_le (Nat.le_refl _)
  have rest : (p.withSlot record.slot content).behind record.slot = p.behind record.slot := by
    rw [behind, behind, (h.withSlot takes typed).length_body, h.length_body, count]
    congr 2
    exact List.drop_set_of_lt (Nat.lt_succ_self _)
  rw [image_at held, h.header_withSlot takes.inside, front, rest]
  rfl

/-- A slot that gets a content has its bytes rewritten, and its bit in the header. -/
private theorem Sound.rewritten : Rewritten p.image (p.withSlot record.slot content).image record.slot
    (Layout.headerBytes p.slots.length + record.slot * p.schema.width) content.isSome
    (p.slotImage content) := by
  have room := Layout.le_header_bits p.slots.length
  have inside := takes.inside
  have sound := h.withSlot takes typed
  have header (other : Nat) (low : other < 8 * p.header.length) :
      Bits.bit (p.withSlot record.slot content).image other =
        if record.slot = other then content.isSome else Bits.bit p.image other := by
    have long : (p.withSlot record.slot content).header.length = p.header.length := by
      rw [h.header_withSlot inside, Bits.length_mark]
    rw [sound.bit_image (by omega), h.header_withSlot inside, h.bit_image low,
      Bits.bit_mark (by rw [h.length_header]; omega)]
  -- All slots in front have one width, so that the changed one starts where the layout has it.
  have before : ((p.slots.take record.slot).flatMap p.slotImage).length = record.slot * p.schema.width := by
    rw [length_chunks fun content held => h.length_slotImage (List.mem_of_mem_take held), List.length_take,
      Nat.min_eq_left (by omega)]
  obtain ⟨old, held⟩ : ∃ old, p.slots[record.slot]? = some old := ⟨_, List.getElem?_eq_getElem inside⟩
  have width : (p.slotImage content).length = (p.slotImage old).length := by
    rw [h.length_slotImage (List.mem_of_getElem? held)]
    exact sound.length_slotImage (List.mem_of_getElem? (List.getElem?_set_self inside))
  refine ⟨sound.length_image.trans h.length_image.symm, ?unset, ?set, ?others, ?window, ?elsewhere⟩
  case unset =>
    rw [h.bit_image (by rw [h.length_header]; omega), h.marked inside, takes.turns, Option.not_isSome]
  case set => rw [header _ (by rw [h.length_header]; omega), if_pos rfl]
  case others =>
    intro other near different
    rw [header _ (by rw [h.length_header]; omega), if_neg (Ne.symm different)]
  case window =>
    rw [image_withSlot h takes typed, ← List.append_assoc, List.drop_left', List.take_left' rfl]
    rw [List.length_append, Bits.length_mark, h.length_header, before]
  case elsewhere =>
    intro i elsewhere outside
    rw [image_withSlot h takes typed, image_at held]
    refine getElem?_exchange (Bits.length_mark _ _ _) width
      (fun _ => Bits.getElem?_mark_of_ne _ elsewhere) ?_
    rwa [h.length_header, before]

end Change

/-! ### Several changes -/

def emptied (p : Page) (slots : List Nat) : Page :=
  slots.foldl (fun q slot => q.withSlot slot none) p

private theorem emptied_perm (p : Page) {slots order : List Nat} (same : order.Perm slots) :
    p.emptied order = p.emptied slots := by
  refine same.foldl_eq' (fun slot _ other _ q => ?_) p
  by_cases different : slot = other
  · rw [different]
  · simp only [withSlot, List.set_comm none none different]

private theorem foldlM_delete (p : Page) {slots : List Nat} (distinct : slots.Nodup)
    (used : ∀ slot ∈ slots, (p.tuple? slot).isSome) :
    slots.foldlM (fun q slot => q.delete (some ⟨p.id, slot⟩)) p = .ok (p.emptied slots) := by
  -- The page varies: the slots that are left stay used when one of them is emptied.
  induction slots generalizing p with
  | nil => rfl
  | cons slot slots ih =>
    obtain ⟨fresh, distinct⟩ := List.nodup_cons.mp distinct
    have taken := used slot List.mem_cons_self
    obtain ⟨tuple, held⟩ := Option.isSome_iff_exists.mp taken
    have deleted : p.delete (some ⟨p.id, slot⟩) = .ok (p.withSlot slot none) := if_pos ⟨rfl, taken⟩
    rw [List.foldlM_cons, deleted]
    refine ih (p.withSlot slot none) distinct fun other listed => ?_
    rw [tuple?_withSlot (lt_of_tuple? held), if_neg (by rintro rfl; exact fresh listed)]
    exact used other (List.mem_cons_of_mem slot listed)

private theorem delete_of_insert {p after : Page} {tuple : Tuple} {record : RecordId}
    (inserted : p.insert tuple = .ok (record, after)) : after.delete (some record) = .ok p := by
  obtain ⟨takes, he⟩ := insert_eq_ok inserted
  have free : p.tuple? record.slot = none := by
    have turns := takes.turns
    rwa [Option.isNone_some, ← Bool.not_eq_true, Option.not_isSome_iff_eq_none] at turns
  have used : after.isUsed record.slot := by
    rw [isUsed, he, tuple?_withSlot takes.inside, if_pos rfl]
    rfl
  calc
    after.delete (some record) = .ok (after.withSlot record.slot none) :=
      if_pos ⟨he ▸ takes.page_eq, used⟩
    _ = .ok p := by rw [he, withSlot_withSlot, ← free, withSlot_tuple? takes.inside]

/-- An insertion changes in the image just the bit of its slot and the bytes of that slot, which become the
stored tuple; a deletion clears that bit and those bytes. A tuple that is inserted and deleted again leaves
the image as it was, and the order in which tuples are deleted does not matter. -/
theorem updates_local {id : PageId} {schema : Schema} {image : List UInt8} {p : Page}
    (reached : Reached id schema image p) :
    (∀ tuple record after, tuple.IsTyped → p.insert tuple = .ok (record, after) →
      Rewritten p.image after.image record.slot (slotStart schema image record.slot) true tuple.encode ∧
      tuple.encode.length = schema.width ∧
      ∃ back, after.delete (some record) = .ok back ∧ back.image = p.image) ∧
    (∀ record after, p.delete (some record) = .ok after →
      Rewritten p.image after.image record.slot (slotStart schema image record.slot) false
        (List.replicate schema.width 0)) ∧
    ∀ slots : List Nat, slots.Nodup → (∀ slot ∈ slots, (p.tuple? slot).isSome) →
      ∃ emptied : Page, ∀ order : List Nat, order.Perm slots →
        order.foldlM (fun q slot => q.delete (some ⟨id, slot⟩)) p = .ok emptied := by
  have stems := reached.stems
  have sound := stems.sound
  have start (slot : Nat) : slotStart schema image slot =
      Layout.headerBytes p.slots.length + slot * p.schema.width := by
    rw [slotStart, slotsIn, sound.count, stems.size_eq, stems.schema_eq]
  refine ⟨fun tuple record after typed inserted => ⟨?inserted, ?width, p, delete_of_insert inserted, rfl⟩,
    fun record after deleted => ?deleted, fun slots distinct used => ⟨p.emptied slots, fun order same => ?orders⟩⟩
  case inserted =>
    obtain ⟨takes, rfl⟩ := insert_eq_ok inserted
    rw [start]
    refine sound.rewritten takes ?_
    rintro _ ⟨⟩
    exact typed
  case width =>
    obtain ⟨takes, -⟩ := insert_eq_ok inserted
    rw [typed.length_encode, Schema.width_eq_of_agrees (takes.belongs rfl).1, stems.schema_eq]
  case deleted =>
    obtain ⟨takes, rfl⟩ := delete_eq_ok deleted
    rw [start, ← stems.schema_eq]
    refine sound.rewritten takes ?_
    rintro _ ⟨⟩
  case orders =>
    rw [← p.emptied_perm same, ← stems.id_eq]
    exact p.foldlM_delete (same.nodup_iff.mpr distinct) fun slot listed => used slot (same.mem_iff.mp listed)

/-- A text put into the first slot is written behind the header, and taken out again; a page of two tuples is
emptied in both orders. -/
theorem updates_local_two : (Reached ⟨1, 0⟩ textSchema Reached.sampleImage Reached.sampleRead ∧
      ∃ after, Reached.sampleRead.insert (Reached.textRow Reached.longText) = .ok (⟨⟨1, 0⟩, 0⟩, after) ∧
        Rewritten Reached.sampleRead.image after.image 0 1 true (Reached.textRow Reached.longText).encode ∧
        ∃ back, after.delete (some ⟨⟨1, 0⟩, 0⟩) = .ok back ∧ back.image = Reached.sampleRead.image) ∧
    Reached ⟨1, 0⟩ textSchema Reached.sampleImage Reached.sample ∧
      ∃ emptied : Page, ∀ order : List Nat, order.Perm [0, 1] →
        order.foldlM (fun q slot => q.delete (some ⟨⟨1, 0⟩, slot⟩)) Reached.sample = .ok emptied := by
  obtain ⟨after, stored⟩ : ∃ after, Reached.sampleRead.insert (Reached.textRow Reached.longText) =
      .ok (⟨⟨1, 0⟩, 0⟩, after) := ⟨_, rfl⟩
  have typed : (Reached.textRow Reached.longText).IsTyped := rfl
  have start : slotStart textSchema Reached.sampleImage 0 = 1 := by decide +kernel
  obtain ⟨rewritten, -, restored⟩ := (updates_local Reached.of_sampleRead).1 _ _ _ typed stored
  rw [start] at rewritten
  have used : ∀ slot ∈ [0, 1], (Reached.sample.tuple? slot).isSome := by decide +kernel
  obtain ⟨-, -, orders⟩ := updates_local Reached.of_sample
  exact ⟨⟨Reached.of_sampleRead, after, stored, rewritten, restored⟩, Reached.of_sample,
    orders [0, 1] (by decide) used⟩

end PagedStore.Page
