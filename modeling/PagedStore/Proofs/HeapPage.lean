import PagedStore.HeapPage
import PagedStore.Proofs.Page.Calls

/-! Pages that keep twice which slots are used, and the pages that keep it once: what is asked of one of the former
comes to the same as if it were asked of the page that it stands for. -/
namespace PagedStore.HeapPage

def view (p : HeapPage) : Page :=
  ⟨p.id, p.schema, p.size, p.slots, (Bits.ofBytes p.header.toList).drop p.count, p.changedBy⟩

def tuple? (p : HeapPage) (slot : Nat) : Option Tuple :=
  p.slots[slot]?.join

/-- Whether the header of a page and its slots tell the same. -/
structure Paired (p : HeapPage) : Prop where
  sound : p.view.Sound
  count : p.slots.length = p.count
  header : p.view.header = p.header.toList

def withSlot (p : HeapPage) (slot : Nat) (content : Option Tuple) : HeapPage :=
  { p.mark slot content.isSome with slots := p.slots.set slot content }

theorem isSet_getD (header : Array UInt8) (slot : Nat) :
    Bits.isSet (header.getD (slot / 8) 0) slot = Bits.bit header.toList slot := by
  rw [← Bits.isSet_eq_bit, Array.getD_eq_getD_getElem?, List.getD_eq_getElem?_getD, Array.getElem?_toList]

theorem mark_header (p : HeapPage) (slot : Nat) (used : Bool) :
    (p.mark slot used).header.toList = Bits.mark p.header.toList slot used := by
  rw [mark, Bits.mark, Array.toList_modify]

section Paired
variable {p : HeapPage} (h : p.Paired)
include h

theorem Paired.isUsed_eq (slot : Nat) : p.isUsed slot = (p.tuple? slot).isSome := by
  by_cases inside : slot < p.slots.length
  · have marked := h.sound.marked inside
    rw [h.header] at marked
    rw [isUsed, isSet_getD, marked, ← h.count, decide_eq_true inside, Bool.true_and]
    rfl
  · rw [isUsed, ← h.count, decide_eq_false inside, tuple?, List.getElem?_eq_none (Nat.le_of_not_lt inside)]
    rfl

/-- The first slot that the header shows as free is the first that holds no tuple. -/
theorem Paired.find?_eq_some_iff {slot : Nat} :
    (List.range p.count).find? (fun slot => !p.isUsed slot) = some slot ↔ p.view.FirstFree slot := by
  rw [List.find?_range_eq_some, List.mem_range, ← h.count]
  simp only [h.isUsed_eq, Bool.not_not, Bool.not_eq_true', Option.isSome_eq_false_iff, Option.isNone_iff_eq_none]
  exact ⟨fun ⟨free, inside, before⟩ => ⟨inside, free, before⟩,
    fun ⟨inside, free, before⟩ => ⟨free, inside, before⟩⟩

theorem Paired.find?_eq_none_iff :
    (List.range p.count).find? (fun slot => !p.isUsed slot) = none ↔
      ∀ slot < p.count, (p.tuple? slot).isSome := by
  simp only [List.find?_range_eq_none, h.isUsed_eq, Bool.not_not]

private theorem Paired.find?_eq :
    (List.range p.count).find? (fun slot => !p.isUsed slot) = p.view.slots.findIdx? Option.isNone := by
  apply Option.ext
  intro slot
  rw [h.find?_eq_some_iff, Page.findIdx?_eq_some_iff]

theorem Paired.freeCount_eq : p.freeCount = p.view.freeCount := by
  have slots : p.view.slots = (List.range p.count).map p.tuple? := by
    apply List.ext_getElem (by simp [view, h.count])
    intro slot inside _
    rw [List.getElem_map, List.getElem_range]
    exact (Page.tuple?_of_lt inside).symm
  rw [freeCount, Page.freeCount, slots, List.countP_map]
  refine List.countP_congr fun slot _ => ?_
  rw [h.isUsed_eq, Function.comp_apply]
  cases p.tuple? slot <;> simp

private theorem Paired.withSlot {record : RecordId} {content : Option Tuple}
    (takes : p.view.Takes record content)
    (typed : ∀ tuple, content = some tuple → tuple.IsTyped) :
    (p.withSlot record.slot content).view = p.view.withSlot record.slot content ∧
      (p.withSlot record.slot content).Paired := by
  have sound := h.sound.withSlot takes typed
  have header : (p.view.withSlot record.slot content).header =
      Bits.mark p.header.toList record.slot content.isSome :=
    h.header ▸ h.sound.header_withSlot takes.inside content
  -- The bits behind the slots are those of the header before.
  have spare : (Bits.ofBytes (Bits.mark p.header.toList record.slot content.isSome)).drop p.count =
      (Bits.ofBytes p.header.toList).drop p.count := by
    rw [← header, sound.ofBytes_header, List.drop_left']
    · rfl
    · rw [List.length_map, Page.withSlot, List.length_set]
      exact h.count
  have same : (p.withSlot record.slot content).view = p.view.withSlot record.slot content := by
    simp only [HeapPage.withSlot, view, Page.withSlot, mark_header]
    rw [show (p.mark record.slot content.isSome).count = p.count from rfl, spare]
    rfl
  refine ⟨same, same.symm ▸ sound, List.length_set.trans h.count, ?_⟩
  rw [same, header]
  exact (p.mark_header record.slot content.isSome).symm

theorem Paired.image_eq : p.image = p.view.image := by
  rw [Page.image, Page.body, h.header]
  rfl

end Paired

/-- Slots are read alike whether their bits are looked up in the header or in the whole image. -/
private theorem readSlots_eq (id : PageId) (schema : Schema) (image : List UInt8) :
    (List.range (Page.slotsIn schema image)).mapM (fun slot =>
      Page.readSlot id schema (Layout.slotBytes schema (Page.slotsIn schema image) image.toArray)
        (Bits.isSet ((image.take (Layout.headerBytes (Page.slotsIn schema image))).toArray.getD (slot / 8) 0) slot)
        slot) =
    (List.range (Page.slotsIn schema image)).mapM (Page.slotIn id schema image) := by
  have room := Layout.le_header_bits (Page.slotsIn schema image)
  refine mapM_congr fun slot listed => ?_
  have inside := List.mem_range.mp listed
  rw [isSet_getD, Bits.bit_take _ (by omega), Page.slotIn, Page.readSlot, Page.readSlot, Page.slotBytes_eq]
  rfl

/-- A page is read as the one that it stands for, and the header is that of the image. -/
theorem ofImage_view (id : PageId) (schema : Schema) (image : List UInt8) :
    (ofImage id schema image).map view = Page.ofImage id schema image ∧
      ∀ p, ofImage id schema image = .ok p →
        p.count = Page.slotsIn schema image ∧
          p.header.toList = image.take (Layout.headerBytes (Page.slotsIn schema image)) := by
  rw [Page.ofImage_eq, ofImage]
  simp only [show Layout.slotCount image.length schema = Page.slotsIn schema image from rfl]
  split
  · refine ⟨rfl, fun p h => ?_⟩
    cases h
  · rw [readSlots_eq]
    cases (List.range (Page.slotsIn schema image)).mapM (Page.slotIn id schema image) with
    | error fault =>
      refine ⟨rfl, fun p h => ?_⟩
      cases h
    | ok slots =>
      refine ⟨rfl, fun p h => ?_⟩
      cases h
      exact ⟨rfl, rfl⟩

private theorem paired_of_ofImage {id : PageId} {schema : Schema} {image : List UInt8} {p : HeapPage}
    (h : ofImage id schema image = .ok p) : Page.ofImage id schema image = .ok p.view ∧ p.Paired := by
  obtain ⟨same, parts⟩ := ofImage_view id schema image
  rw [h] at same
  obtain ⟨count, header⟩ := parts p h
  have read : Page.ofImage id schema image = .ok p.view := same.symm
  obtain ⟨count', -, header'⟩ := Page.slots_of_ofImage read
  exact ⟨read, (Page.shown_of_ofImage read).sound, count'.trans count.symm, header'.trans header.symm⟩

/-! ### Calls -/

/-- What comes of a call: the fault, if it has failed, and the tuple that was passed and the page after it. -/
structure Effect where
  fault : Option Fault
  tuple : Tuple
  page : HeapPage

def perform (p : HeapPage) : Page.Call → Effect
  | .insert tuple =>
    let (result, tuple, after) := p.insert tuple
    ⟨Page.faultOf result, tuple, after⟩
  | .delete tuple =>
    let (result, after) := p.delete tuple.record
    ⟨Page.faultOf result, tuple, after⟩

/-- The pages that an image leads to by calls, and by marks of who has changed the page. -/
inductive Reached (id : PageId) (schema : Schema) (image : List UInt8) : HeapPage → Prop
  | read {p : HeapPage} : ofImage id schema image = .ok p → Reached id schema image p
  | call {p : HeapPage} (call : Page.Call) : Reached id schema image p → call.Fits →
      Reached id schema image (p.perform call).page
  | mark {p : HeapPage} (changedBy : Option TxnId) : Reached id schema image p →
      Reached id schema image { p with changedBy }

/-- A call comes to the same as on the page that is stood for. -/
theorem Paired.perform_view {p : HeapPage} (h : p.Paired) {call : Page.Call} (fits : call.Fits) :
    (p.perform call).fault = (p.view.perform call).fault ∧
      (p.perform call).tuple = (p.view.perform call).tuple ∧
      (p.perform call).page.view = (p.view.perform call).page ∧ (p.perform call).page.Paired := by
  cases call with
  | insert tuple =>
    rw [Page.perform_insert, Page.insert_eq, HeapPage.perform, insert, h.find?_eq]
    by_cases agrees : tuple.schema.agrees p.schema
    · have agrees' : tuple.schema.agrees p.view.schema := agrees
      rw [if_pos agrees, if_pos agrees']
      cases found : p.view.slots.findIdx? Option.isNone with
      | none => exact ⟨rfl, rfl, rfl, h⟩
      | some slot =>
        have stored : p.view.insert tuple = .ok (⟨p.id, slot⟩, p.view.withSlot slot
            (some { tuple with record := some ⟨p.id, slot⟩ })) := by
          rw [Page.insert_eq, if_pos agrees', found]
          rfl
        obtain ⟨same, paired⟩ := h.withSlot (Page.insert_eq_ok stored).1 fun _ held =>
          Option.some.inj held ▸ fits
        exact ⟨rfl, rfl, same, paired⟩
    · have differs : ¬ tuple.schema.agrees p.view.schema := agrees
      rw [if_neg agrees, if_neg differs]
      exact ⟨rfl, rfl, rfl, h⟩
  | delete tuple =>
    simp only [HeapPage.perform, Page.perform]
    cases hr : tuple.record with
    | none => exact ⟨rfl, rfl, rfl, h⟩
    | some record =>
      have used : p.isUsed record.slot = p.view.isUsed record.slot := h.isUsed_eq record.slot
      rw [delete, Page.delete, used]
      by_cases own : record.page = p.id ∧ p.view.isUsed record.slot
      · have emptied : p.view.delete (some record) = .ok (p.view.withSlot record.slot none) := if_pos own
        obtain ⟨same, paired⟩ := h.withSlot (Page.delete_eq_ok emptied).1 fun _ held =>
          absurd held.symm (Option.some_ne_none _)
        simp only
        rw [if_pos own, if_pos (show record.page = p.view.id ∧ _ from own)]
        exact ⟨rfl, rfl, same, paired⟩
      · simp only
        rw [if_neg own, if_neg (show ¬ (record.page = p.view.id ∧ _) from own)]
        exact ⟨rfl, rfl, rfl, h⟩

/-- What is reached by calls stands for what the same calls reach. -/
theorem Reached.view {id : PageId} {schema : Schema} {image : List UInt8} {p : HeapPage}
    (reached : Reached id schema image p) : Page.Reached id schema image p.view ∧ p.Paired := by
  induction reached with
  | read h =>
    obtain ⟨read, paired⟩ := paired_of_ofImage h
    exact ⟨.read read, paired⟩
  | call call _ fits ih =>
    obtain ⟨-, -, same, paired⟩ := ih.2.perform_view fits
    exact ⟨same ▸ .call call ih.1 fits, paired⟩
  | mark changedBy _ ih =>
    obtain ⟨ih, sound, count, header⟩ := ih
    exact ⟨.mark changedBy ih, ⟨sound.pos, sound.count, sound.bits, sound.typed⟩, count, header⟩

end PagedStore.HeapPage
