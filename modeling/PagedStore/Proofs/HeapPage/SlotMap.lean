import PagedStore.Proofs.HeapPage

/-! A page as a map from slots to tuples: the bits of its header mark the slots that the map is defined on, and each
call does to the map, and to the bits, what is said here and nothing else. -/
namespace PagedStore.HeapPage

/-! ### What a page is -/

/-- Whether a page is the map of its slots: the header marks the used ones, each tuple has the types of the
page's schema and is the record of its slot, and the tuples are listed and the free slots are counted as they
are in the map. -/
structure Mapped (p : HeapPage) : Prop where
  marked : ∀ slot < p.count, Bits.bit p.header.toList slot = (p.tuple? slot).isSome
  used : ∀ slot, p.isUsed slot = (p.tuple? slot).isSome
  bounded : ∀ slot tuple, p.tuple? slot = some tuple → slot < p.count
  typed : ∀ slot tuple, p.tuple? slot = some tuple → tuple.values.map Value.type = p.schema.types
  record : ∀ slot tuple, p.tuple? slot = some tuple → tuple.record = some ⟨p.id, slot⟩
  listed : p.tuples = (List.range p.count).filterMap p.tuple?
  free : p.freeCount = (List.range p.count).countP fun slot => (p.tuple? slot).isNone
  counted : p.freeCount + p.tuples.length = p.count

private theorem length_filterMap_add_countP {α β : Type} (f : α → Option β) (l : List α) :
    (l.countP fun a => (f a).isNone) + (l.filterMap f).length = l.length := by
  induction l with
  | nil => rfl
  | cons a l ih => cases h : f a <;> simp [h] <;> omega

private theorem Paired.mapped {p : HeapPage} (h : p.Paired) : p.Mapped := by
  have slots : p.slots = (List.range p.count).map p.tuple? := by
    apply List.ext_getElem (by simp [h.count])
    intro slot inside _
    rw [List.getElem_map, List.getElem_range, tuple?, List.getElem?_eq_getElem inside]
    rfl
  have listed : p.tuples = (List.range p.count).filterMap p.tuple? := by
    rw [tuples]
    conv_lhs => rw [slots]
    exact List.filterMap_map
  have free : p.freeCount = (List.range p.count).countP fun slot => (p.tuple? slot).isNone := by
    refine List.countP_congr fun slot _ => ?_
    rw [h.isUsed_eq]
    cases p.tuple? slot <;> simp
  refine ⟨fun slot inside => ?_, h.isUsed_eq, fun slot tuple held => ?_, fun slot tuple held => ?_,
    fun slot tuple held => (h.sound.typed held).2.2, listed, free, ?_⟩
  · rw [← isSet_getD, ← h.isUsed_eq, isUsed, decide_eq_true inside, Bool.true_and]
  · rw [← h.count]
    exact Page.lt_of_tuple? (p := p.view) held
  · exact (h.sound.typed held).1.trans (Schema.types_eq_of_agrees (h.sound.typed held).2.1)
  · rw [free, listed, length_filterMap_add_countP, List.length_range]

/-! ### What a call does -/

/-- Whether a page differs from another by the content of one slot, and by the bit of that slot in the header. -/
structure Becomes (p : HeapPage) (slot : Nat) (content : Option Tuple) (after : HeapPage) : Prop where
  tuple?_eq : ∀ other, after.tuple? other = if other = slot then content else p.tuple? other
  bit_eq : ∀ i < 8 * p.header.size,
    Bits.bit after.header.toList i = if i = slot then content.isSome else Bits.bit p.header.toList i
  lengths_eq : after.slots.length = p.slots.length ∧ after.header.size = p.header.size
  rest_eq : (after.id, after.schema, after.size, after.count, after.changedBy) =
    (p.id, p.schema, p.size, p.count, p.changedBy)

/-- What a call on a map of slots comes to. A tuple goes into the first free slot; there is none on a full
page, and none for a tuple of another schema. A tuple is deleted if it is the record of a used slot of this
page. A call that fails changes nothing. -/
inductive Outcome (p : HeapPage) : Page.Call → Effect → Prop
  | inserted {tuple : Tuple} {slot : Nat} {after : HeapPage} : tuple.schema.agrees p.schema → slot < p.count →
      p.tuple? slot = none → (∀ lower < slot, (p.tuple? lower).isSome) →
      p.Becomes slot (some { tuple with record := some ⟨p.id, slot⟩ }) after →
      Outcome p (.insert tuple) ⟨none, { tuple with record := some ⟨p.id, slot⟩ }, after⟩
  | full {tuple : Tuple} : tuple.schema.agrees p.schema → (∀ slot < p.count, (p.tuple? slot).isSome) →
      Outcome p (.insert tuple) ⟨some (.pageFull p.id), tuple, p⟩
  | conflict {tuple : Tuple} : ¬ tuple.schema.agrees p.schema →
      Outcome p (.insert tuple) ⟨some (.schemaConflict p.id.table), tuple, p⟩
  | deleted {tuple : Tuple} {slot : Nat} {after : HeapPage} : tuple.record = some ⟨p.id, slot⟩ →
      slot < p.count → (p.tuple? slot).isSome → p.Becomes slot none after →
      Outcome p (.delete tuple) ⟨none, tuple, after⟩
  | missing {tuple : Tuple} :
      (∀ slot < p.count, tuple.record = some ⟨p.id, slot⟩ → p.tuple? slot = none) →
      Outcome p (.delete tuple) ⟨some (.noSuchRecord tuple.record), tuple, p⟩

/-- Pages with the same tuples and the same bits that differ in nothing else are the same. -/
private theorem eq_of_tuple? {p q : HeapPage} (lengths : q.slots.length = p.slots.length)
    (held : ∀ slot, q.tuple? slot = p.tuple? slot) (header : q.header = p.header)
    (rest : (q.id, q.schema, q.size, q.count, q.changedBy) = (p.id, p.schema, p.size, p.count, p.changedBy)) :
    q = p := by
  have slots : q.slots = p.slots := by
    apply List.ext_getElem lengths
    intro slot inside inside'
    have same := held slot
    rwa [tuple?, tuple?, List.getElem?_eq_getElem inside, List.getElem?_eq_getElem inside',
      Option.join_some, Option.join_some] at same
  cases p
  cases q
  simp_all

section Paired
variable {p : HeapPage} (h : p.Paired)
include h

private theorem Paired.size_header : p.header.size = Layout.headerBytes p.count :=
  (congrArg List.length h.header).symm.trans (h.sound.length_header.trans (congrArg _ h.count))

private theorem Paired.lt_bits {slot : Nat} (inside : slot < p.count) : slot < 8 * p.header.size := by
  have room := Layout.le_header_bits p.count
  have long := h.size_header
  omega

private theorem Paired.becomes_iff {slot : Nat} (inside : slot < p.count) {content : Option Tuple}
    {after : HeapPage} : p.Becomes slot content after ↔ after = p.withSlot slot content := by
  have place := h.lt_bits inside
  have within : slot < p.view.slots.length := h.count.symm ▸ inside
  have held (other : Nat) : (p.withSlot slot content).tuple? other =
      if other = slot then content else p.tuple? other :=
    Page.tuple?_withSlot (p := p.view) within content other
  have bits (i : Nat) : Bits.bit (p.withSlot slot content).header.toList i =
      if i = slot then content.isSome else Bits.bit p.header.toList i := by
    rw [show (p.withSlot slot content).header = (p.mark slot content.isSome).header from rfl, mark_header,
      Bits.bit_mark place]
    simp only [eq_comm]
  have long : (p.withSlot slot content).header.size = p.header.size := Array.size_modify
  constructor
  · rintro ⟨tuples, bits', ⟨slots, header⟩, rest⟩
    refine eq_of_tuple? (slots.trans List.length_set.symm) (fun other => ?_) ?_ rest
    · rw [tuples, held]
    · refine Array.toList_inj.mp (Bits.eq_of_bits (header.trans long.symm) fun i within => ?_)
      rw [bits' i (header ▸ within), bits]
  · rintro rfl
    exact ⟨held, fun i _ => bits i, ⟨List.length_set, long⟩, rfl⟩

private theorem Paired.perform_eq {call : Page.Call} {effect : Effect} (outcome : p.Outcome call effect) :
    p.perform call = effect := by
  cases outcome with
  | inserted agrees inside free before becomes =>
    have first := h.find?_eq_some_iff.mpr ⟨h.count.symm ▸ inside, free, before⟩
    rw [(h.becomes_iff inside).mp becomes, perform, insert, if_pos agrees, first]
    rfl
  | full agrees used =>
    rw [perform, insert, if_pos agrees, h.find?_eq_none_iff.mpr used]
    rfl
  | conflict differs =>
    rw [perform, insert, if_neg differs]
    rfl
  | deleted record inside used becomes =>
    rw [(h.becomes_iff inside).mp becomes, perform, record, delete]
    simp only [h.isUsed_eq, used, and_self, if_true]
    rfl
  | @missing tuple free =>
    cases hr : tuple.record with
    | none =>
      rw [perform, hr]
      rfl
    | some r =>
      have unused : ¬ (r.page = p.id ∧ p.isUsed r.slot) := by
        rintro ⟨page, used⟩
        obtain ⟨held, holds⟩ := Option.isSome_iff_exists.mp (h.isUsed_eq r.slot ▸ used)
        rw [free r.slot (h.mapped.bounded _ _ holds) (by rw [hr, ← page])] at holds
        cases holds
      rw [perform, hr, delete]
      simp only [if_neg unused]
      rfl

private theorem Paired.exists_outcome (call : Page.Call) : ∃ effect, p.Outcome call effect := by
  cases call with
  | insert tuple =>
    by_cases agrees : tuple.schema.agrees p.schema
    · cases found : (List.range p.count).find? fun slot => !p.isUsed slot with
      | none => exact ⟨_, .full agrees (h.find?_eq_none_iff.mp found)⟩
      | some slot =>
        obtain ⟨within, free, before⟩ := h.find?_eq_some_iff.mp found
        have inside : slot < p.count := h.count ▸ within
        exact ⟨_, .inserted agrees inside free before ((h.becomes_iff inside).mpr rfl)⟩
    · exact ⟨_, .conflict agrees⟩
  | delete tuple =>
    by_cases found : ∃ slot < p.count, tuple.record = some ⟨p.id, slot⟩ ∧ (p.tuple? slot).isSome
    · obtain ⟨slot, inside, record, used⟩ := found
      exact ⟨_, .deleted record inside used ((h.becomes_iff inside).mpr rfl)⟩
    · refine ⟨_, .missing fun slot inside record => ?_⟩
      rw [← Option.not_isSome_iff_eq_none]
      exact fun used => found ⟨slot, inside, record, used⟩

private theorem Paired.perform_eq_iff {call : Page.Call} {effect : Effect} :
    p.perform call = effect ↔ p.Outcome call effect := by
  constructor
  · rintro rfl
    obtain ⟨effect, outcome⟩ := h.exists_outcome call
    rwa [h.perform_eq outcome]
  · exact h.perform_eq

end Paired

/-- A page that was read from an image and called for tuples in any way is the map of its slots: their
number is that of the image, their header bits mark those that hold a tuple, and the other bits of the header
are those of the image. A call does to the map just what it should do. -/
theorem slots_mapped {id : PageId} {schema : Schema} {image : List UInt8} {p : HeapPage}
    (reached : Reached id schema image p) :
    (p.id = id ∧ p.schema = schema ∧ p.size = image.length ∧
      p.count = Layout.slotCount image.length schema ∧ p.header.size = Layout.headerBytes p.count) ∧
    p.Mapped ∧
    (∀ i, p.count ≤ i → i < 8 * p.header.size → Bits.bit p.header.toList i = Bits.bit image i) ∧
    ∀ call effect, p.perform call = effect ↔ p.Outcome call effect := by
  obtain ⟨viewed, paired⟩ := reached.view
  have stems := viewed.stems
  refine ⟨⟨stems.id_eq, stems.schema_eq, stems.size_eq, ?_, paired.size_header⟩, paired.mapped,
    fun i beyond inside => ?_, fun _ _ => paired.perform_eq_iff⟩
  · rw [← paired.count]
    have count := stems.sound.count
    rwa [stems.size_eq, stems.schema_eq] at count
  · rw [← paired.header]
    refine stems.spare i (Nat.le_trans (Nat.le_of_eq paired.count) beyond) ?_
    rw [paired.size_header, ← paired.count] at inside
    exact inside

private def sampleRead : HeapPage :=
  ⟨⟨1, 0⟩, Page.textSchema, 267, 2, #[0xFE],
    [none, some { Page.Reached.textRow "a" with record := some ⟨⟨1, 0⟩, 1⟩ }], none⟩

private def sample : HeapPage :=
  ((sampleRead.perform (.insert (Page.Reached.textRow Page.Reached.longText))).page.perform
    (.insert (Page.Reached.textRow "y"))).page

/-- A full page keeps the spare bits of its image, and has no room for one more tuple. -/
theorem slots_mapped_full : Reached ⟨1, 0⟩ Page.textSchema Page.Reached.sampleImage sample ∧
    sample.count = 2 ∧ sample.Mapped ∧ Bits.bit sample.header.toList 7 ∧
    sample.perform (.insert (Page.Reached.textRow "z")) =
      ⟨some (.pageFull ⟨1, 0⟩), Page.Reached.textRow "z", sample⟩ := by
  have reached : Reached ⟨1, 0⟩ Page.textSchema Page.Reached.sampleImage sample :=
    .call (.insert (Page.Reached.textRow "y"))
      (.call (.insert (Page.Reached.textRow Page.Reached.longText)) (.read (by decide +kernel)) rfl) rfl
  obtain ⟨⟨name, -, -, count, long⟩, mapped, spare, calls⟩ := slots_mapped reached
  have two : sample.count = 2 := count.trans (by decide +kernel)
  refine ⟨reached, two, mapped, ?bit, ?full⟩
  case bit =>
    rw [spare 7 (by omega) (by rw [long, two]; decide)]
    decide +kernel
  case full =>
    have full : ∀ slot < sample.count, (sample.tuple? slot).isSome := by
      decide +kernel
    rw [(calls _ _).mpr (.full (by decide +kernel) full), name]

end PagedStore.HeapPage
