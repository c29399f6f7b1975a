import PagedStore.Page
import PagedStore.Proofs.Page.Layout
import PagedStore.Proofs.Tuple.Codec

/-! Pages and their images: a page comes back from its image as storage keeps it. -/
namespace PagedStore

section Attempts
variable {ε α β : Type} {f : α → Except ε β}

private theorem mapM_cons_eq_ok_iff {a : α} {l : List α}
    {out : List β} : (a :: l).mapM f = .ok out ↔
      ∃ b bs, f a = .ok b ∧ l.mapM f = .ok bs ∧ out = b :: bs := by
  rw [List.mapM_cons]
  cases f a with
  | error fault => simp [bind, Except.bind]
  | ok b => cases l.mapM f <;> simp [bind, Except.bind, pure, Except.pure, eq_comm]

private theorem mapM_cons_eq_error_iff {a : α} {l : List α} {fault : ε} :
    (a :: l).mapM f = .error fault ↔
      f a = .error fault ∨ ∃ b, f a = .ok b ∧ l.mapM f = .error fault := by
  rw [List.mapM_cons]
  cases f a with
  | error cause => simp [bind, Except.bind]
  | ok b => cases l.mapM f <;> simp [bind, Except.bind, pure, Except.pure]

/-- All of a list is done if each of its elements is. -/
theorem mapM_eq_ok_iff {l : List α} {out : List β} : l.mapM f = .ok out ↔
    out.length = l.length ∧ ∀ (i : Nat) a b, l[i]? = some a → out[i]? = some b → f a = .ok b := by
  induction l generalizing out with
  | nil => cases out <;> simp [pure, Except.pure]
  | cons a l ih =>
    rw [mapM_cons_eq_ok_iff]
    constructor
    · rintro ⟨b, bs, hb, hbs, rfl⟩
      obtain ⟨long, all⟩ := ih.mp hbs
      refine ⟨congrArg Nat.succ long, ?_⟩
      intro i a' b' ha hb'
      cases i with
      | zero =>
        cases ha
        cases hb'
        exact hb
      | succ i => exact all i a' b' ha hb'
    · rintro ⟨long, all⟩
      cases out with
      | nil => cases long
      | cons b bs =>
        exact ⟨b, bs, all 0 a b rfl rfl,
          ih.mpr ⟨Nat.succ.inj long, fun i a' b' ha hb => all (i + 1) a' b' ha hb⟩, rfl⟩

theorem mapM_congr {g : α → Except ε β} {l : List α} (same : ∀ a ∈ l, f a = g a) :
    l.mapM f = l.mapM g := by
  induction l with
  | nil => rfl
  | cons a l ih =>
    rw [List.mapM_cons, List.mapM_cons, same a List.mem_cons_self,
      ih fun b listed => same b (List.mem_cons_of_mem a listed)]

/-- A list can be done if each of its elements can. -/
theorem exists_mapM_ok_iff {l : List α} : (∃ out, l.mapM f = .ok out) ↔ ∀ a ∈ l, ∃ b, f a = .ok b := by
  induction l with
  | nil => simp [pure, Except.pure]
  | cons a l ih =>
    simp only [mapM_cons_eq_ok_iff, List.forall_mem_cons, ← ih]
    exact ⟨fun ⟨_, b, bs, hb, hbs, _⟩ => ⟨⟨b, hb⟩, bs, hbs⟩, fun ⟨⟨b, hb⟩, bs, hbs⟩ => ⟨_, b, bs, hb, hbs, rfl⟩⟩

/-- A list fails where the first of its elements does. -/
theorem mapM_eq_error_iff {l : List α} {fault : ε} : l.mapM f = .error fault ↔
    ∃ (i : Nat) (a : α), l[i]? = some a ∧ f a = .error fault ∧
      ∀ j < i, ∀ b, l[j]? = some b → ∃ c, f b = .ok c := by
  induction l with
  | nil => simp [pure, Except.pure]
  | cons a l ih =>
    rw [mapM_cons_eq_error_iff, ih]
    constructor
    · rintro (failed | ⟨c, done, i, b, hb, failed, before⟩)
      · exact ⟨0, a, rfl, failed, fun j none_before => absurd none_before (Nat.not_lt_zero j)⟩
      · refine ⟨i + 1, b, hb, failed, fun j earlier other hj => ?_⟩
        cases j with
        | zero =>
          cases hj
          exact ⟨c, done⟩
        | succ j => exact before j (Nat.lt_of_succ_lt_succ earlier) other hj
    · rintro ⟨i, b, hb, failed, before⟩
      cases i with
      | zero =>
        cases hb
        exact .inl failed
      | succ i =>
        obtain ⟨c, done⟩ := before 0 (Nat.succ_pos i) a rfl
        exact .inr ⟨c, done, i, b, hb, failed,
          fun j earlier other hj => before (j + 1) (Nat.succ_lt_succ earlier) other hj⟩

end Attempts

namespace Page

def row? (p : Page) (slot : Nat) : Option (List Value) :=
  (p.tuple? slot).map Tuple.values

/-- Whether a page is as reading and updating leave pages: it has the slots and the header that its
size and schema make up, and its tuples are typed and know where they are. -/
structure Sound (p : Page) : Prop where
  pos : 0 < p.slots.length
  count : p.slots.length = Layout.slotCount p.size p.schema
  bits : p.slots.length + p.spare.length = 8 * Layout.headerBytes p.slots.length
  typed : ∀ {slot tuple}, p.tuple? slot = some tuple →
    tuple.IsTyped ∧ tuple.schema.agrees p.schema ∧ tuple.record = some ⟨p.id, slot⟩

/-- The page as storage keeps it: clean, and each tuple as storage keeps it, of the page's schema. -/
def stored (p : Page) : Page :=
  { p with
    slots := p.slots.map (Option.map fun tuple => { tuple.stored with schema := p.schema })
    changedBy := none }

theorem tuple?_eq_some_iff {p : Page} {slot : Nat} {tuple : Tuple} :
    p.tuple? slot = some tuple ↔ p.slots[slot]? = some (some tuple) := by
  rw [tuple?, Option.join_eq_some_iff]

@[simp] theorem row?_stored (p : Page) (slot : Nat) :
    p.stored.row? slot = (p.row? slot).map (List.map Value.stored) := by
  simp only [row?, tuple?, stored, List.getElem?_map]
  cases p.slots[slot]? with
  | none => rfl
  | some content => cases content <;> rfl

@[simp] theorem header_stored (p : Page) : p.stored.header = p.header := by
  simp [header, stored, Function.comp_def]

@[simp] theorem image_stored (p : Page) : p.stored.image = p.image := by
  have slots : p.stored.slots.flatMap p.stored.slotImage = p.slots.flatMap p.slotImage := by
    rw [stored, List.flatMap_map]
    congr 1
    funext content
    cases content with
    | none => rfl
    | some tuple => exact tuple.encode_stored
  rw [image, image, body, body, header_stored, slots]
  rfl

section Chunks
variable {α β : Type} {f : α → List β} {width : Nat} {l : List α}

theorem length_chunks (h : ∀ a ∈ l, (f a).length = width) :
    (l.flatMap f).length = l.length * width := by
  induction l with
  | nil => simp
  | cons a l ih =>
    rw [List.flatMap_cons, List.length_append, h a List.mem_cons_self,
      ih fun b hb => h b (List.mem_cons_of_mem a hb), List.length_cons, Nat.succ_mul, Nat.add_comm]

private theorem drop_chunks (h : ∀ a ∈ l, (f a).length = width) (i : Nat) :
    (l.flatMap f).drop (i * width) = (l.drop i).flatMap f := by
  induction l generalizing i with
  | nil => simp
  | cons a l ih =>
    cases i with
    | zero => simp
    | succ i =>
      have ha := h a List.mem_cons_self
      rw [List.flatMap_cons, List.drop_succ_cons, ← ih (fun b hb => h b (List.mem_cons_of_mem a hb)) i,
        List.drop_append, ha, Nat.succ_mul, List.drop_of_length_le (by omega), List.nil_append,
        Nat.add_sub_cancel]

private theorem take_drop_chunks (h : ∀ a ∈ l, (f a).length = width) {i : Nat} {a : α}
    (hi : l[i]? = some a) (rest : List β) :
    ((l.flatMap f ++ rest).drop (i * width)).take width = f a := by
  obtain ⟨inside, rfl⟩ := List.getElem?_eq_some_iff.mp hi
  have long := length_chunks h
  have room : i * width ≤ (l.flatMap f).length := by
    rw [long]
    exact Nat.mul_le_mul_right width (Nat.le_of_lt inside)
  rw [List.drop_append_of_le_length room, drop_chunks h, List.drop_eq_getElem_cons inside,
    List.flatMap_cons, List.append_assoc, List.take_left' (h _ (List.getElem_mem inside))]

end Chunks

theorem slotBytes_eq (schema : Schema) (slots slot : Nat) (image : List UInt8) :
    Layout.slotBytes schema slots image.toArray slot =
      (image.drop (Layout.headerBytes slots + slot * schema.width)).take schema.width := by
  simp [Layout.slotBytes]

namespace Sound
variable {p : Page} (h : p.Sound)
include h

theorem length_header : p.header.length = Layout.headerBytes p.slots.length := by
  have := h.bits
  rw [header, Bits.length_toBytes, List.length_append, List.length_map]
  omega

theorem ofBytes_header : Bits.ofBytes p.header = p.slots.map Option.isSome ++ p.spare := by
  apply Bits.ofBytes_toBytes
  have := h.bits
  rw [List.length_append, List.length_map]
  omega

theorem length_slotImage {content : Option Tuple} (held : content ∈ p.slots) :
    (p.slotImage content).length = p.schema.width := by
  cases content with
  | none => exact List.length_replicate
  | some tuple =>
    obtain ⟨slot, hs⟩ := List.mem_iff_getElem?.mp held
    obtain ⟨typed, agrees, -⟩ := h.typed (tuple?_eq_some_iff.mpr hs)
    rw [slotImage, typed.length_encode, Schema.width_eq_of_agrees agrees]

theorem length_body :
    p.body.length = Layout.headerBytes p.slots.length + p.slots.length * p.schema.width := by
  rw [body, List.length_append, h.length_header, length_chunks fun _ => h.length_slotImage]

private theorem length_body_le : p.body.length ≤ p.size := by
  have room := Layout.header_add_slots_le p.size p.schema
  rw [← h.count] at room
  rw [h.length_body]
  exact room

/-- The image of a page has the page's size. -/
theorem length_image : p.image.length = p.size := by
  have := h.length_body_le
  rw [image, List.length_append, List.length_replicate]
  omega

theorem take_header : p.image.take (Layout.headerBytes p.slots.length) = p.header := by
  rw [image, body, List.append_assoc, List.take_left' h.length_header]

private theorem slotBytes_image {slot : Nat} {content : Option Tuple} (hs : p.slots[slot]? = some content) :
    Layout.slotBytes p.schema p.slots.length p.image.toArray slot = p.slotImage content := by
  rw [slotBytes_eq, ← h.length_header, ← List.drop_drop, image, body, List.append_assoc,
    List.drop_left]
  exact take_drop_chunks (fun _ => h.length_slotImage) hs _

end Sound

private theorem readSlots_eq_ok_iff {id : PageId} {schema : Schema} {slotBytes : Nat → List UInt8}
    {marks : List Bool} {slots : List (Option Tuple)} :
    readSlots id schema slotBytes marks = .ok slots ↔ slots.length = marks.length ∧
      ∀ slot used content, marks[slot]? = some used → slots[slot]? = some content →
        readSlot id schema slotBytes used slot = .ok content := by
  rw [readSlots, mapM_eq_ok_iff, List.length_zipIdx]
  refine and_congr_right fun _ => ⟨fun all slot used content hu hc => ?_, ?_⟩
  · exact all slot (used, slot) content (by rw [List.getElem?_zipIdx, hu, Nat.zero_add]; rfl) hc
  · rintro all slot ⟨used, place⟩ content hm hc
    rw [List.getElem?_zipIdx, Nat.zero_add, Option.map_eq_some_iff] at hm
    obtain ⟨_, hu, he⟩ := hm
    cases he
    exact all slot used content hu hc

/-- The image of a page shows the page as storage keeps it. -/
theorem Sound.ofImage_image {p : Page} (h : p.Sound) :
    ofImage p.id p.schema p.image = .ok p.stored := by
  have some_slots : ¬ Layout.slotCount p.size p.schema = 0 := by
    rw [← h.count]
    exact Nat.ne_of_gt h.pos
  have read : readSlots p.id p.schema
      (Layout.slotBytes p.schema p.slots.length p.image.toArray) (p.slots.map Option.isSome) =
        .ok p.stored.slots := by
    rw [readSlots_eq_ok_iff]
    refine ⟨by simp [stored], ?_⟩
    intro slot used content hu hc
    rw [List.getElem?_map, Option.map_eq_some_iff] at hu
    obtain ⟨held, hs, rfl⟩ := hu
    rw [stored, List.getElem?_map, hs] at hc
    cases hc
    cases held with
    | none => rfl
    | some tuple =>
      obtain ⟨typed, agrees, record⟩ := h.typed (tuple?_eq_some_iff.mpr hs)
      have back := typed.decode_encode_append agrees []
      rw [List.append_nil] at back
      simp [readSlot, h.slotBytes_image hs, slotImage, back, Tuple.stored, record]
  rw [ofImage]
  simp only [h.length_image]
  rw [if_neg some_slots, ← h.count, h.take_header, h.ofBytes_header, List.take_left' (List.length_map _),
    List.drop_left' (List.length_map _), read]
  rfl

private theorem ofBytes_blank (n : Nat) :
    Bits.ofBytes (List.replicate n 0) = List.replicate (8 * n) false := by
  induction n with
  | zero => rfl
  | succ n ih =>
    rw [List.replicate_succ, Bits.ofBytes, List.flatMap_cons]
    exact (congrArg (List.replicate 8 false ++ ·) ih).trans (by
      rw [List.replicate_append_replicate, Nat.mul_succ, Nat.add_comm])

/-- A blank image shows a page without tuples. -/
theorem ofImage_blankImage (id : PageId) {schema : Schema} {size : Nat}
    (fits : 0 < Layout.slotCount size schema) :
    ∃ p, ofImage id schema (blankImage size) = .ok p ∧ ∀ slot, p.tuple? slot = none := by
  have read (slotBytes : Nat → List UInt8) (count : Nat) :
      readSlots id schema slotBytes (List.replicate count false) = .ok (List.replicate count none) := by
    rw [readSlots_eq_ok_iff]
    refine ⟨by simp, ?_⟩
    intro slot used content hu hc
    rw [List.getElem?_replicate] at hu hc
    split at hu
    · cases hu
      rw [if_pos (by assumption)] at hc
      cases hc
      rfl
    · cases hu
  rw [ofImage]
  simp only [blankImage, List.length_replicate, List.take_replicate, ofBytes_blank, read]
  rw [if_neg (Nat.ne_of_gt fits)]
  refine ⟨_, rfl, ?_⟩
  intro slot
  simp only [tuple?, List.getElem?_replicate]
  split <;> rfl

/-- What an accepted image shows: a clean page of that name, schema and size, which storage keeps
whole. -/
structure Shown (id : PageId) (schema : Schema) (size : Nat) (p : Page) : Prop where
  sound : p.Sound
  id_eq : p.id = id
  schema_eq : p.schema = schema
  size_eq : p.size = size
  clean : p.changedBy = none
  kept : p.stored = p

private theorem eq_of_readSlot {id : PageId} {schema : Schema} {slotBytes : Nat → List UInt8}
    {used : Bool} {slot : Nat} {tuple : Tuple}
    (h : readSlot id schema slotBytes used slot = .ok (some tuple)) :
    tuple.schema = schema ∧ tuple.IsTyped ∧ tuple.record = some ⟨id, slot⟩ ∧ tuple.stored = tuple := by
  rw [readSlot] at h
  split at h
  · split at h
    · cases h
    · rename_i hd
      cases h
      obtain ⟨hs, ht, hk⟩ := Tuple.eq_of_decode hd
      refine ⟨hs, ht, rfl, ?_⟩
      simp only [Tuple.stored]
      exact congrArg (fun t : Tuple => { t with record := some ⟨id, slot⟩ }) hk
  · cases h

/-- A page read from an image is sound, and storage keeps all of it. -/
theorem shown_of_ofImage {id : PageId} {schema : Schema} {image : List UInt8} {p : Page}
    (h : ofImage id schema image = .ok p) : Shown id schema image.length p := by
  rw [ofImage] at h
  simp only at h
  split at h
  · cases h
  · rename_i some_slots
    have room := Layout.header_add_slots_le image.length schema
    have many := Layout.le_header_bits (Layout.slotCount image.length schema)
    have marked : (Bits.ofBytes (image.take (Layout.headerBytes
        (Layout.slotCount image.length schema)))).length =
          8 * Layout.headerBytes (Layout.slotCount image.length schema) := by
      rw [Bits.length_ofBytes, List.length_take, Nat.min_eq_left (by omega)]
    split at h
    · cases h
    · rename_i slots read
      cases h
      rw [readSlots_eq_ok_iff, List.length_take, marked, Nat.min_eq_left many] at read
      obtain ⟨count, all⟩ := read
      have tuples {slot : Nat} {tuple : Tuple} (hs : slots[slot]? = some (some tuple)) :
          tuple.schema = schema ∧ tuple.IsTyped ∧ tuple.record = some ⟨id, slot⟩ ∧
            tuple.stored = tuple := by
        have inside := (List.getElem?_eq_some_iff.mp hs).1
        refine eq_of_readSlot (all slot _ _ (List.getElem?_eq_getElem ?_) hs)
        rw [List.length_take, marked, Nat.min_eq_left many]
        omega
      refine ⟨⟨?_, count, ?_, ?_⟩, rfl, rfl, rfl, rfl, ?_⟩
      · show 0 < slots.length
        omega
      · show slots.length + List.length _ = _
        rw [List.length_drop, marked, count]
        omega
      · intro slot tuple ht
        obtain ⟨hs, typed, record, -⟩ := tuples (tuple?_eq_some_iff.mp ht)
        refine ⟨typed, ?_, record⟩
        rw [hs]
        exact beq_self_eq_true _
      · simp only [stored, mk.injEq, true_and, and_true]
        apply List.ext_getElem?
        intro slot
        rw [List.getElem?_map]
        cases hs : slots[slot]? with
        | none => rfl
        | some content =>
          cases content with
          | none => rfl
          | some tuple =>
            obtain ⟨same, -, -, kept⟩ := tuples hs
            simp only [Option.map_some, kept]
            rw [← same]

/-! ### Tuples in slot order -/

theorem mem_tuples {p : Page} {tuple : Tuple} :
    tuple ∈ p.tuples ↔ ∃ slot, p.tuple? slot = some tuple := by
  simp only [tuple?_eq_some_iff, ← List.mem_iff_getElem?]
  simp [tuples]

/-- The tuples of a sound page are those in its slots, as records of the slots. -/
theorem Sound.mem_tuples_iff {p : Page} (h : p.Sound) {tuple : Tuple} :
    tuple ∈ p.tuples ↔ ∃ slot, p.tuple? slot = some tuple ∧ tuple.record = some ⟨p.id, slot⟩ := by
  rw [mem_tuples]
  exact exists_congr fun slot => ⟨fun held => ⟨held, (h.typed held).2.2⟩, And.left⟩

/-- A sound page yields the rows in its slots, as records of the slots. -/
theorem Sound.row?_eq_some_iff {p : Page} (h : p.Sound) {slot : Nat} {values : List Value} :
    p.row? slot = some values ↔
      ∃ tuple ∈ p.tuples, tuple.record = some ⟨p.id, slot⟩ ∧ tuple.values = values := by
  rw [row?, Option.map_eq_some_iff]
  constructor
  · rintro ⟨tuple, held, rfl⟩
    exact ⟨tuple, mem_tuples.mpr ⟨slot, held⟩, (h.typed held).2.2, rfl⟩
  · rintro ⟨tuple, listed, record, rfl⟩
    obtain ⟨other, held, own⟩ := h.mem_tuples_iff.mp listed
    cases own.symm.trans record
    exact ⟨tuple, held, rfl⟩

private theorem Sound.pairwise_tuples {p : Page} (h : p.Sound) :
    p.tuples.Pairwise fun a b => ∃ slot slot', slot < slot' ∧ a.record = some ⟨p.id, slot⟩ ∧
      b.record = some ⟨p.id, slot'⟩ := by
  rw [tuples, List.pairwise_filterMap, List.pairwise_iff_getElem]
  intro i j hi hj before a ha b hb
  have record {slot : Nat} {tuple : Tuple} (inside : slot < p.slots.length)
      (held : p.slots[slot] = some tuple) : tuple.record = some ⟨p.id, slot⟩ :=
    (h.typed (tuple?_eq_some_iff.mpr (List.getElem?_eq_some_iff.mpr ⟨inside, held⟩))).2.2
  exact ⟨i, j, before, record hi ha, record hj hb⟩

/-- Whether both tuples are records, of which the first is on an earlier page or in an earlier slot of the
same page. -/
def InOrder (a b : Tuple) : Prop :=
  ∃ r r' : RecordId, a.record = some r ∧ b.record = some r' ∧
    (r.page.number < r'.page.number ∨ r.page = r'.page ∧ r.slot < r'.slot)

/-- The tuples of several pages are in order if the pages are. -/
theorem pairwise_inOrder {pages : List Page} (sound : ∀ page ∈ pages, page.Sound)
    (ascending : pages.Pairwise fun p q => p.id.number < q.id.number) :
    (pages.flatMap tuples).Pairwise InOrder := by
  rw [List.pairwise_flatMap]
  refine ⟨fun page listed => (sound page listed).pairwise_tuples.imp ?_, ascending.imp_of_mem ?_⟩
  · rintro a b ⟨slot, slot', less, record, record'⟩
    exact ⟨_, _, record, record', .inr ⟨rfl, less⟩⟩
  · intro page other listed listed' less a ha b hb
    obtain ⟨slot, -, record⟩ := (sound page listed).mem_tuples_iff.mp ha
    obtain ⟨slot', -, record'⟩ := (sound other listed').mem_tuples_iff.mp hb
    exact ⟨_, _, record, record', .inl less⟩

/-- The tuples of several pages are records of their own. -/
theorem nodup_records {pages : List Page} (sound : ∀ page ∈ pages, page.Sound)
    (distinct : (pages.map id).Nodup) : ((pages.flatMap tuples).map Tuple.record).Nodup := by
  rw [List.Nodup, List.pairwise_map, List.pairwise_flatMap]
  rw [List.Nodup, List.pairwise_map] at distinct
  refine ⟨fun page listed => (sound page listed).pairwise_tuples.imp ?_, distinct.imp_of_mem ?_⟩
  · rintro a b ⟨slot, slot', less, record, record'⟩ same
    cases record.symm.trans (same.trans record')
    exact Nat.lt_irrefl _ less
  · intro page other listed listed' different a ha b hb same
    obtain ⟨slot, -, record⟩ := (sound page listed).mem_tuples_iff.mp ha
    obtain ⟨slot', -, record'⟩ := (sound other listed').mem_tuples_iff.mp hb
    rw [record, record'] at same
    exact different (congrArg RecordId.page (Option.some.inj same))

end Page

end PagedStore
