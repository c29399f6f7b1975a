import PagedStore.Proofs.Page.Image

/-! Insertion and deletion as a new content of one slot, for an insertion the first free one. -/
namespace PagedStore.Page

theorem tuple?_of_lt {p : Page} {slot : Nat} (inside : slot < p.slots.length) :
    p.tuple? slot = p.slots[slot] := by
  rw [tuple?, List.getElem?_eq_getElem inside, Option.join_some]

theorem lt_of_tuple? {p : Page} {slot : Nat} {tuple : Tuple} (held : p.tuple? slot = some tuple) :
    slot < p.slots.length :=
  (List.getElem?_eq_some_iff.mp (tuple?_eq_some_iff.mp held)).1

structure FirstFree (p : Page) (slot : Nat) : Prop where
  inside : slot < p.slots.length
  free : p.tuple? slot = none
  before : ∀ lower < slot, (p.tuple? lower).isSome

private theorem isSome_tuple?_iff {p : Page} {slot : Nat} (inside : slot < p.slots.length) :
    (p.tuple? slot).isSome ↔ ¬ p.slots[slot].isNone := by
  rw [tuple?_of_lt inside, Option.isNone_iff_eq_none, ← ne_eq, Option.isSome_iff_ne_none]

/-- Where an insertion puts a tuple. -/
theorem findIdx?_eq_some_iff {p : Page} {slot : Nat} :
    p.slots.findIdx? Option.isNone = some slot ↔ p.FirstFree slot := by
  rw [List.findIdx?_eq_some_iff_getElem]
  constructor
  · rintro ⟨inside, free, before⟩
    refine ⟨inside, ?_, fun lower earlier => ?_⟩
    · rwa [tuple?_of_lt inside, ← Option.isNone_iff_eq_none]
    · exact (isSome_tuple?_iff (by omega)).mpr (before lower earlier)
  · rintro ⟨inside, free, before⟩
    refine ⟨inside, ?_, fun lower earlier => ?_⟩
    · rwa [Option.isNone_iff_eq_none, ← tuple?_of_lt inside]
    · exact (isSome_tuple?_iff (by omega)).mp (before lower earlier)

def withSlot (p : Page) (slot : Nat) (content : Option Tuple) : Page :=
  { p with slots := p.slots.set slot content }

theorem tuple?_withSlot {p : Page} {slot : Nat} (inside : slot < p.slots.length)
    (content : Option Tuple) (other : Nat) :
    (p.withSlot slot content).tuple? other = if other = slot then content else p.tuple? other := by
  simp only [tuple?, withSlot, List.getElem?_set]
  by_cases same : slot = other
  · subst same
    simp [inside]
  · simp [same, Ne.symm same]

theorem withSlot_withSlot (p : Page) (slot : Nat) (old content : Option Tuple) :
    (p.withSlot slot old).withSlot slot content = p.withSlot slot content := by
  simp only [withSlot, List.set_set]

/-- A slot may get the content that it has. -/
theorem withSlot_tuple? {p : Page} {slot : Nat} (inside : slot < p.slots.length) :
    p.withSlot slot (p.tuple? slot) = p := by
  rw [withSlot, tuple?_of_lt inside, List.set_getElem_self]

theorem row?_withSlot {p : Page} {slot : Nat} (inside : slot < p.slots.length)
    (content : Option Tuple) (other : Nat) :
    (p.withSlot slot content).row? other =
      if other = slot then content.map Tuple.values else p.row? other := by
  rw [row?, tuple?_withSlot inside]
  split <;> rfl

/-- Whether a record of the page can get a content: a tuple that belongs there if it is free, none if
it is used. -/
structure Takes (p : Page) (record : RecordId) (content : Option Tuple) : Prop where
  page_eq : record.page = p.id
  inside : record.slot < p.slots.length
  turns : (p.tuple? record.slot).isSome = content.isNone
  belongs : ∀ {tuple}, content = some tuple →
    tuple.schema.agrees p.schema ∧ tuple.record = some record

/-- A page stays sound if a slot gets a typed tuple that belongs there, or none. -/
theorem Sound.withSlot {p : Page} (h : p.Sound) {record : RecordId} {content : Option Tuple}
    (takes : p.Takes record content) (typed : ∀ tuple, content = some tuple → tuple.IsTyped) :
    (p.withSlot record.slot content).Sound where
  pos := by
    rw [Page.withSlot, List.length_set]
    exact h.pos
  count := by
    rw [Page.withSlot, List.length_set]
    exact h.count
  bits := by
    rw [Page.withSlot, List.length_set]
    exact h.bits
  typed {other tuple} ht := by
    rw [tuple?_withSlot takes.inside] at ht
    split at ht
    · rename_i same
      obtain ⟨agrees, place⟩ := takes.belongs ht
      refine ⟨typed tuple ht, agrees, ?_⟩
      rw [place, same]
      exact congrArg (fun page => some (RecordId.mk page record.slot)) takes.page_eq
    · exact h.typed ht

/-- An insertion without the tuple that was passed: where the tuple is now, and the page with it. -/
def insert (p : Page) (tuple : Tuple) : Except Fault (RecordId × Page) :=
  (p.put tuple).1.map fun record => (record, (p.put tuple).2.2)

theorem insert_eq (p : Page) (tuple : Tuple) : p.insert tuple =
    if tuple.schema.agrees p.schema then
      match p.slots.findIdx? Option.isNone with
      | none => .error (.pageFull p.id)
      | some slot =>
        .ok (⟨p.id, slot⟩, p.withSlot slot (some { tuple with record := some ⟨p.id, slot⟩ }))
    else .error (.schemaConflict p.id.table) := by
  rw [insert, put]
  split
  · cases p.slots.findIdx? Option.isNone <;> rfl
  · rfl

/-- The tuple that was passed names its record after an insertion, and is as it was after a failed one, as the
page is. -/
theorem put_eq (p : Page) (tuple : Tuple) : p.put tuple =
    match p.insert tuple with
    | .error fault => (.error fault, tuple, p)
    | .ok (record, after) => (.ok record, { tuple with record := some record }, after) := by
  rw [insert, put]
  split
  · cases p.slots.findIdx? Option.isNone <;> rfl
  · rfl

/-- An inserted tuple is in a slot that was free. -/
theorem insert_eq_ok {p after : Page} {tuple : Tuple} {record : RecordId}
    (h : p.insert tuple = .ok (record, after)) :
    p.Takes record (some { tuple with record := some record }) ∧
      after = p.withSlot record.slot (some { tuple with record := some record }) := by
  rw [insert_eq] at h
  split at h
  · rename_i agrees
    split at h
    · cases h
    · rename_i slot found
      cases h
      obtain ⟨inside, free, -⟩ := findIdx?_eq_some_iff.mp found
      refine ⟨⟨rfl, inside, ?_, ?_⟩, rfl⟩
      · rw [free]
        rfl
      · rintro _ ⟨⟩
        exact ⟨agrees, rfl⟩
  · cases h

/-- A tuple of the page's schema goes into a page that has a free slot. -/
theorem exists_insert {p : Page} {tuple : Tuple} (agrees : tuple.schema.agrees p.schema)
    (free : p.freeCount ≠ 0) : ∃ record after, p.insert tuple = .ok (record, after) := by
  cases found : p.slots.findIdx? Option.isNone with
  | none =>
    refine absurd (List.countP_eq_zero.mpr fun content held => ?_) free
    rw [List.findIdx?_eq_none_iff.mp found content held]
    exact Bool.false_ne_true
  | some slot =>
    refine ⟨⟨p.id, slot⟩, p.withSlot slot (some { tuple with record := some ⟨p.id, slot⟩ }), ?_⟩
    rw [insert_eq, if_pos agrees, found]

/-- A deleted record was a used slot of the page. -/
theorem delete_eq_ok {p after : Page} {record : RecordId} (h : p.delete (some record) = .ok after) :
    p.Takes record none ∧ after = p.withSlot record.slot none := by
  simp only [delete] at h
  split at h
  · rename_i used
    cases h
    obtain ⟨tuple, held⟩ := Option.isSome_iff_exists.mp used.2
    exact ⟨⟨used.1, lt_of_tuple? held, used.2, nofun⟩, rfl⟩
  · cases h

@[simp] theorem image_cleaned (p : Page) : p.cleaned.image = p.image :=
  rfl

theorem Sound.changed {p : Page} (h : p.Sound) (txn : TxnId) : (p.changed txn).Sound :=
  ⟨h.pos, h.count, h.bits, h.typed⟩

theorem Sound.cleaned {p : Page} (h : p.Sound) : p.cleaned.Sound :=
  ⟨h.pos, h.count, h.bits, h.typed⟩

end PagedStore.Page
