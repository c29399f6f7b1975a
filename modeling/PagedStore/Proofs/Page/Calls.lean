import PagedStore.Proofs.Page.Acceptance
import PagedStore.Proofs.Page.Update

/-! Pages in use: what can be asked of a page, and what holds of all pages that an image and any calls lead
to, failing ones included. -/
namespace PagedStore.Page

inductive Call where
  | insert (tuple : Tuple)
  | delete (tuple : Tuple)

def Call.Fits : Call → Prop
  | insert tuple => tuple.IsTyped
  | delete _ => True

/-- What comes of a call: the fault, if it has failed, and the tuple that was passed and the page after it. -/
structure Effect where
  fault : Option Fault
  tuple : Tuple
  page : Page

def faultOf {α : Type} : Except Fault α → Option Fault
  | .ok _ => none
  | .error fault => some fault

def perform (p : Page) : Call → Effect
  | .insert tuple =>
    let (result, tuple, after) := p.put tuple
    ⟨faultOf result, tuple, after⟩
  | .delete tuple =>
    match p.delete tuple.record with
    | .ok after => ⟨none, tuple, after⟩
    | .error fault => ⟨some fault, tuple, p⟩

/-- The pages that an image leads to by calls, and by marks of who has changed the page. -/
inductive Reached (id : PageId) (schema : Schema) (image : List UInt8) : Page → Prop
  | read {p : Page} : ofImage id schema image = .ok p → Reached id schema image p
  | call {p : Page} (call : Call) : Reached id schema image p → call.Fits →
      Reached id schema image (p.perform call).page
  | mark {p : Page} (changedBy : Option TxnId) : Reached id schema image p →
      Reached id schema image { p with changedBy }

theorem perform_insert (p : Page) (tuple : Tuple) : p.perform (.insert tuple) =
    match p.insert tuple with
    | .ok (record, after) => ⟨none, { tuple with record := some record }, after⟩
    | .error fault => ⟨some fault, tuple, p⟩ := by
  rw [perform, put_eq]
  cases p.insert tuple <;> rfl

/-- A call leaves the page as it is or gives one slot a content that belongs there. -/
private theorem perform_cases (p : Page) {call : Call} (fits : call.Fits) :
    (p.perform call).page = p ∨ ∃ record content, p.Takes record content ∧
      (∀ tuple, content = some tuple → tuple.IsTyped) ∧
      (p.perform call).page = p.withSlot record.slot content := by
  cases call with
  | insert tuple =>
    cases stored : p.insert tuple with
    | error fault => exact .inl (by rw [perform_insert, stored])
    | ok result =>
      obtain ⟨takes, he⟩ := insert_eq_ok stored
      refine .inr ⟨_, _, takes, ?_, by rw [perform_insert, stored]; exact he⟩
      rintro _ ⟨⟩
      exact fits
  | delete tuple =>
    cases emptied : p.delete tuple.record with
    | error fault => exact .inl (by rw [perform, emptied])
    | ok after =>
      cases hr : tuple.record with
      | none => rw [hr] at emptied; cases emptied
      | some record =>
        rw [hr] at emptied
        obtain ⟨takes, he⟩ := delete_eq_ok emptied
        exact .inr ⟨_, _, takes, nofun, by rw [perform, hr, emptied]; exact he⟩

private theorem Sound.whole {p : Page} (h : p.Sound) :
    (p.slots.map Option.isSome ++ p.spare).length % 8 = 0 := by
  have := h.bits
  rw [List.length_append, List.length_map]
  omega

/-- A bit of the header tells whether its slot is used; beyond the slots are the spare bits. -/
private theorem Sound.bit_header {p : Page} (h : p.Sound) {i : Nat} (inside : i < 8 * p.header.length) :
    some (Bits.bit p.header i) = (p.slots.map Option.isSome ++ p.spare)[i]? := by
  rw [← h.ofBytes_header, Bits.getElem?_ofBytes inside]

/-- The header marks the used slots. -/
theorem Sound.marked {p : Page} (h : p.Sound) {slot : Nat} (inside : slot < p.slots.length) :
    Bits.bit p.header slot = (p.tuple? slot).isSome := by
  have room := Layout.le_header_bits p.slots.length
  apply Option.some.inj
  rw [h.bit_header (by rw [h.length_header]; omega), List.getElem?_append_left (by rwa [List.length_map]),
    List.getElem?_map, List.getElem?_eq_getElem inside, tuple?_of_lt inside]
  rfl

/-- A new content of a slot is marked in the header. -/
theorem Sound.header_withSlot {p : Page} (h : p.Sound) {slot : Nat} (inside : slot < p.slots.length)
    (content : Option Tuple) :
    (p.withSlot slot content).header = Bits.mark p.header slot content.isSome := by
  have room : slot < (p.slots.map Option.isSome ++ p.spare).length := by
    rw [List.length_append, List.length_map]
    omega
  -- The bits of the slots come first, so that a change among them is one of all the bits.
  rw [header, header, ← Bits.toBytes_set h.whole room, List.set_append_left _ _ (by rwa [List.length_map]),
    Page.withSlot, List.map_set]

structure Stems (id : PageId) (schema : Schema) (image : List UInt8) (p : Page) : Prop where
  sound : p.Sound
  id_eq : p.id = id
  schema_eq : p.schema = schema
  size_eq : p.size = image.length
  spare : ∀ i, p.slots.length ≤ i → i < 8 * Layout.headerBytes p.slots.length →
    Bits.bit p.header i = Bits.bit image i

namespace Stems
variable {id : PageId} {schema : Schema} {image : List UInt8} {p : Page}

private theorem withSlot (h : Stems id schema image p) {record : RecordId} {content : Option Tuple}
    (takes : p.Takes record content) (typed : ∀ tuple, content = some tuple → tuple.IsTyped) :
    Stems id schema image (p.withSlot record.slot content) where
  sound := h.sound.withSlot takes typed
  id_eq := h.id_eq
  schema_eq := h.schema_eq
  size_eq := h.size_eq
  spare i beyond inside := by
    have count : (p.withSlot record.slot content).slots.length = p.slots.length := List.length_set
    have := takes.inside
    rw [count] at beyond inside
    rw [h.sound.header_withSlot takes.inside, Bits.bit_mark (by rw [h.sound.length_header]; omega),
      if_neg (by omega), h.spare i beyond inside]

end Stems

private theorem stems_of_ofImage {id : PageId} {schema : Schema} {image : List UInt8} {p : Page}
    (h : ofImage id schema image = .ok p) : Stems id schema image p := by
  have shown := shown_of_ofImage h
  obtain ⟨count, -, header⟩ := slots_of_ofImage h
  refine ⟨shown.sound, shown.id_eq, shown.schema_eq, shown.size_eq, fun i _ inside => ?_⟩
  rw [header, ← count, Bits.bit_take _ inside]

/-- Whatever is asked of a page, it keeps what it has of the image. -/
theorem Reached.stems {id : PageId} {schema : Schema} {image : List UInt8} {p : Page}
    (reached : Reached id schema image p) : Stems id schema image p := by
  induction reached with
  | read h => exact stems_of_ofImage h
  | call call _ fits ih =>
    rcases perform_cases _ fits with same | ⟨record, content, takes, typed, he⟩
    · rwa [same]
    · rw [he]
      exact ih.withSlot takes typed
  | mark changedBy _ ih => exact ⟨⟨ih.sound.pos, ih.sound.count, ih.sound.bits, ih.sound.typed⟩, ih.id_eq,
      ih.schema_eq, ih.size_eq, ih.spare⟩

/-! ### A sample -/

namespace Reached

def textRow (content : String) : Tuple :=
  ⟨textSchema, [.text content], none⟩

def longText : String :=
  String.ofList (List.replicate 127 'x') ++ "é"

/-- The image of a page of two texts: the first slot is free, the second one has padding that is not zero, all
spare bits of the header are set, and two bytes are left over. -/
def sampleImage : List UInt8 :=
  0xFE :: List.replicate 132 0xAA ++ [0, 0, 0, 1, 0x61] ++ List.replicate 127 0xBB ++ [0xCC, 0xCC]

def sampleRead : Page :=
  ⟨⟨1, 0⟩, textSchema, 267, [none, some { textRow "a" with record := some ⟨⟨1, 0⟩, 1⟩ }],
    List.replicate 6 true, none⟩

/-- The page after the insertion of a text that is too long to be stored whole, and of another one for which
there is no room. -/
def sample : Page :=
  ((sampleRead.perform (.insert (textRow longText))).page.perform (.insert (textRow "y"))).page

theorem of_sampleRead : Reached ⟨1, 0⟩ textSchema sampleImage sampleRead :=
  .read (by decide +kernel)

theorem of_sample : Reached ⟨1, 0⟩ textSchema sampleImage sample :=
  .call (.insert (textRow "y")) (.call (.insert (textRow longText)) of_sampleRead rfl) rfl

end Reached

end PagedStore.Page
