import Mathlib.Data.List.Forall2
import PagedStore.Proofs.Page.Calls

/-! Writing a page and reading it again: what comes back, and that a second time changes nothing. -/
namespace PagedStore

/-- What a tuple has become in storage: it is the same record, of the same types, and its texts are cut where
they are too long. -/
structure Tuple.Kept (t kept : Tuple) : Prop where
  record_eq : kept.record = t.record
  agrees : kept.schema.agrees t.schema
  values : List.Forall₂ Value.Kept t.values kept.values

namespace Page

/-- Whether a page is what another has become in storage: it has the same name, schema and size, the same
used slots and spare bits, and each slot holds what storage keeps of its tuple. -/
structure Reread (p again : Page) : Prop where
  id_eq : again.id = p.id
  schema_eq : again.schema = p.schema
  size_eq : again.size = p.size
  header_eq : again.header = p.header
  slots : ∀ slot, Option.Rel Tuple.Kept (p.tuple? slot) (again.tuple? slot)

private theorem tuple?_stored (p : Page) (slot : Nat) :
    p.stored.tuple? slot = (p.tuple? slot).map fun tuple => { tuple.stored with schema := p.schema } := by
  rw [tuple?, tuple?, stored, List.getElem?_map]
  rcases p.slots[slot]? with _ | _ | tuple <;> rfl

private theorem Sound.reread_stored {p : Page} (h : p.Sound) : p.Reread p.stored where
  id_eq := rfl
  schema_eq := rfl
  size_eq := rfl
  header_eq := p.header_stored
  slots slot := by
    rw [tuple?_stored]
    cases held : p.tuple? slot with
    | none => exact .none
    | some tuple =>
      refine .some ⟨rfl, ?_, ?_⟩
      · exact Schema.agrees_equivalence.symm (h.typed held).2.1
      · exact List.forall₂_map_right_iff.mpr (List.forall₂_same.mpr fun value _ => value.kept_stored)

/-- The image of a page has the page's size. Read again, it shows the page as storage keeps it, with all texts
cut that are too long, and that page has the same image. A page that was just read from an image comes back
whole, so that writing it and reading it once more changes nothing. -/
theorem image_read_again {id : PageId} {schema : Schema} {image : List UInt8} {p : Page}
    (reached : Reached id schema image p) :
    p.image.length = image.length ∧
    (∃ again, ofImage id schema p.image = .ok again ∧ p.Reread again ∧ again.image = p.image) ∧
    ∀ fresh, ofImage id schema image = .ok fresh → ofImage id schema fresh.image = .ok fresh := by
  have stems := reached.stems
  have back := stems.sound.ofImage_image
  rw [stems.id_eq, stems.schema_eq] at back
  refine ⟨stems.sound.length_image.trans stems.size_eq,
    ⟨p.stored, back, stems.sound.reread_stored, p.image_stored⟩, fun fresh read => ?_⟩
  -- The texts of a page just read fit, so that storage keeps all of it.
  have shown := shown_of_ofImage read
  have whole := shown.sound.ofImage_image
  rwa [shown.id_eq, shown.schema_eq, shown.kept] at whole

/-- A text that is one byte too long comes back without its last character, of two bytes. -/
theorem image_read_again_cut : Reached ⟨1, 0⟩ textSchema Reached.sampleImage Reached.sample ∧
    Reached.sample.image.length = 267 ∧
    (Reached.sample.tuple? 0).map Tuple.values = some [.text Reached.longText] ∧
    ∃ again, ofImage ⟨1, 0⟩ textSchema Reached.sample.image = .ok again ∧
      (again.tuple? 0).map Tuple.values = some [.text (String.ofList (List.replicate 127 'x'))] ∧
      again.image = Reached.sample.image := by
  obtain ⟨long, ⟨again, read, -, same⟩, -⟩ := image_read_again Reached.of_sample
  have stems := Reached.of_sample.stems
  have stored := stems.sound.ofImage_image
  rw [stems.id_eq, stems.schema_eq] at stored
  obtain rfl := Except.ok.inj (read.symm.trans stored)
  exact ⟨Reached.of_sample, long.trans (by decide +kernel), by decide +kernel, _, read, by decide +kernel, same⟩

end Page

end PagedStore
