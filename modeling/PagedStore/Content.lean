import Std.Data.ExtTreeMap

/-!
What a file holds: a row of bytes. Only bytes that are not zero are kept, so that a long gap costs
nothing. Contents of the same length with the same bytes are equal.
-/
namespace PagedStore

/-- A row of bytes: how many there are, and those that are not zero by position. -/
structure Content where
  length : Nat
  marks : Std.ExtTreeMap Nat UInt8
  marks_valid : ∀ position byte, marks[position]? = some byte → position < length ∧ byte ≠ 0

namespace Content

def empty : Content :=
  ⟨0, ∅, by simp⟩

def byte (c : Content) (position : Nat) : UInt8 :=
  c.marks[position]?.getD 0

private theorem byte_of_length_le {c : Content} {position : Nat} (behind : c.length ≤ position) :
    c.byte position = 0 := by
  have valid := c.marks_valid position
  unfold byte
  cases h : c.marks[position]? <;> grind

/-- A content is known by its length and its bytes. -/
@[ext] theorem ext {a b : Content} (lengths : a.length = b.length)
    (bytes : ∀ position, a.byte position = b.byte position) : a = b := by
  obtain ⟨length, marks, valid⟩ := a
  obtain ⟨length', marks', valid'⟩ := b
  obtain rfl : length = length' := lengths
  congr 1
  apply Std.ExtTreeMap.ext_getElem?
  intro position
  have same := bytes position
  simp only [byte] at same
  have := valid position
  have := valid' position
  cases h : marks[position]? <;> cases h' : marks'[position]? <;> grind

def read (c : Content) (offset count : Nat) : List UInt8 :=
  (List.range' offset (min count (c.length - offset))).map c.byte

def toList (c : Content) : List UInt8 :=
  c.read 0 c.length

def padTo (c : Content) (length : Nat) : Content where
  length := max c.length length
  marks := c.marks
  marks_valid position byte h := by
    have valid := c.marks_valid position byte h
    exact ⟨by omega, valid.2⟩

def take (c : Content) (length : Nat) : Content :=
  if c.length ≤ length then c
  else
    { length
      marks := c.marks.filter fun position _ => position < length
      marks_valid := fun position byte h => by
        simp only [Std.ExtTreeMap.getElem?_filter', Option.filter_eq_some_iff] at h
        exact ⟨by simpa using h.2, (c.marks_valid position byte h.1).2⟩ }

def resize (c : Content) (length : Nat) : Content :=
  (c.take length).padTo length

def clear (c : Content) (first last : Nat) : Content :=
  if c.length ≤ first then c
  else
    { length := c.length
      marks := c.marks.filter fun position _ => position < first || last ≤ position
      marks_valid := fun position byte h => by
        simp only [Std.ExtTreeMap.getElem?_filter', Option.filter_eq_some_iff] at h
        exact c.marks_valid position byte h.1 }

def put (c : Content) (position : Nat) (byte : UInt8) : Content where
  length := max c.length (position + 1)
  marks := if byte = 0 then c.marks.erase position else c.marks.insert position byte
  marks_valid other found h := by
    have valid := c.marks_valid other found
    split at h
    · simp only [Std.ExtTreeMap.getElem?_erase] at h
      grind
    · simp only [Std.ExtTreeMap.getElem?_insert] at h
      grind

/-- Puts bytes over a content from an offset on. A gap behind the old end becomes zero, but only
bytes make a content longer: where there are none to put, it stays as it is. -/
def overwrite (c : Content) (offset : Nat) : List UInt8 → Content
  | [] => c
  | byte :: bytes => (c.put offset byte).overwrite (offset + 1) bytes

def ofList (bytes : List UInt8) : Content :=
  empty.overwrite 0 bytes

@[simp] theorem length_empty : empty.length = 0 :=
  rfl

@[simp] theorem byte_empty (position : Nat) : empty.byte position = 0 := by
  simp [empty, byte]

@[simp] theorem length_read (c : Content) (offset count : Nat) :
    (c.read offset count).length = min count (c.length - offset) := by
  simp [read]

@[simp] theorem length_toList (c : Content) : c.toList.length = c.length := by
  simp [toList]

@[simp] theorem length_padTo (c : Content) (length : Nat) :
    (c.padTo length).length = max c.length length :=
  rfl

@[simp] theorem byte_padTo (c : Content) (length position : Nat) :
    (c.padTo length).byte position = c.byte position :=
  rfl

@[simp] theorem length_take (c : Content) (length : Nat) :
    (c.take length).length = min c.length length := by
  unfold take
  split
  · omega
  · show length = min c.length length
    omega

@[simp] theorem byte_take (c : Content) (length position : Nat) :
    (c.take length).byte position = if position < length then c.byte position else 0 := by
  unfold take
  split
  · have := @byte_of_length_le c position
    grind
  · simp only [byte, Std.ExtTreeMap.getElem?_filter']
    cases c.marks[position]? <;> grind

@[simp] theorem length_resize (c : Content) (length : Nat) :
    (c.resize length).length = length := by
  simp only [resize, length_padTo, length_take]
  omega

@[simp] theorem byte_resize (c : Content) (length position : Nat) :
    (c.resize length).byte position = if position < length then c.byte position else 0 := by
  simp [resize]

@[simp] theorem length_clear (c : Content) (first last : Nat) :
    (c.clear first last).length = c.length := by
  unfold clear
  split <;> rfl

@[simp] theorem byte_clear (c : Content) (first last position : Nat) :
    (c.clear first last).byte position =
      if first ≤ position ∧ position < last then 0 else c.byte position := by
  unfold clear
  split
  · have := @byte_of_length_le c position
    grind
  · simp only [byte, Std.ExtTreeMap.getElem?_filter']
    cases c.marks[position]? <;> grind

@[simp] theorem length_put (c : Content) (position : Nat) (byte : UInt8) :
    (c.put position byte).length = max c.length (position + 1) :=
  rfl

@[simp] theorem byte_put (c : Content) (position other : Nat) (byte : UInt8) :
    (c.put position byte).byte other = if other = position then byte else c.byte other := by
  simp only [put, Content.byte]
  split <;>
    simp only [Std.ExtTreeMap.getElem?_erase, Std.ExtTreeMap.getElem?_insert,
      Std.LawfulEqCmp.compare_eq_iff_eq] <;>
    grind

theorem length_overwrite (c : Content) (offset : Nat) (bytes : List UInt8) :
    (c.overwrite offset bytes).length =
      if bytes = [] then c.length else max c.length (offset + bytes.length) := by
  induction bytes generalizing c offset with
  | nil => rfl
  | cons byte bytes ih =>
    simp only [overwrite, ih, length_put]
    grind

theorem byte_overwrite (c : Content) (offset : Nat) (bytes : List UInt8) (position : Nat) :
    (c.overwrite offset bytes).byte position =
      if position < offset then c.byte position
      else bytes[position - offset]?.getD (c.byte position) := by
  induction bytes generalizing c offset with
  | nil => simp [overwrite]
  | cons byte bytes ih =>
    simp only [overwrite, ih, byte_put]
    grind

end Content

end PagedStore
