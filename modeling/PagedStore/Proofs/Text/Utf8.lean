import PagedStore.Text.Utf8

/-! Decoding and encoding of texts are inverse, and what clipping keeps of a text. -/
namespace PagedStore.Text.Utf8

@[simp] theorem encode_ofList (cs : List Char) :
    encode (String.ofList cs) = cs.flatMap String.utf8EncodeChar := by
  simp [encode]

private theorem toByteArray_append (xs ys : List UInt8) :
    (xs ++ ys).toByteArray = xs.toByteArray ++ ys.toByteArray := by
  simp

/-- The bytes of a character are read back as that character, whatever follows them. -/
private theorem first?_encode (c : Char) (rest : List UInt8) :
    first? (String.utf8EncodeChar c ++ rest) = some c := by
  have short := c.utf8Size_le_four
  rw [← String.length_utf8EncodeChar] at short
  rw [first?, List.take_append, List.take_of_length_le short, toByteArray_append]
  exact ByteArray.utf8DecodeChar?_utf8EncodeChar_append

/-- A character is read only where its bytes stand. -/
theorem eq_encode_of_first? {bytes : List UInt8} {c : Char} (h : first? bytes = some c) :
    ∃ rest, bytes = String.utf8EncodeChar c ++ rest := by
  obtain ⟨l, hl⟩ := ByteArray.exists_of_utf8DecodeChar?_eq_some h
  have split : bytes.take 4 = String.utf8EncodeChar c ++ l.data.toList := by
    have := congrArg (fun b => b.data.toList) hl
    simpa using this
  refine ⟨l.data.toList ++ bytes.drop 4, ?_⟩
  rw [← List.append_assoc, ← split, List.take_append_drop]

private theorem charsFrom_skip (index : Nat) (xs rest : List UInt8) :
    charsFrom index xs.length (xs ++ rest) = charsFrom (index + xs.length) 0 rest := by
  induction xs generalizing index with
  | nil => rfl
  | cons x xs ih =>
    rw [List.length_cons, List.cons_append, charsFrom, ih]
    congr 1
    omega

private theorem charsFrom_encode_append (index : Nat) (c : Char) (rest : List UInt8) :
    charsFrom index 0 (String.utf8EncodeChar c ++ rest) =
      (charsFrom (index + c.utf8Size) 0 rest).map (c :: ·) := by
  have long := String.length_utf8EncodeChar c
  have read := first?_encode c rest
  have pos := c.utf8Size_pos
  cases he : String.utf8EncodeChar c with
  | nil =>
    rw [he, List.length_nil] at long
    omega
  | cons lead tail =>
    rw [he, List.length_cons] at long
    rw [he, List.cons_append] at read
    rw [List.cons_append, charsFrom, read]
    have skip := charsFrom_skip (index + 1) tail rest
    rw [show tail.length = c.utf8Size - 1 by omega,
      show index + 1 + (c.utf8Size - 1) = index + c.utf8Size by omega] at skip
    simp only [skip]
    cases charsFrom (index + c.utf8Size) 0 rest <;> rfl

private theorem charsFrom_encode (index : Nat) (cs : List Char) :
    charsFrom index 0 (cs.flatMap String.utf8EncodeChar) = .ok cs := by
  induction cs generalizing index with
  | nil => rfl
  | cons c cs ih =>
    rw [List.flatMap_cons, charsFrom_encode_append, ih]
    rfl

private theorem encode_of_charsFrom {index : Nat} {bytes : List UInt8} {cs : List Char}
    (h : charsFrom index 0 bytes = .ok cs) : cs.flatMap String.utf8EncodeChar = bytes := by
  induction cs generalizing index bytes with
  | nil =>
    cases bytes with
    | nil => rfl
    | cons lead rest =>
      rw [charsFrom] at h
      split at h
      · cases h
      · split at h <;> cases h
  | cons c cs ih =>
    cases bytes with
    | nil => cases h
    | cons lead rest =>
      cases hf : first? (lead :: rest) with
      | none =>
        rw [charsFrom, hf] at h
        cases h
      | some d =>
        obtain ⟨after, he⟩ := eq_encode_of_first? hf
        rw [he, charsFrom_encode_append] at h
        cases hr : charsFrom (index + d.utf8Size) 0 after with
        | error fault =>
          rw [hr] at h
          cases h
        | ok ds =>
          rw [hr] at h
          obtain ⟨rfl, rfl⟩ := List.cons.inj (Except.ok.inj h)
          rw [List.flatMap_cons, ih hr, he]

/-- The bytes of a text decode to the text. -/
@[simp] theorem decode_encode (s : String) : decode (encode s) = .ok s := by
  simp only [decode, encode, charsFrom_encode]
  simp [Except.map]

/-- Bytes that decode to a text are the bytes of that text. -/
theorem encode_of_decode {bytes : List UInt8} {s : String} (h : decode bytes = .ok s) :
    encode s = bytes := by
  rw [decode] at h
  cases hc : charsFrom 0 0 bytes with
  | error fault =>
    rw [hc] at h
    cases h
  | ok cs =>
    rw [hc] at h
    obtain rfl := Except.ok.inj h
    rw [encode_ofList, encode_of_charsFrom hc]

private theorem length_clipChars (limit : Nat) (cs : List Char) :
    ((clipChars limit cs).flatMap String.utf8EncodeChar).length ≤ limit := by
  induction cs generalizing limit with
  | nil => exact Nat.zero_le _
  | cons c cs ih =>
    rw [clipChars]
    split
    · rw [List.flatMap_cons, List.length_append, String.length_utf8EncodeChar]
      have := ih (limit - c.utf8Size)
      omega
    · exact Nat.zero_le _

private theorem clipChars_eq_self {limit : Nat} {cs : List Char}
    (h : (cs.flatMap String.utf8EncodeChar).length ≤ limit) : clipChars limit cs = cs := by
  induction cs generalizing limit with
  | nil => rfl
  | cons c cs ih =>
    rw [List.flatMap_cons, List.length_append, String.length_utf8EncodeChar] at h
    rw [clipChars, if_pos (by omega), ih (by omega)]

/-- A clipped text takes at most the bytes allowed. -/
theorem length_encode_clip (limit : Nat) (s : String) :
    (encode (clip limit s)).length ≤ limit := by
  rw [clip, encode_ofList]
  exact length_clipChars limit s.toList

/-- Clipping changes just the texts that are too long. -/
theorem clip_eq_self_iff {limit : Nat} {s : String} :
    clip limit s = s ↔ (encode s).length ≤ limit := by
  constructor
  · intro h
    rw [← h]
    exact length_encode_clip limit s
  · intro h
    rw [clip, clipChars_eq_self h, String.ofList_toList]

@[simp] theorem clip_clip (limit : Nat) (s : String) :
    clip limit (clip limit s) = clip limit s :=
  clip_eq_self_iff.mpr (length_encode_clip limit s)

/-- Whether a text is the longest start of whole characters of another that takes at most the given number
of bytes. -/
structure LongestStart (limit : Nat) (s kept : String) : Prop where
  start : kept.toList <+: s.toList
  fits : (encode kept).length ≤ limit
  longest : ∀ other : String, other.toList <+: s.toList → (encode other).length ≤ limit →
    other.toList <+: kept.toList

private theorem clipChars_prefix (limit : Nat) (cs : List Char) : clipChars limit cs <+: cs := by
  induction cs generalizing limit with
  | nil => exact List.prefix_rfl
  | cons c cs ih =>
    rw [clipChars]
    split
    · exact List.cons_prefix_cons.mpr ⟨rfl, ih _⟩
    · exact List.nil_prefix

private theorem prefix_clipChars {limit : Nat} {cs ds : List Char} (start : ds <+: cs)
    (fits : (ds.flatMap String.utf8EncodeChar).length ≤ limit) : ds <+: clipChars limit cs := by
  induction cs generalizing limit ds with
  | nil => rwa [clipChars]
  | cons c cs ih =>
    cases ds with
    | nil => exact List.nil_prefix
    | cons d ds =>
      obtain ⟨rfl, rest⟩ := List.cons_prefix_cons.mp start
      rw [List.flatMap_cons, List.length_append, String.length_utf8EncodeChar] at fits
      rw [clipChars, if_pos (by omega)]
      exact List.cons_prefix_cons.mpr ⟨rfl, ih rest (by omega)⟩

theorem longestStart_clip (limit : Nat) (s : String) : LongestStart limit s (clip limit s) where
  start := by
    rw [clip, String.toList_ofList]
    exact clipChars_prefix limit s.toList
  fits := length_encode_clip limit s
  longest other start fits := by
    rw [clip, String.toList_ofList]
    exact prefix_clipChars start fits

end PagedStore.Text.Utf8
