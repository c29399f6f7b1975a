/-!
UTF-8, the form in which texts are stored. Decoding names the first byte that belongs to no character.
-/
namespace PagedStore.Text.Utf8

/-- Where decoding fails. Without a length, the bytes end inside a character begun at the index. -/
structure Fault where
  index : Nat
  length : Option Nat
deriving DecidableEq

def Fault.message (fault : Fault) : String :=
  match fault.length with
  | some length => s!"invalid utf-8 sequence of {length} bytes from index {fault.index}"
  | none => s!"incomplete utf-8 byte sequence from index {fault.index}"

def encode (s : String) : List UInt8 :=
  s.toList.flatMap String.utf8EncodeChar

def first? (bytes : List UInt8) : Option Char :=
  (bytes.take 4).toByteArray.utf8DecodeChar? 0

/-- Bounds of each byte that has to follow a lead byte; none where no character of several bytes
starts with it. -/
def followers (lead : UInt8) : List (UInt8 × UInt8) :=
  let any := (0x80, 0xBF)
  if lead < 0xC2 then []
  else if lead < 0xE0 then [any]
  else if lead = 0xE0 then [(0xA0, 0xBF), any]
  else if lead = 0xED then [(0x80, 0x9F), any]
  else if lead < 0xF0 then [any, any]
  else if lead = 0xF0 then [(0x90, 0xBF), any, any]
  else if lead < 0xF4 then [any, any, any]
  else if lead = 0xF4 then [(0x80, 0x8F), any, any]
  else []

/-- How many bytes the fault spans: those accepted so far, up to the first one out of bounds. -/
def faultLength (accepted : Nat) : List (UInt8 × UInt8) → List UInt8 → Option Nat
  | [], _ => some accepted
  | _ :: _, [] => none
  | (low, high) :: bounds, byte :: rest =>
    if low ≤ byte ∧ byte ≤ high then faultLength (accepted + 1) bounds rest else some accepted

/-- Characters of the bytes from an index on, after the given number of bytes that belong to the
character before it. -/
def charsFrom (index : Nat) : Nat → List UInt8 → Except Fault (List Char)
  | _, [] => .ok []
  | skip + 1, _ :: rest => charsFrom (index + 1) skip rest
  | 0, lead :: rest =>
    match first? (lead :: rest) with
    | none => .error ⟨index, faultLength 1 (followers lead) rest⟩
    | some c =>
      match charsFrom (index + 1) (c.utf8Size - 1) rest with
      | .ok cs => .ok (c :: cs)
      | .error fault => .error fault

def decode (bytes : List UInt8) : Except Fault String :=
  (charsFrom 0 0 bytes).map String.ofList

/-- The longest start of a character sequence that takes at most the given number of bytes. -/
def clipChars : Nat → List Char → List Char
  | _, [] => []
  | limit, c :: cs =>
    if c.utf8Size ≤ limit then c :: clipChars (limit - c.utf8Size) cs else []

def clip (limit : Nat) (s : String) : String :=
  String.ofList (clipChars limit s.toList)

end PagedStore.Text.Utf8
