import PagedStore.Text.Utf8
import PagedStore.Word

/-!
Field values and the fixed widths at which they are stored.
-/
namespace PagedStore

def textCapacity : Nat := 128

inductive ColumnType where
  | int
  | text
deriving DecidableEq

inductive Value where
  | int (number : Int32)
  | text (content : String)
deriving DecidableEq

inductive DecodeFault where
  | endOfBytes
  | textLength (length : Int32)
  | notText (fault : Text.Utf8.Fault)
deriving DecidableEq

namespace ColumnType

def name : ColumnType → String
  | int => "INT"
  | text => "STRING"

def width : ColumnType → Nat
  | int => 4
  | text => 4 + textCapacity

/-- Reads a stored field, and returns the bytes after it. The padding of a text is not looked at. -/
def decode (type : ColumnType) (bytes : List UInt8) : Except DecodeFault (Value × List UInt8) :=
  match Word.read? bytes with
  | none => .error .endOfBytes
  | some (word, rest) =>
    match type with
    | int => .ok (.int word.toInt32, rest)
    | text =>
      let length := word.toInt32
      if rest.length < textCapacity then .error .endOfBytes
      else if length.toInt < 0 ∨ (textCapacity : Int) < length.toInt then .error (.textLength length)
      else
        match Text.Utf8.decode (rest.take length.toInt.toNat) with
        | .ok content => .ok (.text content, rest.drop textCapacity)
        | .error fault => .error (.notText fault)

end ColumnType

namespace Value

def type : Value → ColumnType
  | int _ => .int
  | text _ => .text

/-- What is left of a value in storage: a text keeps its longest start of whole characters that fits. -/
def stored : Value → Value
  | int number => .int number
  | text content => .text (Text.Utf8.clip textCapacity content)

def encode : Value → List UInt8
  | int number => Word.bytes number.toUInt32
  | text content =>
    let kept := Text.Utf8.encode (Text.Utf8.clip textCapacity content)
    Word.bytes (.ofNat kept.length) ++ kept ++ List.replicate (textCapacity - kept.length) 0

def render : Value → String
  | int number => toString number.toInt
  | text content => content

instance : Ord Value where
  compare
    | int a, int b => compare a.toInt b.toInt
    | int _, text _ => .lt
    | text _, int _ => .gt
    | text a, text b => compare a b

def sort (values : List Value) : List Value :=
  values.mergeSort fun a b => (compare a b).isLE

end Value

def DecodeFault.message : DecodeFault → String
  | endOfBytes => "failed to fill whole buffer"
  | textLength length => s!"string length {length.toInt} outside 0..={textCapacity}"
  | notText fault => fault.message

end PagedStore
