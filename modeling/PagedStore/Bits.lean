/-!
Rows of bits packed into bytes, lowest bit first.
-/
namespace PagedStore.Bits

def ofNat : Nat → Nat → List Bool
  | 0, _ => []
  | count + 1, n => decide (n % 2 = 1) :: ofNat count (n / 2)

def toNat : List Bool → Nat
  | [] => 0
  | b :: bits => b.toNat + 2 * toNat bits

def ofBytes (bytes : List UInt8) : List Bool :=
  bytes.flatMap fun byte => ofNat 8 byte.toNat

def toBytes : List Bool → List UInt8
  | a :: b :: c :: d :: e :: f :: g :: h :: bits =>
    .ofNat (toNat [a, b, c, d, e, f, g, h]) :: toBytes bits
  | _ => []

/-- The byte with the one bit of that place of a row, counted from the low end of the first byte. -/
def mask (i : Nat) : UInt8 :=
  1 <<< UInt8.ofNat (i % 8)

def isSet (byte : UInt8) (i : Nat) : Bool :=
  byte &&& mask i != 0

def put (byte : UInt8) (i : Nat) (on : Bool) : UInt8 :=
  if on then byte ||| mask i else byte &&& ~~~mask i

@[simp] theorem length_ofNat (count n : Nat) : (ofNat count n).length = count := by
  induction count generalizing n with
  | zero => rfl
  | succ count ih => simp [ofNat, ih]

@[simp] theorem length_ofBytes (bytes : List UInt8) : (ofBytes bytes).length = 8 * bytes.length := by
  induction bytes with
  | nil => rfl
  | cons byte bytes ih =>
    simp only [ofBytes, List.flatMap_cons, List.length_append, length_ofNat, List.length_cons] at ih ⊢
    omega

private theorem toNat_decide_mod (n : Nat) : (decide (n % 2 = 1)).toNat = n % 2 := by
  rcases Nat.mod_two_eq_zero_or_one n with h | h <;> simp [h]

private theorem toNat_ofNat_eight (n : Nat) : toNat (ofNat 8 n) = n % 256 := by
  simp only [ofNat, toNat, toNat_decide_mod]
  omega

theorem ofNat_toNat (bits : List Bool) : ofNat bits.length (toNat bits) = bits := by
  induction bits with
  | nil => rfl
  | cons b bits ih =>
    have half : (b.toNat + 2 * toNat bits) / 2 = toNat bits := by
      have := b.toNat_lt
      omega
    simp only [List.length_cons, ofNat, toNat, half, ih]
    cases b <;> simp

private theorem toBytes_ofNat_append (byte : UInt8) (bits : List Bool) :
    toBytes (ofNat 8 byte.toNat ++ bits) = byte :: toBytes bits := by
  have back := toNat_ofNat_eight byte.toNat
  rw [Nat.mod_eq_of_lt byte.toNat_lt] at back
  simp only [ofNat, List.cons_append, List.nil_append] at back ⊢
  rw [toBytes, back, UInt8.ofNat_toNat]

theorem toBytes_ofBytes (bytes : List UInt8) : toBytes (ofBytes bytes) = bytes := by
  induction bytes with
  | nil => rfl
  | cons byte bytes ih =>
    simp only [ofBytes, List.flatMap_cons] at ih ⊢
    rw [toBytes_ofNat_append, ih]

end PagedStore.Bits
