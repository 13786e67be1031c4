/-!
# Octets

Byte strings are lists of octets.  `bigEndian width n` writes the number `n` in `width` octets,
most significant first, and `ofBigEndian` reads such a number back: together they are the
identity on the numbers that fit.  `slices` cuts a byte string into pieces of a given size.
-/

namespace MessageBroker

/-- A byte string. -/
abbrev Bytes := List UInt8

/-! ### Numbers -/

/-- The `width` octets of `n`, most significant first; what does not fit is dropped. -/
def bigEndian : Nat → Nat → Bytes
  | 0, _ => []
  | width + 1, n => bigEndian width (n / 256) ++ [UInt8.ofNat n]

/-- The number whose octets are given, most significant first. -/
def ofBigEndian (bytes : Bytes) : Nat :=
  bytes.foldl (fun n octet => n * 256 + octet.toNat) 0

@[simp]
theorem length_bigEndian (width n : Nat) :
  (bigEndian width n).length = width
  := by
  induction width generalizing n with
  | zero => rfl
  | succ width ih => simp [bigEndian, ih]

theorem ofBigEndian_append_singleton (bytes : Bytes) (octet : UInt8) :
  ofBigEndian (bytes ++ [octet]) = ofBigEndian bytes * 256 + octet.toNat
  := by
  simp [ofBigEndian]

/-- Reading back gives the number written, up to the part that did not fit. -/
theorem ofBigEndian_bigEndian (width n : Nat) :
  ofBigEndian (bigEndian width n) = n % Nat.pow 256 width
  := by
  induction width generalizing n with
  | zero => simp [bigEndian, ofBigEndian, Nat.mod_one]
  | succ width ih =>
    have low : (UInt8.ofNat n).toNat = n % 256 := rfl
    rw [bigEndian, ofBigEndian_append_singleton, ih, low, Nat.pow_eq, Nat.pow_eq,
      Nat.pow_succ', Nat.mod_mul]
    omega

/-- Writing the number that octets stand for gives the octets. -/
theorem bigEndian_ofBigEndian (bytes : Bytes) :
  bigEndian bytes.length (ofBigEndian bytes) = bytes
  := by
  have reversed (bytes : Bytes) :
      bigEndian bytes.length (ofBigEndian bytes.reverse) = bytes.reverse := by
    induction bytes with
    | nil => rfl
    | cons octet bytes ih =>
      have small := octet.toNat_lt
      have high : (ofBigEndian bytes.reverse * 256 + octet.toNat) / 256 =
          ofBigEndian bytes.reverse := by
        omega
      have low : UInt8.ofNat (ofBigEndian bytes.reverse * 256 + octet.toNat) = octet := by
        apply UInt8.toNat.inj
        rw [UInt8.toNat_ofNat']
        omega
      rw [List.reverse_cons, List.length_cons, ofBigEndian_append_singleton, bigEndian, high,
        low, ih]
  have forward := reversed bytes.reverse
  rw [List.reverse_reverse, List.length_reverse] at forward
  exact forward

/-! ### Slices -/

/-- The consecutive pieces of `bytes`, each of `size` octets but the last, which holds what is
left; there is always at least one piece. -/
def slices (size : Nat) (bytes : Bytes) : List Bytes :=
  if size = 0 ∨ (bytes.drop size).isEmpty then [bytes]
  else bytes.take size :: slices size (bytes.drop size)
termination_by bytes.length
decreasing_by
  rename_i h
  rw [List.isEmpty_iff, List.drop_eq_nil_iff] at h
  rw [List.length_drop]
  omega

/-- The pieces put together again are the byte string. -/
theorem flatten_slices (size : Nat) (bytes : Bytes) :
  (slices size bytes).flatten = bytes
  := by
  fun_induction slices size bytes with
  | case1 => simp
  | case2 bytes _ ih => simp [ih]

end MessageBroker
