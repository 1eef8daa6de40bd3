import NDash.Shared.Outcome

set_option autoImplicit false

namespace NDash

abbrev Bytes := List UInt8

-- A conversion to int32_t keeps the value modulo 2^32.
def toInt32 (value : Int) : Int := (value + 2147483648) % 4294967296 - 2147483648

theorem toInt32_of_range {value : Int} (lower : -2147483648 ≤ value)
    (upper : value < 2147483648) : toInt32 value = value := by
  unfold toInt32
  omega

theorem toInt32_eq_self_iff {value : Int} (nonneg : 0 ≤ value) :
    toInt32 value = value ↔ value < 2147483648 := by
  unfold toInt32
  omega

theorem toInt32_add_period (value k : Int) : toInt32 (value + k * 4294967296) = toInt32 value := by
  unfold toInt32
  omega

theorem toInt32_add (first second : Int) : toInt32 (toInt32 first + second) = toInt32 (first + second) := by
  unfold toInt32
  omega

theorem toInt32_le {value : Int} (nonneg : 0 ≤ value) : toInt32 value ≤ value := by
  unfold toInt32
  omega

theorem toInt32_congruent (value : Int) : ∃ k, toInt32 value = value + k * 4294967296 :=
  ⟨-((value + 2147483648) / 4294967296), by unfold toInt32; omega⟩

-- A conversion to int64_t, and what a sum of two int64_t is where it overflows.
def toInt64 (value : Int) : Int :=
  (value + 9223372036854775808) % 18446744073709551616 - 9223372036854775808

theorem toInt64_of_range {value : Int} (lower : -9223372036854775808 ≤ value)
    (upper : value < 9223372036854775808) : toInt64 value = value := by
  unfold toInt64
  omega

theorem toInt64_eq_self_iff {value : Int} (nonneg : 0 ≤ value) :
    toInt64 value = value ↔ value < 9223372036854775808 := by
  unfold toInt64
  omega

theorem quotient_bounds {value size : Int} (nonneg : 0 ≤ value) (positive : 0 < size) :
    ∃ quotient : Nat, value.tdiv size = quotient ∧ value.tmod size = value - quotient * size ∧
      quotient * size ≤ value ∧ value < quotient * size + size := by
  have below := Int.ediv_mul_le value (Int.ne_of_gt positive)
  have above := Int.lt_ediv_add_one_mul_self value positive
  have remainder := Int.emod_def value size
  have lower : 0 ≤ value / size := Int.ediv_nonneg nonneg (Int.le_of_lt positive)
  refine ⟨(value / size).toNat, ?_⟩
  rw [Int.toNat_of_nonneg lower, Int.tdiv_eq_ediv_of_nonneg nonneg,
    Int.tmod_eq_emod_of_nonneg nonneg, remainder, Int.mul_comm size]
  rw [Int.add_mul] at above
  refine ⟨rfl, rfl, below, by omega⟩

theorem count_le {left right : Nat} {size : Int} (positive : 0 < size)
    (products : (left : Int) * size ≤ right * size) : left ≤ right := by
  have := Int.le_of_mul_le_mul_right products positive
  omega

def int64Min : Int := -9223372036854775808

def kSampleFlagSync : BitVec 32 := 0x0000001#32
def kSampleFlagEncrypted : BitVec 32 := 0x0000002#32
def kSampleFlagDecodeOnly : BitVec 32 := 0x8000000#32

def hasFlag (flags flag : BitVec 32) : Bool := flags &&& flag ≠ 0#32

def kResultEndOfInput : Int := -1

/-- What the C++ leaves undefined, aborts on, or never returns from. -/
inductive Fault
  | emptyDataQueue
  | outOfBounds
  | releasedBlock
  | nullPointer
  | checkFailed
  | diverges
deriving DecidableEq, Repr

export Outcome (bind_ok map_ok)

theorem drop_length_take {α : Type} (count : Nat) (list : List α) :
    list.drop count = list.drop (list.take count).length := by
  rw [List.length_take]
  by_cases within : count ≤ list.length
  · rw [Nat.min_eq_left within]
  · rw [List.drop_eq_nil_of_le (by omega), List.drop_eq_nil_of_le (by omega)]

def overwrite (target : Bytes) (position : Nat) (data : Bytes) : Bytes :=
  target.take position ++ data ++ target.drop (position + data.length)

theorem length_overwrite {target data : Bytes} {position : Nat}
    (room : position + data.length ≤ target.length) :
    (overwrite target position data).length = target.length := by
  simp [overwrite]
  omega

theorem take_overwrite {target data : Bytes} {position : Nat} (room : position ≤ target.length) :
    (overwrite target position data).take (position + data.length) = target.take position ++ data := by
  have count : (target.take position ++ data).length = position + data.length := by
    simp [Nat.min_eq_left room]
  rw [overwrite, ← count, List.take_left]

end NDash
