import NDash.Util

set_option autoImplicit false

namespace NDash.Upstream

abbrev BlockId := Nat

/-- A DefaultAllocator with its heap: blocks are numbered as they are obtained. -/
structure Allocator where
  individualAllocationSize : Nat
  allocatedCount : Int := 0
  obtained : Nat := 0
  released : List BlockId := []
  memory : BlockId → Bytes

namespace Allocator

-- `memory` holds, for a number not obtained yet, the indeterminate bytes of that future block.
def initial (individualAllocationSize : Nat) (uninitialized : BlockId → Nat → UInt8) : Allocator :=
  { individualAllocationSize
    memory := fun block => (List.range individualAllocationSize).map (uninitialized block) }

def allocate (allocator : Allocator) : BlockId × Allocator :=
  (allocator.obtained,
    { allocator with
      allocatedCount := allocator.allocatedCount + 1
      obtained := allocator.obtained + 1 })

def release (allocator : Allocator) (block : BlockId) : Allocator :=
  { allocator with
    allocatedCount := allocator.allocatedCount - 1
    released := allocator.released ++ [block] }

def inBlock (allocator : Allocator) (block : BlockId) (position length : Int) : Prop :=
  0 ≤ position ∧ 0 ≤ length ∧ position + length ≤ (allocator.memory block).length

instance (allocator : Allocator) (block : BlockId) (position length : Int) :
    Decidable (allocator.inBlock block position length) :=
  inferInstanceAs (Decidable (_ ∧ _ ∧ _))

def read (allocator : Allocator) (block : BlockId) (position length : Int) : Except Fault Bytes :=
  if block ∈ allocator.released then .error .releasedBlock
  else if allocator.inBlock block position length then
    .ok (((allocator.memory block).drop position.toNat).take length.toNat)
  else .error .outOfBounds

def write (allocator : Allocator) (block : BlockId) (position : Int) (data : Bytes) :
    Except Fault Allocator :=
  if block ∈ allocator.released then .error .releasedBlock
  else if allocator.inBlock block position data.length then
    .ok { allocator with
      memory := Function.update allocator.memory block
        (overwrite (allocator.memory block) position.toNat data) }
  else .error .outOfBounds

end Allocator

end NDash.Upstream
