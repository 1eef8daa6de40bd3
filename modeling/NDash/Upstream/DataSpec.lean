import NDash.Util

set_option autoImplicit false

namespace NDash.Upstream

def kLengthUnbounded : Int := -1

structure DataSpec where
  uri : String
  postBody : Option String := none
  absoluteStreamPosition : Int
  position : Int
  length : Int
  key : Option String := none
  flags : Int := 0
deriving DecidableEq, Repr

namespace DataSpec

-- The constructor it calls drops the POST body and sets both positions to the same value.
def getRemainder (dataSpec : DataSpec) (bytesLoaded : Int) : DataSpec where
  uri := dataSpec.uri
  absoluteStreamPosition := dataSpec.position + bytesLoaded
  position := dataSpec.position + bytesLoaded
  length := if dataSpec.length = kLengthUnbounded then kLengthUnbounded
    else dataSpec.length - bytesLoaded
  key := dataSpec.key
  flags := dataSpec.flags

def range (dataSpec : DataSpec) (content : Bytes) : Bytes :=
  let rest := content.drop dataSpec.position.toNat
  if dataSpec.length = kLengthUnbounded then rest else rest.take dataSpec.length.toNat

@[simp]
theorem getRemainder_position (dataSpec : DataSpec) (bytesLoaded : Int) :
    (dataSpec.getRemainder bytesLoaded).position = dataSpec.position + bytesLoaded :=
  rfl

theorem range_getRemainder_zero (dataSpec : DataSpec) (content : Bytes) :
    (dataSpec.getRemainder 0).range content = dataSpec.range content := by
  by_cases unbounded : dataSpec.length = kLengthUnbounded <;>
    simp [range, getRemainder, unbounded]

end DataSpec

inductive SourceAnswer
  | deliver (count : Nat)
  | fail
deriving DecidableEq, Repr

inductive ReadResult
  | bytes (data : Bytes)
  | endOfInput
  | ioError
deriving DecidableEq, Repr

def ReadResult.data : ReadResult → Bytes
  | .bytes data => data
  | .endOfInput => []
  | .ioError => []

-- Read of `length` bytes with `remaining` left of the open range.
def SourceAnswer.read (answer : SourceAnswer) (remaining : Bytes) (length : Nat) :
    ReadResult × Bytes :=
  match answer with
  | .fail => (.ioError, remaining)
  | .deliver count =>
    if remaining.isEmpty then (.endOfInput, remaining)
    else (.bytes (remaining.take (min count length)), remaining.drop (min count length))

end NDash.Upstream
