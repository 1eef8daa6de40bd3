import NDash.Shared.Loop
import NDash.Shared.UriReference
import NDash.Util

set_option autoImplicit false

namespace NDash.Util.UriUtil

open Machine Uri

-- `std::string::find` of a character, with `npos` as `none`.
def find : Text → Char → Option Nat
  | [], _ => none
  | first :: rest, char => if first = char then some 0 else (find rest char).map (· + 1)

def findFrom (text : Text) (char : Char) (start : Nat) : Option Nat :=
  (find (text.drop start) char).map (· + start)

def findLastOf (text : Text) (char : Char) : Option Nat :=
  (find text.reverse char).map (text.length - 1 - ·)

-- Reading the terminator of a string is allowed, reading behind it is not.
def charAt (text : Text) (index : Nat) : Except Fault Char :=
  match text[index]? with
  | some char => .ok char
  | none => if index = text.length then .ok (Char.ofNat 0) else .error .outOfBounds

-- `erase(start, stop - start)`: the count is unsigned, so that a negative one erases all the rest.
def erase (text : Text) (start stop : Nat) : Except Fault Text :=
  if text.length < start then .error .outOfBounds
  else if start ≤ stop then .ok (text.take start ++ text.drop stop)
  else .ok (text.take start)

-- `substr(0, count - 2)`, whose count is unsigned too.
def substrBefore (text : Text) (count : Nat) : Text := if count < 2 then text else text.take (count - 2)

structure UriIndices where
  schemeColon : Int
  path : Nat
  query : Nat
  fragment : Nat
deriving DecidableEq, Repr

def UriIndices.hierPart (indices : UriIndices) : Nat := (indices.schemeColon + 1).toNat

def upTo (found : Option Nat) (limit : Nat) : Nat :=
  match found with
  | none => limit
  | some index => if index > limit then limit else index

def unlessBehind (found : Option Nat) (limit : Nat) : Int :=
  match found with
  | none => -1
  | some index => if index > limit then -1 else index

def getUriIndices (uri : Text) : UriIndices :=
  if uri.length = 0 then ⟨-1, 0, 0, 0⟩
  else
    let fragmentIndex := (find uri '#').getD uri.length
    let queryIndex := upTo (find uri '?') fragmentIndex
    let schemeIndexLimit := upTo (find uri '/') queryIndex
    let schemeIndex := unlessBehind (find uri ':') schemeIndexLimit
    let hierPart := (schemeIndex + 1).toNat
    let pathIndex :=
      if hierPart + 1 < queryIndex ∧ uri[hierPart]? = some '/' ∧ uri[hierPart + 1]? = some '/' then
        upTo (findFrom uri '/' (hierPart + 2)) queryIndex
      else hierPart
    ⟨schemeIndex, pathIndex, queryIndex, fragmentIndex⟩

structure DotScan where
  uri : Text
  limit : Nat
  segmentStart : Nat
  i : Nat
deriving DecidableEq, Repr

namespace DotScan

def nextSegmentStart (scan : DotScan) : Except Fault (Option Nat) :=
  if scan.i = scan.limit then .ok (some scan.i)
  else (charAt scan.uri scan.i).map fun char => if char = '/' then some (scan.i + 1) else none

def prevSegmentStart (scan : DotScan) : Nat :=
  ((findLastOf (substrBefore scan.uri scan.segmentStart) '/').map (· + 1)).getD 0

def body (offset : Nat) (scan : DotScan) : Except Fault DotScan := do
  match ← scan.nextSegmentStart with
  | none => .ok { scan with i := scan.i + 1 }
  | some next =>
    if scan.i = scan.segmentStart + 1 ∧ scan.uri[scan.segmentStart]? = some '.' then
      let uri ← erase scan.uri scan.segmentStart next
      .ok { scan with
        uri
        limit := scan.limit + scan.segmentStart - next
        i := scan.segmentStart }
    else if scan.i = scan.segmentStart + 2 ∧ scan.uri[scan.segmentStart]? = some '.' ∧
        scan.uri[scan.segmentStart + 1]? = some '.' then
      let removeFrom := max scan.prevSegmentStart offset
      let uri ← erase scan.uri removeFrom next
      .ok
        { uri
          limit := scan.limit + removeFrom - next
          segmentStart := scan.prevSegmentStart
          i := scan.prevSegmentStart }
    else .ok { scan with i := scan.i + 1, segmentStart := scan.i + 1 }

end DotScan

def dotLoop (offset : Nat) : Loop DotScan Fault where
  going scan := scan.i ≤ scan.limit
  body := DotScan.body offset

def removeDotSegments (rounds : Nat) (uri : Text) (offset limit : Nat) : Except Fault Text := do
  if offset ≥ limit then .ok uri
  else
    -- A slash at the start of the path always stays.
    let offset := if (← charAt uri offset) = '/' then offset + 1 else offset
    let scan ← (dotLoop offset).run .diverges rounds ⟨uri, limit, offset, offset⟩
    .ok scan.uri

def resolve (rounds : Nat) (baseUri referenceUri : Text) : Except Fault Text :=
  let refIndices := getUriIndices referenceUri
  if refIndices.schemeColon ≠ -1 then do
    -- The string without dot segments is the result of this call, not its argument.
    let _ ← removeDotSegments rounds referenceUri refIndices.path refIndices.query
    .ok referenceUri
  else
    let baseIndices := getUriIndices baseUri
    if refIndices.fragment = 0 then .ok (baseUri.take baseIndices.fragment ++ referenceUri)
    else if refIndices.query = 0 then .ok (baseUri.take baseIndices.query ++ referenceUri)
    else if refIndices.path ≠ 0 then
      let baseLimit := baseIndices.hierPart
      removeDotSegments rounds (baseUri.take baseLimit ++ referenceUri) (baseLimit + refIndices.path)
        (baseLimit + refIndices.query)
    else if refIndices.path ≠ refIndices.query ∧ referenceUri[refIndices.path]? = some '/' then
      removeDotSegments rounds (baseUri.take baseIndices.path ++ referenceUri) baseIndices.path
        (baseIndices.path + refIndices.query)
    else if baseIndices.schemeColon + 2 < baseIndices.path ∧ baseIndices.path = baseIndices.query then
      removeDotSegments rounds (baseUri.take baseIndices.path ++ '/' :: referenceUri) baseIndices.path
        (baseIndices.path + refIndices.query + 1)
    else
      let baseLimit :=
        match findLastOf (baseUri.take baseIndices.query) '/' with
        | none => baseIndices.path
        | some lastSlashIndex => lastSlashIndex + 1
      removeDotSegments rounds (baseUri.take baseLimit ++ referenceUri) baseIndices.path
        (baseLimit + refIndices.query)

end NDash.Util.UriUtil
