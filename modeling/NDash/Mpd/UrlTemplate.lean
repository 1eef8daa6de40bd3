import NDash.Shared.Loop
import NDash.Util

set_option autoImplicit false

/-!
# UrlTemplate

A template is scanned into url pieces and the identifiers between them, each of them in a slot of its
own vector. The last slot is reserved for what is scanned next.
-/

namespace NDash.Mpd

open Machine (Loop)

inductive Templatable
  | representationId
  | number
  | bandwidth
  | time
deriving DecidableEq, Repr

structure UrlTemplate where
  urlPieces : List (List Char)
  identifiers : List (Option Templatable)
  identifierFormatTags : List (List Char)
  identifierCount : Nat
deriving DecidableEq, Repr

namespace UrlTemplate

def kUrlBuilderBufSize : Nat := 32
def kRepresentation : List Char :=
  ['R', 'e', 'p', 'r', 'e', 's', 'e', 'n', 't', 'a', 't', 'i', 'o', 'n', 'I', 'D']
def kNumber : List Char := ['N', 'u', 'm', 'b', 'e', 'r']
def kBandwidth : List Char := ['B', 'a', 'n', 'd', 'w', 'i', 'd', 't', 'h']
def kTime : List Char := ['T', 'i', 'm', 'e']
def kDefaultFormatTag : List Char := ['%', '0', '1', 'd']

/-! ParseTemplate -/

structure Scan extends UrlTemplate where
  templateIndex : Nat
deriving DecidableEq, Repr

def Scan.start : Scan where
  urlPieces := [[]]
  identifiers := [none]
  identifierFormatTags := [[]]
  identifierCount := 0
  templateIndex := 0

def Scan.append (scan : Scan) (text : List Char) (templateIndex : Nat) : Scan :=
  { scan with
    urlPieces := scan.urlPieces.modify scan.identifierCount (· ++ text)
    templateIndex }

def Scan.push (scan : Scan) (identifier : Templatable) (formatTag : List Char) (templateIndex : Nat) :
    Scan where
  urlPieces := scan.urlPieces ++ [[]]
  identifiers := scan.identifiers.set scan.identifierCount (some identifier) ++ [none]
  identifierFormatTags := scan.identifierFormatTags.set scan.identifierCount formatTag ++ [[]]
  identifierCount := scan.identifierCount + 1
  templateIndex

def findDollar (text : List Char) (start : Nat) : Option Nat :=
  ((text.drop start).findIdx? (· == '$')).map (start + ·)

def findFormatTag : List Char → Option Nat
  | [] => none
  | c :: rest =>
    if ['%', '0'].isPrefixOf (c :: rest) then some 0 else (findFormatTag rest).map (· + 1)

-- Only digits between the `%` and the `d` at the end, which is put there if it is missing.
def checkFormatTag (formatTag : List Char) : List Char :=
  let formatTag := if formatTag.getLast? = some 'd' then formatTag else formatTag ++ ['d']
  if (formatTag.drop 1).dropLast.all Char.isDigit then formatTag else kDefaultFormatTag

def compileIdentifier (identifier : List Char) : Except Fault (Templatable × List Char) :=
  if identifier = kRepresentation then .ok (.representationId, [])
  else
    let formatTagIndex := findFormatTag identifier
    let formatTag :=
      (formatTagIndex.map fun index => checkFormatTag (identifier.drop index)).getD kDefaultFormatTag
    let identifier := (formatTagIndex.map fun index => identifier.take index).getD identifier
    if identifier = kNumber then .ok (.number, formatTag)
    else if identifier = kBandwidth then .ok (.bandwidth, formatTag)
    else if identifier = kTime then .ok (.time, formatTag)
    else .error .checkFailed

def scanner (text : List Char) : Loop Scan Fault where
  going scan := scan.templateIndex < text.length
  body scan :=
    let sub := text.drop scan.templateIndex
    match findDollar text scan.templateIndex with
    | none => .ok (scan.append sub text.length)
    | some dollarIndex =>
      if dollarIndex ≠ scan.templateIndex then
        .ok (scan.append (sub.take (dollarIndex - scan.templateIndex)) dollarIndex)
      else if ['$', '$'].isPrefixOf sub then .ok (scan.append ['$'] (scan.templateIndex + 2))
      else
        let secondIndex := (findDollar text (scan.templateIndex + 1)).getD text.length
        let identifier := sub.tail.take (secondIndex - (scan.templateIndex + 1))
        (compileIdentifier identifier).map fun compiled =>
          scan.push compiled.1 compiled.2 (secondIndex + 1)

def parseTemplate (text : List Char) : Except Fault Scan :=
  (scanner text).run .diverges text.length .start

def compile (templateStr : String) : Except Fault UrlTemplate :=
  (parseTemplate templateStr.toList).map (·.toUrlTemplate)

/-! BuildUri -/

-- What printf makes of `%0<width>d`; the width counts the sign.
def printDecimal (width : Nat) (value : Int) : List Char :=
  let sign := if value < 0 then ['-'] else []
  let digits := Nat.toDigits 10 value.natAbs
  sign ++ digits.leftpad (width - sign.length) '0'

def tagWidth (formatTag : List Char) : Nat := Nat.ofDigitChars 10 (formatTag.drop 1).dropLast 0

def snprintf (formatTag : List Char) (value : Int) : List Char :=
  (printDecimal (tagWidth formatTag) value).take (kUrlBuilderBufSize - 1)

structure Arguments where
  representationId : List Char
  segmentNumber : Int
  bandwidth : Int
  timeVal : Int

def substitute (arguments : Arguments) (identifier : Option Templatable) (formatTag : List Char) :
    List Char :=
  match identifier with
  | none => []
  | some .representationId => arguments.representationId
  | some .number => snprintf formatTag arguments.segmentNumber
  | some .bandwidth => snprintf formatTag arguments.bandwidth
  | some .time => snprintf formatTag arguments.timeVal

def interleave (template : UrlTemplate) (fill : Option Templatable → List Char → List Char) :
    List Char :=
  (List.range template.identifierCount).flatMap (fun i =>
    template.urlPieces.getD i [] ++
      fill (template.identifiers.getD i none) (template.identifierFormatTags.getD i [])) ++
    template.urlPieces.getD template.identifierCount []

def build (template : UrlTemplate) (arguments : Arguments) : List Char :=
  template.interleave (substitute arguments)

def buildUri (template : UrlTemplate) (representationId : String)
    (segmentNumber bandwidth timeVal : Int) : String :=
  String.ofList (template.build
    { representationId := representationId.toList, segmentNumber, bandwidth, timeVal })

example : (compile "Edge5 $RepresentationID$ $Number%04d$ $Number%0bad$ $$$Time$").map
    (·.buildUri "id" 1 2 3) = .ok "Edge5 id 0001 1 $3" := by decide +kernel

end UrlTemplate

end NDash.Mpd
