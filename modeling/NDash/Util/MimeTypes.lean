import Mathlib.Tactic.Common

set_option autoImplicit false

namespace NDash.Util.MimeTypes

def getTopLevelType (mimeType : String) : Option String :=
  if '/' ∈ mimeType.toList then some (String.ofList (mimeType.toList.takeWhile (· ≠ '/'))) else none

def isVideo (mimeType : String) : Bool := getTopLevelType mimeType = some "video"
def isAudio (mimeType : String) : Bool := getTopLevelType mimeType = some "audio"

-- Not by the top level type: kApplicationRAWCC, kTextVTT and kApplicationTTML.
def isText (mimeType : String) : Bool :=
  mimeType ∈ ["application/x-rawcc", "text/vtt", "application/ttml+xml"]

end NDash.Util.MimeTypes
