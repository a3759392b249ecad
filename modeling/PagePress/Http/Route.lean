import PagePress.Url

namespace PagePress.Http
open Text

-- A segment that begins with a text; what is behind it may be free, and then has a name.
structure SegmentPattern where
  text : List Char
  capture : Option String
  deriving DecidableEq, Repr

structure Capture where
  name : String
  segment : String
  deriving DecidableEq, Repr

namespace SegmentPattern

-- The name of a free part is in braces. A brace that is meant as a text is written twice.
def ofText : List Char → SegmentPattern
  | [] => ⟨[], none⟩
  | '\x7b' :: '\x7b' :: rest => let below := ofText rest; ⟨'\x7b' :: below.text, below.capture⟩
  | '\x7d' :: '\x7d' :: rest => let below := ofText rest; ⟨'\x7d' :: below.text, below.capture⟩
  | '\x7b' :: name => ⟨[], some (String.ofList (name.takeWhile (· ≠ '\x7d')))⟩
  | c :: rest => let below := ofText rest; ⟨c :: below.text, below.capture⟩

-- What is captured by a segment that fits. At the end of a path a free part is not empty.
def match? (pattern : SegmentPattern) (atEnd : Bool) (segment : List Char) :
    Option (List Capture) :=
  match pattern.capture with
  | none => if segment = pattern.text then some [] else none
  | some name =>
    let free := segment.drop pattern.text.length
    if pattern.text.isPrefixOf segment ∧ (atEnd → free ≠ []) then
      some [⟨name, String.ofList free⟩]
    else none

def matchAll? : List SegmentPattern → List (List Char) → Option (List Capture)
  | [], [] => some []
  | pattern :: patterns, segment :: segments => do
    let here ← pattern.match? segments.isEmpty segment
    let behind ← matchAll? patterns segments
    some (here ++ behind)
  | _, _ => none

end SegmentPattern

def Capture.textsOf : List Capture → Except String (List String)
  | [] => .ok []
  | capture :: rest =>
    match unescaped? capture.segment with
    | some text => (textsOf rest).map (text :: ·)
    | none => .error capture.name

inductive Route where
  | health
  | ping
  | metrics
  | register
  | replace
  | generate
  deriving DecidableEq, Repr

-- The slashes at the ends of a version do not count.
def routePrefix (version : String) : String :=
  let trimmed := trim (· = '/') version.toList
  if trimmed.isEmpty then "" else String.ofList ('/' :: trimmed)

namespace Route

def all : List Route := [.health, .ping, .metrics, .register, .replace, .generate]

def pattern : Route → String
  | .health => "/health"
  | .ping => "/ping"
  | .metrics => "/metrics"
  | .register => "/register"
  | .replace => "/register/\x7bid\x7d"
  | .generate => "/generate/\x7bid\x7d"

def match? (start path : String) (route : Route) : Option (List Capture) :=
  SegmentPattern.matchAll?
    ((pieces '/' (start ++ route.pattern).toList).map .ofText) (pieces '/' path.toList)

def find? (start path : String) : Option (Route × List Capture) :=
  all.findSome? fun route => (route.match? start path).map (route, ·)

def allow : Route → String
  | .health | .metrics => "GET,HEAD"
  | .ping | .register | .generate => "POST"
  | .replace => "PUT"

def takes (route : Route) (method : String) : Bool :=
  match route with
  | .health | .metrics => method == "GET" || method == "HEAD"
  | .ping | .register | .generate => method == "POST"
  | .replace => method == "PUT"

end Route
end PagePress.Http
