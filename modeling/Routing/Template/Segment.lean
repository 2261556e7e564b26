import Routing.Text

/-!
# Segments of a template

A template describes paths by a list of segments, one for each component and one more for a format
at the end.

* `Piece` — a part of a component that mixes text and captures
* `Segment` — a segment; `Segment.names` are the parameters it captures, `Segment.text` is its
  written form
-/

namespace Routing

/-- A part of a component. -/
inductive Piece where
  /-- Text that stands for itself. -/
  | literal (text : Text)
  /-- A capture, written `:name`. -/
  | capture (name : Text)
deriving DecidableEq

namespace Piece

/-- The parameter captured, if any. -/
def name? : Piece → Option Text
  | literal _ => none
  | capture name => some name

def text : Piece → Text
  | literal t => t
  | capture name => ':' :: name

end Piece

inductive Segment where
  /-- A component that is exactly this text. -/
  | static (text : Text)
  /-- A component that is captured as a whole, and may be missing when `optional`. -/
  | capture (name : Text) (optional : Bool)
  /-- All remaining components, captured as a list. -/
  | glob (name : Text)
  /-- A component that mixes text and captures. -/
  | compound (pieces : List Piece)
  /-- A text after a dot at the end of the last component, which may be missing. -/
  | format (name : Text)
deriving DecidableEq

namespace Segment

/-- The parameters captured, in order. -/
def names : Segment → List Text
  | static _ => []
  | capture name _ => [name]
  | glob name => [name]
  | compound pieces => pieces.filterMap Piece.name?
  | format name => [name]

/-- Whether a path may lack the segment. -/
def isOptional : Segment → Bool
  | capture _ optional => optional
  | format _ => true
  | static _ | glob _ | compound _ => false

def text : Segment → Text
  | static t => t
  | capture name _ => ':' :: name
  | glob name => '*' :: name
  | compound pieces => pieces.flatMap Piece.text
  | format name => '.' :: ':' :: name

end Segment

/-! ## Lists of segments -/

/-- The components and, apart from them, the name of the format at the end. -/
def splitFormat : List Segment → List Segment × Option Text
  | [] => ([], none)
  | [.format name] => ([], some name)
  | s :: rest => (s :: (splitFormat rest).1, (splitFormat rest).2)

/-- The parameters captured by a list of segments, in order. -/
def segmentNames (segments : List Segment) : List Text :=
  segments.flatMap Segment.names

end Routing
