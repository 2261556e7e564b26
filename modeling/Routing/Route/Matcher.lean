import Routing.Dict
import Routing.Requirement
import Routing.Template.Segment

/-!
# The expression of a template

A template becomes one expression for whole paths. Each capture is a group of its own, numbered in
the order of the captures, which holds the requirement of its parameter or else the grammar of its
kind. Optional components nest to the end of the expression, and the format belongs to the last
component.

* `Matcher.ofSegments` — the expression and the parameters that its groups capture, in order
-/

namespace Routing

/-- The text of an expression under construction. -/
structure Matcher where
  source : Text
  /-- The parameters captured by the groups so far, in the order of their numbers. -/
  keys : List Text
deriving DecidableEq

variable [Properties]

namespace Matcher

/-- The grammar of a capture without a requirement. -/
def componentGrammar : Text := "[^/.]+".toList

/-- The grammar of a glob without a requirement. -/
def globGrammar : Text := ".+".toList

/-- The name of the group with a number. -/
def groupName (n : Nat) : Text := "__segment_".toList ++ Text.ofNat n

/-- Text goes on the end of the expression. -/
def text (m : Matcher) (t : Text) : Matcher := { m with source := m.source ++ t }

/-- Text goes on the end and stands for itself. -/
def literal (m : Matcher) (t : Text) : Matcher := m.text (Regex.quote t)

/-- A group for a parameter goes on the end; it holds the requirement, or the grammar. -/
def capture (requirements : Dict Requirement) (grammar : Text) (m : Matcher) (key : Text) :
    Matcher where
  source := m.source ++ "(?P<".toList ++ groupName m.keys.length ++ ['>'] ++
    ((requirements.get? key).map Requirement.fragment).getD grammar ++ [')']
  -- the number of the group just written is the place of the key in the list
  keys := m.keys ++ [key]

def piece (requirements : Dict Requirement) (m : Matcher) : Piece → Matcher
  | .literal t => m.literal t
  | .capture key => m.capture requirements componentGrammar key

/-- An optional format goes on the end. -/
def format (requirements : Dict Requirement) (m : Matcher) : Option Text → Matcher
  | none => m
  | some key =>
    ((m.text "(?:\\.".toList).capture requirements componentGrammar key).text ")?".toList

/-- A segment goes on the end, without the slash before it. -/
def segment (requirements : Dict Requirement) (m : Matcher) : Segment → Matcher
  | .static t => m.literal t
  | .capture key _ => m.capture requirements componentGrammar key
  | .glob key => m.capture requirements globGrammar key
  | .compound pieces => pieces.foldl (piece requirements) m
  | .format key => m.format requirements (some key)

/-- The required components go on the end, each after a slash, and the format after the last one
when no component follows. -/
def required (requirements : Dict Requirement) (format? : Option Text) (followed : Bool)
    (m : Matcher) : List Segment → Matcher
  | [] => m
  | s :: rest =>
    let m := (m.text ['/']).segment requirements s
    -- the format belongs to the last component of the path, whichever kind that is
    let m := if rest.isEmpty && !followed then m.format requirements format? else m
    m.required requirements format? followed rest

/-- The optional components go on the end, each nested in the one before it. A slash stands before
each of them but the very first component of a path, whose slash is there already. -/
def optional (requirements : Dict Requirement) (format? : Option Text) (first : Bool)
    (m : Matcher) : List Segment → Matcher
  | [] => m
  | s :: rest =>
    let m := m.text ("(?:".toList ++ if first then [] else ['/'])
    let m := m.segment requirements s
    -- inside the group, so that a format cannot follow a component that is left out
    let m := if rest.isEmpty then m.format requirements format? else m
    -- the group closes behind the deeper ones: each can be present only with this one
    (m.optional requirements format? false rest).text ")?".toList

/-- The expression of a template, anchored at both ends. -/
def ofSegments (requirements : Dict Requirement) (segments : List Segment) : Matcher :=
  let (components, format?) := splitFormat segments
  let required := components.takeWhile fun s => !s.isOptional
  let optional := components.dropWhile fun s => !s.isOptional
  let m : Matcher := ⟨['^'], []⟩
  -- the root slash, to which the first optional component attaches
  let m := if required.isEmpty then m.text ['/'] else m
  let m := m.required requirements format? (!optional.isEmpty) required
  let m := m.optional requirements format? required.isEmpty optional
  m.text ['$']

end Matcher

end Routing
