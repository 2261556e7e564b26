import Routing.Template.Segment
import Routing.Text.Quoted

/-!
# Components of a pattern

A pattern is written as components between slashes. Each is read on its own: a glob `*name`, a
capture `:name`, text with captures in it, or plain text, and the last one may carry the suffix
`.:format`.

* `isIdentifier` — the names that captures can have
* `Component.classify` — what a component without the suffix is
* `Component.read` — a component with its suffix, at the end of the pattern or before it
-/

namespace Routing

/-- Why a pattern is no template. -/
inductive TemplateFault where
  /-- What follows the star is no name. -/
  | globName (name : Text)
  /-- A colon in the component is not followed by a name. -/
  | captureName (component : Text)
  /-- A star stands inside the component. -/
  | globInside (component : Text)
  /-- The format suffix stands before the end of the pattern. -/
  | formatNotLast
  /-- The format suffix stands alone. -/
  | formatAlone
  /-- A glob stands before the end of the pattern. -/
  | globNotLast
  /-- A glob carries the format suffix. -/
  | globWithFormat
  /-- Two captures have one name. -/
  | captureTwice (name : Text)
deriving DecidableEq

def TemplateFault.message : TemplateFault → Text
  | globName name => "invalid glob name ".toList ++ Quoted.text name
  | captureName component => "invalid capture in segment ".toList ++ Quoted.text component
  | globInside component => "glob must fill a whole segment: ".toList ++ Quoted.text component
  | formatNotLast => "format suffix must end the pattern".toList
  | formatAlone => "format suffix needs a segment to attach to".toList
  | globNotLast => "glob must be the last segment".toList
  | globWithFormat => "glob cannot carry a format suffix".toList
  | captureTwice name => "capture ".toList ++ name ++ " appears twice".toList

/-! ## Names -/

/-- A letter, a digit or an underscore, in ASCII. -/
def isNameChar (c : Char) : Bool := c.isAlphanum || c = '_'

/-- Name characters of which the first is no digit. -/
def isIdentifier : Text → Bool
  | [] => false
  | c :: s => (c.isAlpha || c = '_') && s.all isNameChar

/-! ## Components -/

inductive ComponentKind where
  | static (text : Text)
  /-- A capture of the whole component. -/
  | capture (name : Text)
  /-- A capture of all remaining components. -/
  | glob (name : Text)
  /-- Text with captures in it. -/
  | compound (pieces : List Piece)
deriving DecidableEq

/-- The parameters captured, in order. -/
def ComponentKind.names : ComponentKind → List Text
  | static _ => []
  | capture name => [name]
  | glob name => [name]
  | compound pieces => pieces.filterMap Piece.name?

structure Component where
  kind : ComponentKind
  /-- Whether it carries the format suffix. -/
  format : Bool
deriving DecidableEq

namespace Component

/-- The name that the format suffix captures. -/
def formatName : Text := "format".toList

/-- The parameters captured, that of the suffix last. -/
def names (c : Component) : List Text :=
  c.kind.names ++ if c.format then [formatName] else []

/-- The suffix that marks an optional format. -/
def formatSuffix : Text := ".:format".toList

/-- A component without its suffix, and whether it had one. -/
def stripFormat (s : Text) : Text × Bool :=
  match Text.beforeSuffix? formatSuffix s with
  | some rest => (rest, true)
  | none => (s, false)

/-- The text as a piece, unless it is empty. -/
def literalPiece (s : Text) : List Piece :=
  if s.isEmpty then [] else [.literal s]

/-- Splits a component into texts and captures; fails at a colon that no name follows. -/
def pieces? (s : Text) : Option (List Piece) :=
  match _h : s.dropWhile (· ≠ ':') with
  | [] => some (literalPiece s)
  | _ :: after =>
    -- the name is as long as it can be; a digit right after the colon makes it no name
    if isIdentifier (after.takeWhile isNameChar) then
      (pieces? (after.dropWhile isNameChar)).map fun rest =>
        literalPiece (s.takeWhile (· ≠ ':')) ++ .capture (after.takeWhile isNameChar) :: rest
    else none
termination_by s.length
decreasing_by
  have h₁ := (List.dropWhile_suffix (· ≠ ':') (l := s)).length_le
  have h₂ := (List.dropWhile_suffix isNameChar (l := after)).length_le
  rw [_h] at h₁
  exact Nat.lt_of_le_of_lt h₂ h₁

/-- What a component without its suffix is. -/
def classify (s : Text) : Except TemplateFault ComponentKind :=
  match s with
  | '*' :: name => if isIdentifier name then .ok (.glob name) else .error (.globName name)
  -- `:a-:b` begins with a colon as well, and is no single capture
  | ':' :: name => if isIdentifier name then .ok (.capture name) else mixed s
  | _ => mixed s
where
  /-- A component that is neither a glob nor a capture as a whole. -/
  mixed (s : Text) : Except TemplateFault ComponentKind :=
    if ':' ∈ s then
      -- a colon makes the component compound, and then a star is plain text
      match pieces? s with
      | some pieces => .ok (.compound pieces)
      | none => .error (.captureName s)
    else if '*' ∈ s then .error (.globInside s)
    else .ok (.static s)

/-- Reads a component, which is the last one of its pattern or not. -/
def read (last : Bool) (s : Text) : Except TemplateFault Component := do
  let (text, format) := stripFormat s
  -- what is wrong with the place of the suffix is told before the text is looked at
  if format && !last then .error .formatNotLast
  else if text.isEmpty then .error .formatAlone
  else
    let kind ← classify text
    match kind with
    | .glob _ =>
      if !last then .error .globNotLast
      else if format then .error .globWithFormat
      else return ⟨kind, format⟩
    | _ => return ⟨kind, format⟩

end Component

end Routing
