import Routing.Regex

/-!
# Requirements

A requirement restricts the text of a capture by an expression. It is used in two ways: alone, to
check a value before it is put into a path, and as a **fragment** of the expression that recognises
whole paths. Because of the second use an expression that anchors itself to the ends of the text, or
that lets line anchors hold inside it, is refused; both are found by looking at the text.

* `Requirement.Source` — a requirement as written; `Requirement.Source.ofLiteral` reads `/…/flags`
* `Requirement.compile` — checks the flags, looks for anchors, and compiles
* `Requirement.fragment` — the group that stands for the requirement in a larger expression
* `Requirement.accepts` — whether a text as a whole meets the requirement
* `Requirement.eq_of_fields` — source and options determine a requirement
-/

namespace Routing

/-! ## As written -/

/-- An expression and its option letters. -/
structure Requirement.Source where
  pattern : Text
  flags : Text
deriving DecidableEq

namespace Requirement.Source

def plain (pattern : Text) : Source := ⟨pattern, []⟩

/-- Reads `/pattern/flags`, where the flags are letters; any other text is an expression without
options. -/
def ofLiteral (s : Text) : Source :=
  match s with
  | '/' :: body =>
    -- the last slash closes, so the expression may contain slashes
    match Text.cutLast? '/' body with
    | some (pattern, flags) => if flags.all Char.isAlpha then ⟨pattern, flags⟩ else plain s
    | none => plain s
  | _ => plain s

end Requirement.Source

/-! ## What is refused -/

namespace Requirement

/-- Why a requirement is refused. -/
inductive Fault where
  /-- The expression is anchored at one of its ends. -/
  | anchored
  /-- Line anchors would hold inside the text. -/
  | multiLine
  /-- An option letter is unknown. -/
  | flag (letter : Char)
  | expression (fault : Regex.Fault)
deriving DecidableEq

/-- Whether a text begins with an odd number of backslashes. The text is read from right to left:
in an expression, an odd run of backslashes takes away the meaning of what stands after it. -/
def oddBackslashes (s : Text) : Bool :=
  (s.takeWhile (· = '\\')).length % 2 = 1

/-- Whether an expression begins with a start anchor or ends with an end anchor that no backslash
disarms. -/
def isAnchored (pattern : Text) : Bool :=
  match pattern with
  | '^' :: _ => true
  | '\\' :: 'A' :: _ => true
  | _ =>
    -- the reversed text begins with the end of the pattern
    match pattern.reverse with
    | 'Z' :: '\\' :: s => !oddBackslashes s
    | 'z' :: '\\' :: s => !oddBackslashes s
    | '$' :: s => !oddBackslashes s
    | _ => false

/-- Whether the text after `(?` is a list of flags that switches `m` on. -/
def switchesMultiLine (s : Text) : Bool :=
  let letters := s.takeWhile fun c => c ≠ ':' && c ≠ ')'
  -- after a hyphen flags are switched off
  letters.all (fun c => c.isAlpha || c = '-') && 'm' ∈ letters.takeWhile (· ≠ '-')

/-- Whether a group of an expression switches line anchors on; `odd` tells that an odd number of
backslashes stands before the text. -/
def enablesMultiLine (odd : Bool) : Text → Bool
  | [] => false
  -- a backslash disarms the character after it, unless it is disarmed itself
  | '\\' :: s => enablesMultiLine (!odd) s
  -- the question mark is read again, as the text after the parenthesis
  | '(' :: '?' :: s => (!odd && switchesMultiLine s) || enablesMultiLine false ('?' :: s)
  | _ :: s => enablesMultiLine false s

/-- The options `i` and `x` among the letters. -/
def options (ignoreCase extended : Bool) : Text → Except Fault (Bool × Bool)
  | [] => .ok (ignoreCase, extended)
  | 'i' :: s => options true extended s
  | 'x' :: s => options ignoreCase true s
  | 'm' :: _ => .error .multiLine
  | c :: _ => .error (.flag c)

/-- The group that carries an expression and its options. An extended expression may end with a
comment, so a line feed stands before the closing parenthesis. -/
def fragmentOf (source : Text) (ignoreCase extended : Bool) : Text :=
  "(?".toList ++ (if ignoreCase then ['i'] else []) ++ (if extended then ['x'] else []) ++ [':']
    ++ source ++ (if extended then ['\n'] else []) ++ [')']

end Requirement

/-! ## Compiled requirements -/

variable [Properties]

structure Requirement where
  source : Text
  ignoreCase : Bool
  /-- Blanks and comments are skipped. -/
  extended : Bool
  /-- The expression that matches whole texts. -/
  whole : Regex
  /-- It is the fragment between anchors. -/
  whole_source :
    whole.source = ['^'] ++ Requirement.fragmentOf source ignoreCase extended ++ ['$']

namespace Requirement

theorem eq_of_fields {r q : Requirement} (hs : r.source = q.source)
    (hi : r.ignoreCase = q.ignoreCase) (hx : r.extended = q.extended) : r = q := by
  obtain ⟨s, i, x, w, hw⟩ := r
  obtain ⟨s', i', x', w', hw'⟩ := q
  cases hs; cases hi; cases hx
  cases Regex.eq_of_source (hw.trans hw'.symm)
  rfl

instance : DecidableEq Requirement := fun r q =>
  decidable_of_iff
    (r.source = q.source ∧ r.ignoreCase = q.ignoreCase ∧ r.extended = q.extended)
    ⟨fun h => eq_of_fields h.1 h.2.1 h.2.2, fun h => h ▸ ⟨rfl, rfl, rfl⟩⟩

/-- The group that stands for the requirement in a larger expression. -/
def fragment (r : Requirement) : Text :=
  fragmentOf r.source r.ignoreCase r.extended

/-- Compiles a requirement. Options are checked first, then flag groups, then anchors. -/
def compile (spec : Source) : Except Fault Requirement := do
  let (ignoreCase, extended) ← options false false spec.flags
  -- both searches run over the text as written: a bracket or a comment hides nothing
  if enablesMultiLine false spec.pattern then .error .multiLine
  else if isAnchored spec.pattern then .error .anchored
  -- between anchors the expression has to match the text as a whole
  else match h : Regex.compile (['^'] ++ fragmentOf spec.pattern ignoreCase extended ++ ['$']) with
    | .error fault => .error (.expression fault)
    | .ok whole =>
      return { source := spec.pattern, ignoreCase, extended, whole
               whole_source := Regex.source_of_compile h }

/-- Whether a text as a whole meets the requirement. -/
def accepts (r : Requirement) (s : Text) : Bool :=
  r.whole.isMatch s

end Requirement

end Routing
