import Routing.Method
import Routing.Regex.Fault
import Routing.Requirement
import Routing.Template.Component

/-!
# Declarations that do not compile

Why a declaration is refused, and the words for it. What is wrong inside an expression is not told
in words; `<regex>` stands for it.

* `CompileError`, `CompileError.message`
-/

namespace Routing

/-- Why a declaration is refused. -/
inductive CompileError where
  /-- The pattern is no template. -/
  | template (pattern : Text) (fault : TemplateFault)
  /-- The template and its requirements together make no expression. -/
  | matcher (pattern : Text) (fault : Regex.Fault)
  | requirement (name pattern : Text) (fault : Requirement.Fault)
  | method (fault : MethodCondition.Fault)
  /-- A glob has a default. -/
  | globDefault (name : Text)
deriving DecidableEq

namespace CompileError

/-- Stands for what is wrong inside an expression. -/
def expressionFault : Text := "<regex>".toList

/-- A pattern and what is wrong with it. -/
def patternMessage (pattern reason : Text) : Text :=
  "invalid route pattern ".toList ++ Quoted.text pattern ++ ": ".toList ++ reason

/-- A requirement in words: its parameter and its expression. -/
def requirementText (name pattern : Text) : Text :=
  name ++ " => ".toList ++ Quoted.text pattern

def message : CompileError → Text
  | template pattern fault => patternMessage pattern fault.message
  | matcher pattern _ => patternMessage pattern expressionFault
  | requirement name pattern .anchored =>
    "regexp anchor characters are not allowed in routing requirements: ".toList ++
      requirementText name pattern
  | requirement name pattern .multiLine =>
    "regexp multiline option is not allowed in routing requirements: ".toList ++
      requirementText name pattern
  | requirement name _ (.flag letter) =>
    "unsupported regexp option ".toList ++ Quoted.char letter ++
      " in routing requirement for ".toList ++ name
  | requirement name _ (.expression _) =>
    "invalid routing requirement for ".toList ++ name ++ ": ".toList ++ expressionFault
  | method (.unknown token) =>
    "invalid HTTP method specified in route conditions: ".toList ++ Quoted.text token
  | method .head =>
    ("HTTP method HEAD is invalid in route conditions; " ++
      "GET conditions also match HEAD requests").toList
  | globDefault name => "glob capture ".toList ++ name ++ " cannot have a default value".toList

end CompileError

end Routing
