import Routing.Text.Blank

/-!
# Request methods

The methods a route table understands, and the condition a route puts on them. A route that answers
`GET` answers `HEAD` too, so `HEAD` itself is never part of a condition.

* `Method.ofToken?` — reads a method from a token, in any case and with blanks around it
* `MethodCondition.ofTokens` — reads a condition, with the reason why a token is refused
* `MethodCondition.allows` — whether a request's method meets the condition
-/

namespace Routing

/-- A request method. The methods are declared in the order in which messages list them. -/
inductive Method where
  | get
  | head
  | post
  | put
  | delete
  | options
deriving DecidableEq

namespace Method

/-- Every method, in the order of their declaration. -/
def all : List Method :=
  [get, head, post, put, delete, options]

def token : Method → Text
  | get => "GET".toList
  | head => "HEAD".toList
  | post => "POST".toList
  | put => "PUT".toList
  | delete => "DELETE".toList
  | options => "OPTIONS".toList

/-- The method of a token, up to case and surrounding blanks. -/
def ofToken? (s : Text) : Option Method :=
  all.find? fun m => m.token = s.trimBlank.upper

/-- The method whose condition answers a request: `HEAD` is answered like `GET`. -/
def effective : Method → Method
  | head => get
  | m => m

theorem mem_all (m : Method) : m ∈ all := by
  cases m <;> decide

end Method

/-- The methods a route accepts. -/
inductive MethodCondition where
  | any
  /-- Only those listed, in the order of their first mention. -/
  | only (methods : List Method)
deriving DecidableEq

namespace MethodCondition

/-- Why a token is refused in a condition. -/
inductive Fault where
  /-- The token was `HEAD`, which goes with `GET` and cannot be named. -/
  | head
  /-- The token names no method. -/
  | unknown (token : Text)
deriving DecidableEq

/-- The word for the condition that accepts every method. -/
def anyToken : Text := "any".toList

/-- Reads tokens from the left onto the methods found so far. The word `any` ends the reading, as
does the first token that is refused. -/
def collect (found : List Method) : List Text → Except Fault MethodCondition
  | [] => .ok (if found.isEmpty then .any else .only found)
  | t :: rest =>
    -- what follows is not read, so a bad token there goes unnoticed
    if t.sameLetters anyToken then .ok .any
    else match Method.ofToken? t with
      | none => .error (.unknown t)
      | some .head => .error .head
      -- a method named again keeps its first place
      | some m => collect (if m ∈ found then found else found ++ [m]) rest

/-- The condition of a list of tokens; an empty list accepts every method. -/
def ofTokens (tokens : List Text) : Except Fault MethodCondition :=
  collect [] tokens

/-- The listed methods; none when every method is accepted. -/
def methods : MethodCondition → List Method
  | any => []
  | only ms => ms

/-- Whether a request with method `m` meets the condition. -/
def allows : MethodCondition → Method → Bool
  | any, _ => true
  -- a condition never lists `HEAD`, so looking up the effective method is enough
  | only ms, m => m.effective ∈ ms

end MethodCondition

end Routing
