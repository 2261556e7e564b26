import Routing.Dict
import Routing.Text.Blank

/-!
# Parameter values

What a parameter can hold: scalars, lists and nested maps. Routing looks at a value in three ways,
and each is a function of its own:

* `Value.param?` — the **path form**, the text a value has inside a path; nil and maps have none;
* `Value.isTruthy`, `Value.isBlank` — whether a value counts as given, and as empty;
* `Value.display` — the form shown in messages.

Two values are *the same parameter* (`Value.sameParam`) when their path forms agree, whatever their
constructors. `Params` binds names to values.
-/

namespace Routing

inductive Value where
  /-- Explicit absence: the parameter is to be forgotten. -/
  | nil
  | bool (b : Bool)
  | int (i : Int)
  | str (s : Text)
  /-- A name-like token, told apart from a text of the same letters. -/
  | symbol (s : Text)
  | list (items : List Value)
  /-- A nested mapping; its entries stand in the order of their names. -/
  | map (entries : List (Text × Value))

namespace Value

instance : Inhabited Value := ⟨nil⟩

/-! ## Equality -/

mutual

def decEq : (v w : Value) → Decidable (v = w)
  | nil, nil => isTrue rfl
  | bool a, bool b => decidable_of_iff (a = b) (by simp)
  | int a, int b => decidable_of_iff (a = b) (by simp)
  | str a, str b => decidable_of_iff (a = b) (by simp)
  | symbol a, symbol b => decidable_of_iff (a = b) (by simp)
  | list a, list b =>
    have := decEqList a b
    decidable_of_iff (a = b) (by simp)
  | map a, map b =>
    have := decEqEntries a b
    decidable_of_iff (a = b) (by simp)
  | nil, bool _ | nil, int _ | nil, str _ | nil, symbol _ | nil, list _ | nil, map _
  | bool _, nil | bool _, int _ | bool _, str _ | bool _, symbol _ | bool _, list _ | bool _, map _
  | int _, nil | int _, bool _ | int _, str _ | int _, symbol _ | int _, list _ | int _, map _
  | str _, nil | str _, bool _ | str _, int _ | str _, symbol _ | str _, list _ | str _, map _
  | symbol _, nil | symbol _, bool _ | symbol _, int _ | symbol _, str _ | symbol _, list _
  | symbol _, map _
  | list _, nil | list _, bool _ | list _, int _ | list _, str _ | list _, symbol _ | list _, map _
  | map _, nil | map _, bool _ | map _, int _ | map _, str _ | map _, symbol _ | map _, list _ =>
    isFalse (by simp)

/-- Decides whether two lists of values are equal. -/
def decEqList : (v w : List Value) → Decidable (v = w)
  | [], [] => isTrue rfl
  | [], _ :: _ | _ :: _, [] => isFalse (by simp)
  | v :: vs, w :: ws =>
    have := decEq v w
    have := decEqList vs ws
    decidable_of_iff (v = w ∧ vs = ws) (by simp)

/-- Decides whether two lists of entries are equal. -/
def decEqEntries : (v w : List (Text × Value)) → Decidable (v = w)
  | [], [] => isTrue rfl
  | [], _ :: _ | _ :: _, [] => isFalse (by simp)
  | (k, v) :: vs, (j, w) :: ws =>
    have := decEq v w
    have := decEqEntries vs ws
    decidable_of_iff ((k = j ∧ v = w) ∧ vs = ws) (by simp)

end

instance : DecidableEq Value := decEq

/-! ## The path form -/

mutual

/-- The text a value has inside a path. Nil and maps have none; a list has its items' forms, set
apart by slashes. -/
def param? : Value → Option Text
  | nil => none
  | bool b => some (Text.ofBool b)
  | int i => some (Text.ofInt i)
  | str s => some s
  | symbol s => some s
  | list items => some (['/'].intercalate (params items))
  | map _ => none

/-- The path forms of those values that have one. -/
def params : List Value → List Text
  | [] => []
  | v :: vs => (param? v).toList ++ params vs

end

theorem params_eq_filterMap (vs : List Value) : params vs = vs.filterMap param? := by
  induction vs with
  | nil => rfl
  | cons v vs ih => cases h : param? v <;> simp [params, h, ih]

/-! ## Counting as given, counting as empty -/

/-- Nil and `false` do not count as given; every other value does. -/
def isTruthy : Value → Bool
  | nil => false
  | bool b => b
  | _ => true

def isNil : Value → Bool
  | nil => true
  | _ => false

/-- Nil, `false`, texts of blank characters, and empty lists and maps. -/
def isBlank : Value → Bool
  | nil => true
  | bool b => !b
  | int _ => false
  | str s => s.all Routing.isBlank
  | symbol s => s.all Routing.isBlank
  | list items => items.isEmpty
  | map entries => entries.isEmpty

/-- The characters of a text or a token. -/
def text? : Value → Option Text
  | str s => some s
  | symbol s => some s
  | _ => none

/-- Whether two values have the same path form, or both none. -/
def sameParam (v w : Value) : Bool :=
  v.param? = w.param?

/-! ## The displayed form -/

mutual

/-- The form shown in messages: a token after a colon, a list in brackets, a map in braces, and
every other value in its path form. -/
def display : Value → Text
  | nil => "nil".toList
  | bool b => Text.ofBool b
  | int i => Text.ofInt i
  | str s => s
  | symbol s => ':' :: s
  | list items => ['['] ++ ", ".toList.intercalate (displayItems items) ++ [']']
  | map entries => ['{'] ++ ", ".toList.intercalate (displayEntries entries) ++ ['}']

def displayItems : List Value → List Text
  | [] => []
  | v :: vs => display v :: displayItems vs

/-- The displayed forms of the entries of a map, each with its name. -/
def displayEntries : List (Text × Value) → List Text
  | [] => []
  | (k, v) :: es => (k ++ ": ".toList ++ display v) :: displayEntries es

end

end Value

/-! ## Parameters -/

abbrev Params := Dict Value

namespace Params

/-- The value of a parameter that counts as given. -/
def given? (p : Params) (k : Text) : Option Value :=
  (p.get? k).filter Value.isTruthy

/-- The path form of a parameter that counts as given. -/
def givenParam? (p : Params) (k : Text) : Option Text :=
  (p.given? k).bind Value.param?

/-- The parameters as a message shows them. -/
def display (p : Params) : Text :=
  (Value.map p.entries).display

end Params

/-- The path form of a value that may be missing; a missing value has none, as nil has none. -/
def Value.paramOf? (v : Option Value) : Option Text :=
  v.bind Value.param?

end Routing
