import Routing.Proofs.Generation.Expiry

/-!
# Values of one path form

A number, a token and `true` are written into a path as texts, and they are compared as texts. So it
makes no difference which of them an option is, or whether it is the text itself: both have the same
path, and whatever is left over is the option as it was given, or the same for both. Two runs are
compared whose options differ in this way. Controller and action become texts in the first step to
the common form; after that every step looks at path forms only.

* `Value.spelled`, `Params.spelled` — values as texts
* `Intent.Respelled` — intents with options of the same path forms
* `Intent.respelled_normalize` — so are their common forms
* `Table.generate_spelled` — links of options as they are and as texts
-/

namespace Routing

/-! ## Values as texts -/

namespace Value

/-- A number, a token and `true` as a text; every other value as it is. -/
def spelled : Value → Value
  | .int i => .str (Text.ofInt i)
  | .symbol s => .str s
  | .bool true => .str (Text.ofBool true)
  | v => v

theorem param?_spelled (v : Value) : v.spelled.param? = v.param? := by
  cases v with
  | bool b => cases b <;> rfl
  | nil | int | str | symbol | list | map => rfl

theorem isTruthy_spelled (v : Value) : v.spelled.isTruthy = v.isTruthy := by
  cases v with
  | bool b => cases b <;> rfl
  | nil | int | str | symbol | list | map => rfl

theorem escaped_spelled (name : Text) (v : Value) (raw : Text) :
    Rendering.escaped name v.spelled raw = Rendering.escaped name v raw := by
  cases v with
  | bool b => cases b <;> rfl
  | nil | int | str | symbol | list | map => rfl

theorem textual_spelled (v : Value) : v.spelled.textual = v.textual := by
  cases v with
  | bool b => cases b <;> rfl
  | nil | int | str | symbol | list | map => rfl

end Value

namespace Params

/-- The parameters with the values of some names as texts. -/
def spelled (chosen : Text → Bool) (p : Params) : Params :=
  p.map fun name v => if chosen name then v.spelled else v

variable (chosen : Text → Bool) (p : Params) (k : Text)

/-- A parameter is left as it is or spelled. -/
theorem get?_spelled : (p.spelled chosen).get? k = p.get? k ∨
    (p.spelled chosen).get? k = (p.get? k).map Value.spelled := by
  rw [spelled, Dict.get?_map]
  cases chosen k with
  | false => exact .inl (by simp)
  | true => exact .inr (by simp)

/-- Stripping and spelling may change places. -/
theorem spelled_strip (options : Params) :
    Reserved.strip (options.spelled chosen) = (Reserved.strip options).spelled chosen := by
  apply Dict.ext_get?
  intro k
  rw [Reserved.get?_strip, spelled, spelled, Dict.get?_map, Dict.get?_map, Reserved.get?_strip]
  split <;> rfl

/-- Where a parameter becomes a text, it is the same in both. -/
theorem map_textual_spelled :
    ((p.spelled chosen).get? k).map Value.textual = (p.get? k).map Value.textual := by
  rcases get?_spelled chosen p k with h | h
  · rw [h]
  · rw [h, Option.map_map]
    simp only [Function.comp_def, Value.textual_spelled]

/-- A test that does not tell values from their texts keeps a parameter in both or in neither. -/
theorem filter_spelled (f : Value → Bool) (hf : ∀ v : Value, f v.spelled = f v) :
    ((p.spelled chosen).get? k).filter f = (p.get? k).filter f ∨
      (p.get? k).filter f = p.get? k ∧
        ((p.spelled chosen).get? k).filter f = (p.spelled chosen).get? k := by
  rcases get?_spelled chosen p k with h | h
  · exact .inl (by rw [h])
  · rw [h]
    cases p.get? k with
    | none => exact .inl rfl
    | some v =>
      rw [Option.map_some, Option.filter_some, Option.filter_some, hf]
      split
      · exact .inr ⟨rfl, rfl⟩
      · exact .inl rfl

/-- The same parameters count as given. -/
theorem given?_spelled : Params.given? (p.spelled chosen) k = Params.given? p k ∨
    Params.given? (p.spelled chosen) k = (Params.given? p k).map Value.spelled := by
  rw [given?, given?]
  rcases get?_spelled chosen p k with h | h
  · exact .inl (by rw [h])
  · right
    rw [h, Option.filter_map]
    simp only [Function.comp_def, Value.isTruthy_spelled]

theorem givenParam?_spelled : Params.givenParam? (p.spelled chosen) k = Params.givenParam? p k := by
  rw [givenParam?, givenParam?]
  rcases given?_spelled chosen p k with h | h
  · rw [h]
  · rw [h, Option.bind_map]
    simp only [Function.comp_def, Value.param?_spelled]

end Params

/-! ## Intents -/

namespace Intent

/-- The intents recall the same; and each option is the same for both, or it is the one that was
given, as it is in the one and spelled in the other. Controller and action are the same. -/
structure Respelled (chosen : Text → Bool) (options : Params) (x y : Intent) : Prop where
  recalled : y.recalled = x.recalled
  options : ∀ k, y.options.get? k = x.options.get? k ∨
    (k ≠ controllerKey ∧ k ≠ actionKey) ∧ x.options.get? k = options.get? k ∧
      y.options.get? k = (options.spelled chosen).get? k

variable {chosen : Text → Bool} {options recalled : Params} {x y : Intent} {k : Text}

theorem Respelled.get?_controller (h : Respelled chosen options x y) :
    y.options.get? controllerKey = x.options.get? controllerKey :=
  (h.options controllerKey).resolve_right fun hne => hne.1.1 rfl

theorem Respelled.get?_action (h : Respelled chosen options x y) :
    y.options.get? actionKey = x.options.get? actionKey :=
  (h.options actionKey).resolve_right fun hne => hne.1.2 rfl

/-- Each option is the same for both or, in the second one, spelled. -/
theorem Respelled.get? (h : Respelled chosen options x y) (k : Text) :
    y.options.get? k = x.options.get? k ∨
      y.options.get? k = (x.options.get? k).map Value.spelled := by
  rcases h.options k with hk | ⟨-, hx, hy⟩
  · exact .inl hk
  · rw [hx, hy]
    exact Params.get?_spelled ..

/-- Both intents change alike in an option and in what they recall. -/
theorem Respelled.congr (h : Respelled chosen options x y) {x' y' : Intent} (name : Text)
    (hrecalled : y'.recalled = x'.recalled)
    (hname : y'.options.get? name = x'.options.get? name)
    (hx : ∀ k, k ≠ name → x'.options.get? k = x.options.get? k)
    (hy : ∀ k, k ≠ name → y'.options.get? k = y.options.get? k) :
    Respelled chosen options x' y' where
  recalled := hrecalled
  options := by
    intro k
    by_cases hk : k = name
    · rw [hk]
      exact .inl hname
    · rw [hx k hk, hy k hk]
      exact h.options k

/-- Intents stay respelled when one option is set in both. -/
theorem Respelled.insert (h : Respelled chosen options x y) (name : Text) (v : Value)
    {p q : Params} (hrecalled : q = p) :
    Respelled chosen options ⟨x.options.insert name v, p⟩ ⟨y.options.insert name v, q⟩ := by
  refine h.congr name hrecalled ?_ ?_ ?_
  · rw [Dict.get?_insert, Dict.get?_insert, if_pos rfl, if_pos rfl]
  · intro k hk
    exact (Dict.get?_insert ..).trans (if_neg (Ne.symm hk))
  · intro k hk
    exact (Dict.get?_insert ..).trans (if_neg (Ne.symm hk))

/-! ## The common form -/

/-- With controller and action as texts the options of both intents have them in common. -/
theorem respelled_completeOptions (chosen : Text → Bool) (options recalled : Params) :
    Respelled chosen options (completeOptions ⟨options, recalled⟩)
      (completeOptions ⟨options.spelled chosen, recalled⟩) where
  recalled := rfl
  options := by
    intro k
    -- the controller and the action are texts from here on, and any other option is as it was
    by_cases hc : k = controllerKey
    · subst hc
      left
      rw [get?_completeOptions_controller, get?_completeOptions_controller]
      exact Params.map_textual_spelled ..
    · by_cases ha : k = actionKey
      · subst ha
        left
        have hgiven : (Params.given? (options.spelled chosen) actionKey).isNone =
            (Params.given? options actionKey).isNone := by
          rcases Params.given?_spelled chosen options actionKey with h | h
          · rw [h]
          · rw [h, Option.isNone_map]
        rw [get?_completeOptions_action, get?_completeOptions_action]
        simp only [Params.givenParam?_spelled, hgiven, Params.map_textual_spelled]
      · right
        have hget (o : Params) : (completeOptions ⟨o, recalled⟩).options.get? k = o.get? k :=
          get?_completeOptions_of_ne hc ha
        exact ⟨⟨hc, ha⟩, hget options, hget _⟩

/-- The same recalled parameters stay. -/
theorem Respelled.stickOne [Properties] (h : Respelled chosen options x y) (selected : Option Route)
    (name : Text) : (x.stickOne selected name = none ∧ y.stickOne selected name = none) ∨
      ∃ x' y', x.stickOne selected name = some x' ∧ y.stickOne selected name = some y' ∧
        Respelled chosen options x' y' := by
  rw [Intent.stickOne, Intent.stickOne, h.recalled]
  cases Params.given? x.recalled name with
  | none => exact .inl ⟨rfl, rfl⟩
  | some kept =>
    -- what is asked for is compared by its path form, which spelling keeps
    have hdiffers : (y.options.get? name).any (fun v => !v.sameParam kept) =
        (x.options.get? name).any fun v => !v.sameParam kept := by
      rcases h.get? name with hname | hname
      · rw [hname]
      · rw [hname, Option.any_map]
        simp only [Value.sameParam, Value.param?_spelled]
    simp only [Option.bind_eq_bind, Option.bind_some, hdiffers]
    split
    · exact .inl ⟨rfl, rfl⟩
    · exact .inr ⟨_, _, rfl, rfl, h.insert name kept rfl⟩

/-- Intents stay respelled when parameters are taken over. -/
theorem Respelled.stickAll [Properties] (h : Respelled chosen options x y) (selected : Option Route)
    (keys : List Text) :
    Respelled chosen options (x.stickAll selected keys) (y.stickAll selected keys) := by
  induction keys generalizing x y with
  | nil => exact h
  | cons name keys ih =>
    rw [Intent.stickAll, Intent.stickAll]
    rcases h.stickOne selected name with ⟨hx, hy⟩ | ⟨x', y', hx, hy, h'⟩
    · rw [hx, hy]
      exact h
    · rw [hx, hy]
      exact ih h'

/-- Intents stay respelled when the controller is resolved. -/
theorem Respelled.resolve (h : Respelled chosen options x y) :
    Respelled chosen options x.resolve y.resolve := by
  have hcontroller : Params.givenParam? y.options controllerKey =
      Params.givenParam? x.options controllerKey := by
    rw [Params.givenParam?, Params.givenParam?, Params.given?, Params.given?, h.get?_controller]
  rw [Intent.resolve, Intent.resolve, h.recalled, hcontroller]
  split
  · split
    · exact h
    · exact h.insert controllerKey _ rfl
  · exact h

theorem Respelled.resolveUnless [Properties] (h : Respelled chosen options x y)
    (selected : Option Route) :
    Respelled chosen options (if selected.isNone then x.resolve else x)
      (if selected.isNone then y.resolve else y) := by
  split
  · exact h.resolve
  · exact h

theorem Respelled.stripSlash (h : Respelled chosen options x y) :
    Respelled chosen options x.stripSlash y.stripSlash := by
  rw [Intent.stripSlash, Intent.stripSlash, h.get?_controller]
  split
  · exact h.insert controllerKey _ h.recalled
  · exact h

theorem Respelled.nameIndex (h : Respelled chosen options x y) :
    Respelled chosen options x.nameIndex y.nameIndex := by
  rw [Intent.nameIndex, Intent.nameIndex, h.get?_action]
  split
  · exact h.insert actionKey _ h.recalled
  · exact h

/-- Intents stay respelled when the index is moved to the recall. -/
theorem Respelled.recallIndex (h : Respelled chosen options x y) :
    Respelled chosen options x.recallIndex y.recallIndex := by
  rw [Intent.recallIndex, Intent.recallIndex, h.get?_action, h.recalled]
  split
  · split
    · refine h.congr actionKey rfl ?_ ?_ ?_
      · rw [Dict.get?_erase, Dict.get?_erase, if_pos rfl, if_pos rfl]
      · intro k hk
        exact (Dict.get?_erase ..).trans (if_neg (Ne.symm hk))
      · intro k hk
        exact (Dict.get?_erase ..).trans (if_neg (Ne.symm hk))
    · exact h
  · exact h

/-- The common forms of options as they are and as texts. -/
theorem respelled_normalize [Properties] (selected : Option Route) (chosen : Text → Bool)
    (options recalled : Params) :
    Respelled chosen options (normalize selected ⟨options, recalled⟩)
      (normalize selected ⟨options.spelled chosen, recalled⟩) := by
  have hrecall (o : Params) : completeRecall ⟨o, recalled⟩ =
      ⟨o, (completeRecall ⟨.empty, recalled⟩).recalled⟩ := by
    rw [completeRecall, completeRecall]
    split <;> rfl
  rw [normalize, normalize, hrecall, hrecall (options.spelled chosen)]
  have hstick := (respelled_completeOptions chosen options
    (completeRecall ⟨.empty, recalled⟩).recalled).stickAll selected [controllerKey, actionKey, idKey]
  exact (hstick.resolveUnless selected).stripSlash.nameIndex.recallIndex

end Intent

/-! ## Links -/

namespace Route

variable [Properties] {r : Route} {p q : Params} {name : Text}

/-- A value and its text are written and compared alike. -/
theorem Agrees.of_spelled (h : q.get? name = (p.get? name).map Value.spelled) :
    r.Agrees p q name := by
  have hgiven : Params.given? q name = (Params.given? p name).map Value.spelled := by
    rw [Params.given?, Params.given?, h, Option.filter_map]
    simp only [Function.comp_def, Value.isTruthy_spelled]
  cases hv : Params.given? p name with
  | none =>
    apply Agrees.of_value?
    rw [Rendering.value?, Rendering.value?, hgiven, hv]
    rfl
  | some v =>
    have hp : Rendering.value? ⟨r, p⟩ name = some v := by
      rw [Rendering.value?, hv]
      rfl
    have hq : Rendering.value? ⟨r, q⟩ name = some v.spelled := by
      rw [Rendering.value?, hgiven, hv]
      rfl
    constructor
    case form =>
      rw [hp, hq]
      exact (Value.param?_spelled v).symm
    case text =>
      intro glob
      rw [Rendering.capture?, Rendering.capture?, hp, hq]
      simp only [Option.bind_eq_bind, Option.bind_some, Value.param?_spelled,
        Value.escaped_spelled]
      rfl

end Route

/-- The same path; and a parameter that is left over is the same for both, or it is the option that
was given, as it is in the one and spelled in the other. -/
structure Link.Respelled (chosen : Text → Bool) (options : Params) (l l' : Link) : Prop where
  path : l'.path = l.path
  extras : ∀ k, l'.extras.get? k = l.extras.get? k ∨
    l.extras.get? k = options.get? k ∧ l'.extras.get? k = (options.spelled chosen).get? k

namespace Intent

variable {chosen : Text → Bool} {options : Params} {x y : Intent}

/-- Both have the same options set. -/
theorem Respelled.contains (h : Respelled chosen options x y) (k : Text) :
    x.options.contains k = y.options.contains k := by
  rw [Dict.contains, Dict.contains]
  rcases h.get? k with hk | hk
  · rw [hk]
  · rw [hk, Option.isSome_map]

/-- Laid over the same parameters, an option is the same in both or spelled. -/
theorem Respelled.overlay (h : Respelled chosen options x y) (lower : Params) (k : Text) :
    (lower.overlay y.options).get? k = (lower.overlay x.options).get? k ∨
      (lower.overlay y.options).get? k = ((lower.overlay x.options).get? k).map Value.spelled := by
  rw [Dict.get?_overlay, Dict.get?_overlay]
  rcases h.get? k with hk | hk
  · exact .inl (by rw [hk])
  · rw [hk]
    cases x.options.get? k with
    | none => exact .inl rfl
    | some v => exact .inr rfl

/-- A route has links of the same path for both. -/
theorem Respelled.link? [Properties] (h : Respelled chosen options x y) (r : Route)
    (lower : Params) :
    Option.Rel (Link.Respelled chosen options) (r.link? x.options lower)
      (r.link? y.options lower) := by
  have hmeets : r.meetsDefaults (lower.overlay x.options) =
      r.meetsDefaults (lower.overlay y.options) := by
    apply Route.meetsDefaults_congr
    intro name _
    rcases h.overlay lower name with hk | hk
    · rw [hk]
    · rw [hk, Value.paramOf?, Value.paramOf?, Option.bind_map]
      simp only [Function.comp_def, Value.param?_spelled]
  have hagrees (name : Text) : r.Agrees (lower.overlay x.options) (lower.overlay y.options) name := by
    rcases h.overlay lower name with hk | hk
    · exact .of_get? hk.symm
    · exact .of_spelled hk
  have hlinks := Route.link?_agrees hmeets h.contains fun name _ => hagrees name
  generalize r.link? x.options lower = l at hlinks
  generalize r.link? y.options lower = l' at hlinks
  -- both have a link or neither, with the same path and the same names left over
  cases hlinks with
  | none => exact .none
  | some hl =>
    obtain ⟨hpath, consumed, hextras, hextras'⟩ := hl
    refine .some ⟨hpath.symm, fun k => ?_⟩
    rw [hextras, hextras', Route.get?_leftOver, Route.get?_leftOver]
    split
    · exact .inl rfl
    · rcases h.options k with hk | ⟨-, hx, hy⟩
      · exact .inl (by rw [hk])
      · rw [hx, hy]
        exact Params.filter_spelled chosen options k _ fun v => by
          simp only [Value.isTruthy_spelled, Value.sameParam, Value.param?_spelled]

end Intent

/-- The same error about options whose values are texts. -/
def GenerationError.spelled (chosen : Text → Bool) : GenerationError → GenerationError
  | noRoute options => noRoute (options.spelled chosen)
  | violatedRequirements name options => violatedRequirements name (options.spelled chosen)
  | e => e

namespace Table

/-- Both answers are links of the same path, or the same error about either of the options. -/
def SameAnswer (chosen : Text → Bool) (options : Params) :
    (answer answer' : Except GenerationError Link) → Prop
  | .ok l, .ok l' => l.Respelled chosen options l'
  | .error e, .error e' => e' = e.spelled chosen
  | .ok _, .error _ | .error _, .ok _ => False

variable [Properties] {t : Table} {chosen : Text → Bool} {options recalled : Params}

/-- The first link is the same, up to the spelling of what is left over. -/
theorem firstLink?_of_respelled {x y : Intent} (h : x.Respelled chosen options y)
    (routes : List Route) :
    Option.Rel (Link.Respelled chosen options) (firstLink? x routes) (firstLink? y routes) := by
  induction routes with
  | nil => exact .none
  | cons r rest ih =>
    rw [firstLink?, firstLink?]
    split
    · have hlink := h.link? r x.recalled
      rw [h.recalled]
      generalize r.link? x.options x.recalled = l at hlink
      generalize r.link? y.options x.recalled = l' at hlink
      cases hlink with
      | none => exact ih
      | some hl => exact .some hl
    · exact ih

/-- Without a selected route, spelling changes the answer only where it shows. -/
theorem generateAny_spelled (t : Table) (options recalled : Params) (chosen : Text → Bool) :
    SameAnswer chosen options (t.generateAny options recalled)
      (t.generateAny (options.spelled chosen) recalled) := by
  have hlinks := firstLink?_of_respelled
    (Intent.respelled_normalize none chosen options recalled) t.routes
  rw [generateAny, generateAny]
  generalize firstLink? (Intent.normalize none ⟨options, recalled⟩) t.routes = l at hlinks
  generalize firstLink? (Intent.normalize none ⟨options.spelled chosen, recalled⟩) t.routes = l'
    at hlinks
  cases hlinks with
  | none => exact rfl
  | some hl => exact hl

/-- With a selected route, spelling changes the answer only where it shows. -/
theorem generateSelected_spelled (t : Table) (name : Text) (options recalled : Params)
    (chosen : Text → Bool) :
    SameAnswer chosen options (t.generateSelected name options recalled)
      (t.generateSelected name (options.spelled chosen) recalled) := by
  rw [generateSelected, generateSelected]
  cases t.named? name with
  | none => exact rfl
  | some r =>
    have hnormal := Intent.respelled_normalize (some r) chosen options recalled
    have hlink := hnormal.link? r
      (r.defaults.overlay (Intent.normalize (some r) ⟨options, recalled⟩).recalled)
    rw [← hnormal.recalled] at hlink
    simp only [← hnormal.recalled]
    generalize Intent.normalize (some r) ⟨options, recalled⟩ = x at hlink
    generalize Intent.normalize (some r) ⟨options.spelled chosen, recalled⟩ = y at hlink
    generalize r.link? x.options (r.defaults.overlay y.recalled) = l at hlink
    generalize r.link? y.options (r.defaults.overlay y.recalled) = l' at hlink
    cases hlink with
    | none => exact rfl
    | some hl => exact hl

omit [Properties] in
/-- Reserved options are in no link. -/
theorem SameAnswer.of_strip {answer answer' : Except GenerationError Link}
    (h : SameAnswer chosen (Reserved.strip options) answer answer') :
    SameAnswer chosen options answer answer' := by
  cases answer with
  | error e =>
    cases answer' with
    | error e' => exact h
    | ok l' => exact h
  | ok l =>
    cases answer' with
    | error e' => exact h
    | ok l' =>
      refine ⟨h.path, fun k => ?_⟩
      -- a reserved key is not left over, spelled or not
      have hk := h.extras k
      rw [← Params.spelled_strip, Reserved.get?_strip, Reserved.get?_strip] at hk
      split at hk
      · rcases hk with hk | ⟨hl, hl'⟩
        · exact .inl hk
        · exact .inl (hl'.trans hl.symm)
      · exact hk

/-- Options have a link when their texts have one, and it is the same but for the options left
over, which are left over as they were given. -/
theorem generate_spelled (t : Table) (options recalled : Params) (chosen : Text → Bool) :
    SameAnswer chosen options (t.generate options recalled)
        (t.generate (options.spelled chosen) recalled) ∧
      ∀ name, SameAnswer chosen options (t.generateNamed name options recalled)
        (t.generateNamed name (options.spelled chosen) recalled) := by
  have hselected (name : Text) : SameAnswer chosen options
      (t.generateSelected name (Reserved.strip options) recalled)
      (t.generateSelected name (Reserved.strip (options.spelled chosen)) recalled) := by
    rw [Params.spelled_strip]
    exact (generateSelected_spelled t name _ recalled chosen).of_strip
  refine ⟨?_, hselected⟩
  rw [generate, generate, Params.givenParam?_spelled]
  split
  · exact hselected _
  · rw [Params.spelled_strip]
    exact (generateAny_spelled t _ recalled chosen).of_strip

end Table

end Routing
