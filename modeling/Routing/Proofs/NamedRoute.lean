import Routing.NamedRoute
import Routing.Proofs.Route.Compile
import Routing.Proofs.Table

/-!
# Values given by position

Values given by position are bound to captures over the options that a route's defaults and the
arguments make. When at least two values are missing, they go to the captures that are still open:
those without an argument and without a default. When none or one is missing, they go to the
captures in turn, so that the last value missing is that of the last capture whether it is open or
not; an argument for an earlier capture is lost then.

* `NamedRoute.Binds` — values bound to names in turn; `NamedRoute.binds_bind`
* `NamedRoute.supplies`, `NamedRoute.openKeys` — captures with a value, and those without
* `NamedRoute.optionsFor_binds` — where values go, and what stays as it is
-/

namespace Routing

namespace NamedRoute

/-! ## Binding -/

/-- Options in which values are bound to names in turn, and which agree with `base` on every other
name. -/
structure Binds (base : Params) (names : List Text) (values : List Value) (options : Params) :
    Prop where
  bound : ∀ (i : Nat) {k : Text} {v : Value}, names[i]? = some k → values[i]? = some v →
    options.get? k = some v
  kept : ∀ k, k ∉ names.take values.length → options.get? k = base.get? k

/-- Names beyond the last value do not count. -/
theorem Binds.congr {base : Params} {names names' : List Text} {values : List Value}
    {options : Params} (h : Binds base names values options)
    (heq : names'.take values.length = names.take values.length) :
    Binds base names' values options := by
  constructor
  case bound =>
    intro i k v hk hv
    have hlt : i < values.length := (List.getElem?_eq_some_iff.1 hv).1
    rw [← List.getElem?_take_of_lt hlt, heq, List.getElem?_take_of_lt hlt] at hk
    exact h.bound i hk hv
  case kept =>
    rw [heq]
    exact h.kept

theorem bind_cons (base : Params) (name : Text) (names : List Text) (v : Value)
    (values : List Value) :
    bind base (name :: names) (v :: values) = bind (base.insert name v) names values := rfl

/-- A name that gets no value keeps its own. -/
theorem get?_bind_of_not_mem (base : Params) {names : List Text} {values : List Value} {k : Text}
    (hk : k ∉ names.take values.length) : (bind base names values).get? k = base.get? k := by
  induction names generalizing base values with
  | nil => rfl
  | cons name names ih =>
    cases values with
    | nil => rfl
    | cons v values =>
      rw [List.length_cons, List.take_succ_cons, List.mem_cons, not_or] at hk
      rw [bind_cons, ih _ hk.2, Dict.get?_insert, if_neg (Ne.symm hk.1)]

/-- A name gets the value at its place. -/
theorem get?_bind (base : Params) {names : List Text} {values : List Value} (h : names.Nodup)
    {i : Nat} {k : Text} {v : Value} (hk : names[i]? = some k) (hv : values[i]? = some v) :
    (bind base names values).get? k = some v := by
  induction names generalizing base values i with
  | nil => cases hk
  | cons name names ih =>
    obtain ⟨hnew, hnames⟩ := List.nodup_cons.1 h
    cases values with
    | nil => cases hv
    | cons w values =>
      rw [bind_cons]
      cases i with
      | zero =>
        cases hk
        cases hv
        -- the names are different, so that the value is not overwritten
        rw [get?_bind_of_not_mem _ fun h => hnew (List.mem_of_mem_take h), Dict.get?_insert,
          if_pos rfl]
      | succ i => exact ih _ hnames hk hv

theorem binds_bind (base : Params) {names : List Text} (h : names.Nodup) (values : List Value) :
    Binds base names values (bind base names values) :=
  ⟨fun _ _ _ hk hv => get?_bind base h hk hv, fun _ hk => get?_bind_of_not_mem base hk⟩

/-! ## Open captures -/

section

variable [Properties]

/-- Whether a name has a value before any is given by position: an argument, or a default. -/
def supplies (r : NamedRoute) (args : Params) (k : Text) : Bool :=
  args.contains k || (r.route.defaults.get? k).any fun v => !v.isNil

/-- The captures that wait for a value. -/
def openKeys (r : NamedRoute) (args : Params) : List Text :=
  r.route.keys.filter fun k => !r.supplies args k

/-- The options of a named route: what is given, or its default. -/
theorem get?_hashFor (r : NamedRoute) (args : Params) (onlyPath : Bool) {k : Text}
    (hk : k ∉ Reserved.keys) :
    (r.hashFor args onlyPath).get? k =
      (args.get? k).or ((r.route.defaults.get? k).filter fun v => !v.isNil) := by
  have hroute : Reserved.useRoute ≠ k := by
    rintro rfl
    exact hk (by decide)
  have honly : Reserved.onlyPath ≠ k := by
    rintro rfl
    exact hk (by decide)
  rw [hashFor, Dict.get?_insert, if_neg honly, Dict.get?_insert, if_neg hroute, Dict.get?_overlay,
    Dict.get?_filter]

theorem contains_hashFor (r : NamedRoute) (args : Params) (onlyPath : Bool) {k : Text}
    (hk : k ∉ Reserved.keys) : (r.hashFor args onlyPath).contains k = r.supplies args k := by
  rw [Dict.contains, get?_hashFor r args onlyPath hk, supplies, Dict.contains, Option.isSome_or,
    Option.isSome_filter]

/-- What is given for a capture is kept where the capture gets no value by position. -/
theorem Binds.given {r : NamedRoute} {args : Params} {onlyPath : Bool} {values : List Value}
    {options : Params} (h : Binds (r.hashFor args onlyPath) (r.openKeys args) values options)
    {k : Text} (hk : k ∉ Reserved.keys) (hgiven : args.contains k = true) :
    options.get? k = args.get? k := by
  have hopen : k ∉ r.openKeys args := by
    rw [openKeys, List.mem_filter, supplies, hgiven]
    simp
  obtain ⟨v, hv⟩ := Option.isSome_iff_exists.1 hgiven
  rw [h.kept k fun hmem => hopen (List.mem_of_mem_take hmem), get?_hashFor r args onlyPath hk, hv,
    Option.some_or]

/-! ## Where values go -/

/-- The keys of a handle are different. -/
theorem nodup_keys {t : Table} (ht : t.Compiled) {name : Text} {r : NamedRoute}
    (hr : t.handle? name = some r) : r.route.keys.Nodup := by
  obtain ⟨route, hroute, hname⟩ := Option.bind_eq_some_iff.1 hr
  obtain ⟨n, -, hpure⟩ := Option.bind_eq_some_iff.1 hname
  cases hpure
  obtain ⟨d, c, hcompile⟩ := ht route (Table.mem_of_named? hroute)
  have hcompiled := Route.compiled_of_compile hcompile
  exact hcompiled.keys ▸ hcompiled.nodup

end

section OptionsFor

variable [Properties] {r : NamedRoute} {positional : List Value} {args : Params} {onlyPath : Bool}

/-- With at least two values missing, the values go to the open keys. -/
theorem optionsFor_of_lt (hreserved : ∀ k ∈ r.route.keys, k ∉ Reserved.keys)
    (hlen : positional.length + 1 < r.route.keys.length) :
    r.optionsFor positional args onlyPath =
      bind (r.hashFor args onlyPath) (r.openKeys args) positional := by
  have hopen : (r.route.keys.filter fun k => !(r.hashFor args onlyPath).contains k) =
      r.openKeys args := by
    apply List.filter_congr
    intro k hk
    rw [contains_hashFor r args onlyPath (hreserved k hk)]
  rw [optionsFor, if_pos hlen, hopen]

theorem optionsFor_of_le (hlen : r.route.keys.length ≤ positional.length + 1) :
    r.optionsFor positional args onlyPath =
      bind (r.hashFor args onlyPath) r.route.keys positional := by
  rw [optionsFor, if_neg (by omega)]

/-- Where the first captures are open, they are the first of the open ones. -/
theorem take_openKeys {n : Nat} (hlen : n ≤ r.route.keys.length)
    (h : ∀ k ∈ r.route.keys.take n, r.supplies args k = false) :
    (r.openKeys args).take n = r.route.keys.take n := by
  have hfront : (r.route.keys.take n).filter (fun k => !r.supplies args k) =
      r.route.keys.take n := by
    rw [List.filter_eq_self]
    intro k hk
    rw [h k hk, Bool.not_false]
  have hsplit : r.openKeys args = r.route.keys.take n ++
      (r.route.keys.drop n).filter fun k => !r.supplies args k := by
    conv_lhs => rw [openKeys, ← List.take_append_drop n r.route.keys, List.filter_append, hfront]
  rw [hsplit, List.take_left' (List.length_take_of_le hlen)]

/-- Values given by position go to the open captures in turn, and a capture with an argument keeps
it, unless exactly one value is missing while an earlier capture is not open. With at most one value
missing they go to the captures in turn. Either way every other option is that of the arguments and
the route's defaults. -/
theorem optionsFor_binds {t : Table} (ht : t.Compiled) {name : Text}
    (hr : t.handle? name = some r) (hreserved : ∀ k ∈ r.route.keys, k ∉ Reserved.keys)
    (positional : List Value) (args : Params) (onlyPath : Bool) :
    (positional.length < r.route.keys.length →
      (positional.length + 1 = r.route.keys.length →
        ∀ k ∈ r.route.keys.take positional.length, r.supplies args k = false) →
      Binds (r.hashFor args onlyPath) (r.openKeys args) positional
          (r.optionsFor positional args onlyPath) ∧
        ∀ k ∈ r.route.keys, args.contains k = true →
          (r.optionsFor positional args onlyPath).get? k = args.get? k) ∧
    (r.route.keys.length ≤ positional.length + 1 →
      Binds (r.hashFor args onlyPath) r.route.keys positional
        (r.optionsFor positional args onlyPath)) := by
  have hnodup : r.route.keys.Nodup := nodup_keys ht hr
  constructor
  · intro hlen hfirst
    have hbinds : Binds (r.hashFor args onlyPath) (r.openKeys args) positional
        (r.optionsFor positional args onlyPath) := by
      -- with one value missing the values go to the first keys, which are open then
      by_cases hlast : positional.length + 1 = r.route.keys.length
      · rw [optionsFor_of_le hlast.ge]
        exact (binds_bind _ hnodup _).congr (take_openKeys hlen.le (hfirst hlast))
      · rw [optionsFor_of_lt hreserved (by omega)]
        exact binds_bind _ (hnodup.filter _) _
    exact ⟨hbinds, fun k hk => hbinds.given (hreserved k hk)⟩
  · intro hlen
    rw [optionsFor_of_le hlen]
    exact binds_bind _ hnodup _

end OptionsFor

/-- A page with two captures, and a third one after a fixed part. -/
def multiDeclaration : Declaration :=
  { Declaration.blank with
    name := some "multi".toList
    path := "people/go/:foo/:bar/joe/:id".toList
    defaults := .ofList [(controllerKey, .str "people".toList), (actionKey, .str "multi".toList)] }

/-- With two of three values missing, an argument for the first capture is kept; with one of them
missing it is lost. -/
theorem optionsFor_binds_multi :
    let args : Params := .ofList [("foo".toList, .int 7)]
    let hello : Value := .str "hello".toList
    ∃ t r, Table.empty.draw [multiDeclaration] = .ok t ∧ t.handle? "multi".toList = some r ∧
      (r.optionsFor [hello] args true).get? "bar".toList = some hello ∧
      (r.optionsFor [hello] args true).get? "foo".toList = some (.int 7) ∧
      (r.optionsFor [hello, .int 5] args true).get? "foo".toList = some hello := by
  intro args hello
  let t : Table := (Table.empty.draw [multiDeclaration]).toOption.getD Table.empty
  have hdraw : Table.empty.draw [multiDeclaration] = .ok t := by decide +kernel
  have hsome : (t.handle? "multi".toList).isSome = true := by decide +kernel
  obtain ⟨r, hr⟩ := Option.isSome_iff_exists.1 hsome
  have hkeys : r.route.keys = ["foo".toList, "bar".toList, "id".toList] := by
    have : (t.handle? "multi".toList).map (·.route.keys) =
        some ["foo".toList, "bar".toList, "id".toList] := by decide +kernel
    rwa [hr, Option.map_some, Option.some_inj] at this
  have hopen : (r.openKeys args)[0]? = some "bar".toList := by
    have : (t.handle? "multi".toList).bind (fun r => (r.openKeys args)[0]?) =
        some "bar".toList := by decide +kernel
    rwa [hr, Option.bind_some] at this
  have hreserved : ∀ k ∈ r.route.keys, k ∉ Reserved.keys := by
    rw [hkeys]
    decide
  have hbinds := optionsFor_binds (Table.compiled_of_draw hdraw) hr hreserved
  obtain ⟨hone, hgiven⟩ := (hbinds [hello] args true).1 (by rw [hkeys]; decide)
    (fun h => absurd h (by rw [hkeys]; decide))
  have htwo := (hbinds [hello, .int 5] args true).2 (by rw [hkeys]; decide)
  refine ⟨t, r, hdraw, hr, hone.bound 0 hopen rfl, ?_, htwo.bound 0 (by rw [hkeys]; rfl) rfl⟩
  rw [hgiven "foo".toList (by rw [hkeys]; decide) (by decide)]
  decide

end NamedRoute

end Routing
