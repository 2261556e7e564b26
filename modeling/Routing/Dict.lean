import Routing.Text

/-!
# Dictionaries

A dictionary binds names to values and is **ordered by name**: wherever its order shows (a message,
a list of keys, a query string) it is the code-point order of the names. The order is part of the
type, so a dictionary is determined by what it binds:

* `Dict.get?`, `Dict.insert`, `Dict.erase`, `Dict.filter`, `Dict.map` — the operations;
* `Dict.overlay` — one dictionary on top of another, the upper bindings winning;
* `Dict.get?_insert`, `Dict.get?_erase`, `Dict.get?_filter`, `Dict.get?_overlay` — each operation
  told through `get?`;
* `Dict.ext_get?` — dictionaries that bind alike are equal.
-/

namespace Routing

universe u v

/-- Names bound to values, in the order of the names, each name once. -/
structure Dict (α : Type u) where
  entries : List (Text × α)
  ordered : entries.Pairwise fun a b => a.1 < b.1

namespace Dict

variable {α : Type u} {β : Type v}

instance [DecidableEq α] : DecidableEq (Dict α) := fun d e =>
  if h : d.entries = e.entries then
    isTrue (by cases d; cases e; cases h; rfl)
  else isFalse fun he => h (he ▸ rfl)

/-! ## The order of names -/

theorem lt_of_not_lt {a b : Text} (h : ¬ a < b) (hne : a ≠ b) : b < a :=
  (List.le_iff_lt_or_eq.1 (List.not_lt.1 h)).resolve_right (Ne.symm hne)

theorem lt_ne {a b : Text} (h : a < b) : a ≠ b :=
  fun he => List.lt_irrefl a (he ▸ h)

/-! ## Bindings as a list

`lookup`, `put` and the rest work on any association list; they keep the order of an ordered one. -/

def lookup (k : Text) : List (Text × α) → Option α
  | [] => none
  | (k', v) :: rest => if k' = k then some v else lookup k rest

/-- Binds `k` at its place in the order, instead of an earlier binding of `k`. -/
def put (k : Text) (v : α) : List (Text × α) → List (Text × α)
  | [] => [(k, v)]
  | (k', v') :: rest =>
    -- the first name behind `k` in the order: `k` was not bound
    if k < k' then (k, v) :: (k', v') :: rest
    else if k = k' then (k, v) :: rest
    else (k', v') :: put k v rest

theorem mem_put {k : Text} {v : α} {e : Text × α} {l : List (Text × α)} (h : e ∈ put k v l) :
    e = (k, v) ∨ e ∈ l := by
  induction l with
  | nil => simpa [put] using h
  | cons e' rest ih =>
    obtain ⟨k', v'⟩ := e'
    simp only [put] at h
    split at h
    · simpa using h
    · split at h
      · rcases List.mem_cons.1 h with rfl | h <;> simp_all
      · rcases List.mem_cons.1 h with rfl | h
        · simp
        · rcases ih h with h | h <;> simp [h]

theorem put_ordered {k : Text} {v : α} {l : List (Text × α)}
    (h : l.Pairwise fun a b => a.1 < b.1) : (put k v l).Pairwise fun a b => a.1 < b.1 := by
  induction l with
  | nil => simp [put]
  | cons e rest ih =>
    obtain ⟨k', v'⟩ := e
    obtain ⟨hhead, htail⟩ := List.pairwise_cons.1 h
    simp only [put]
    split
    · next hlt =>
      refine List.pairwise_cons.2 ⟨fun e he => ?_, h⟩
      rcases List.mem_cons.1 he with rfl | he
      · exact hlt
      · exact List.lt_trans hlt (hhead e he)
    · next hlt =>
      split
      · next heq => subst heq; exact List.pairwise_cons.2 ⟨hhead, htail⟩
      · next hne =>
        refine List.pairwise_cons.2 ⟨fun e he => ?_, ih htail⟩
        rcases mem_put he with rfl | he
        · exact lt_of_not_lt hlt hne
        · exact hhead e he

theorem lookup_put (k j : Text) (v : α) (l : List (Text × α)) :
    lookup j (put k v l) = if k = j then some v else lookup j l := by
  induction l with
  | nil => simp [put, lookup]
  | cons e rest ih =>
    obtain ⟨k', v'⟩ := e
    simp only [put]
    split
    · simp [lookup]
    · split
      · next heq => subst heq; by_cases hj : k = j <;> simp [lookup, hj]
      · next hne =>
        simp only [lookup, ih]
        by_cases hj : k = j
        · subst hj; simp [Ne.symm hne]
        · simp [hj]

theorem lookup_eq_none {k : Text} {l : List (Text × α)} (h : ∀ e ∈ l, e.1 ≠ k) :
    lookup k l = none := by
  induction l with
  | nil => rfl
  | cons e rest ih =>
    have := h e (by simp)
    simp [lookup, this, ih fun e he => h e (by simp [he])]

theorem lookup_append (k : Text) (a b : List (Text × α)) :
    lookup k (a ++ b) = (lookup k a).or (lookup k b) := by
  induction a with
  | nil => rfl
  | cons e a ih =>
    rw [List.cons_append, lookup, lookup, ih]
    split <;> rfl

theorem lookup_filter {k : Text} {p : Text × α → Bool} {l : List (Text × α)}
    (h : l.Pairwise fun a b => a.1 < b.1) :
    lookup k (l.filter p) = (lookup k l).filter fun v => p (k, v) := by
  induction l with
  | nil => rfl
  | cons e rest ih =>
    obtain ⟨k', v'⟩ := e
    obtain ⟨hhead, htail⟩ := List.pairwise_cons.1 h
    by_cases hk : k' = k
    · subst hk
      have habsent : lookup k' (rest.filter p) = none :=
        lookup_eq_none fun e he => (lt_ne (hhead e (List.mem_filter.1 he).1)).symm
      by_cases hp : p (k', v') <;> simp [lookup, hp, habsent, Option.filter]
    · by_cases hp : p (k', v') <;> simp [lookup, hp, hk, ih htail]

theorem mem_of_lookup {k : Text} {v : α} {l : List (Text × α)} (h : lookup k l = some v) :
    (k, v) ∈ l := by
  induction l with
  | nil => simp [lookup] at h
  | cons e rest ih =>
    obtain ⟨k', v'⟩ := e
    simp only [lookup] at h
    split at h
    · next hk => cases h; subst hk; simp
    · simp [ih h]

theorem lookup_of_mem {k : Text} {v : α} {l : List (Text × α)}
    (h : l.Pairwise fun a b => a.1 < b.1) (hm : (k, v) ∈ l) : lookup k l = some v := by
  induction l with
  | nil => simp at hm
  | cons e rest ih =>
    obtain ⟨k', v'⟩ := e
    obtain ⟨hhead, htail⟩ := List.pairwise_cons.1 h
    rcases List.mem_cons.1 hm with he | hm
    · cases he; simp [lookup]
    · have : k' ≠ k := lt_ne (hhead _ hm)
      simp [lookup, this, ih htail hm]

/-! ## Operations -/

def empty : Dict α where
  entries := []
  ordered := .nil

instance : Inhabited (Dict α) := ⟨empty⟩

def get? (d : Dict α) (k : Text) : Option α :=
  lookup k d.entries

def contains (d : Dict α) (k : Text) : Bool :=
  (d.get? k).isSome

def keys (d : Dict α) : List Text :=
  d.entries.map (·.1)

def isEmpty (d : Dict α) : Bool :=
  d.entries.isEmpty

/-- Binds one more name, or binds it anew. -/
def insert (d : Dict α) (k : Text) (v : α) : Dict α where
  entries := put k v d.entries
  ordered := put_ordered d.ordered

def filter (d : Dict α) (p : Text → α → Bool) : Dict α where
  entries := d.entries.filter fun e => p e.1 e.2
  ordered := d.ordered.filter _

def erase (d : Dict α) (k : Text) : Dict α :=
  d.filter fun k' _ => k' ≠ k

def map (d : Dict α) (f : Text → α → β) : Dict β where
  entries := d.entries.map fun e => (e.1, f e.1 e.2)
  ordered := by simpa [List.pairwise_map] using d.ordered

/-- Binds everything in the list in turn, so that the last binding of a name counts. -/
def insertAll (d : Dict α) (l : List (Text × α)) : Dict α :=
  l.foldl (fun d e => d.insert e.1 e.2) d

/-- The dictionary of a list of bindings, of which the last of a name counts. -/
def ofList (l : List (Text × α)) : Dict α :=
  empty.insertAll l

/-- The dictionary `upper` laid over `lower`: a name bound by both keeps its upper value. -/
def overlay (lower upper : Dict α) : Dict α :=
  lower.insertAll upper.entries

/-- The same names, each value replaced by what `f` makes of it, in the order of the names; the
first failure is the result. -/
def mapExcept {ε : Type} (d : Dict α) (f : Text → α → Except ε β) : Except ε (Dict β) :=
  d.entries.foldlM (fun e (k, v) => return e.insert k (← f k v)) empty

/-! ## The operations told through `get?` -/

@[simp] theorem get?_empty (k : Text) : (empty : Dict α).get? k = none := rfl

@[simp] theorem get?_insert (d : Dict α) (k j : Text) (v : α) :
    (d.insert k v).get? j = if k = j then some v else d.get? j :=
  lookup_put ..

theorem get?_filter (d : Dict α) (p : Text → α → Bool) (k : Text) :
    (d.filter p).get? k = (d.get? k).filter (p k) :=
  lookup_filter d.ordered

@[simp] theorem get?_erase (d : Dict α) (k j : Text) :
    (d.erase k).get? j = if k = j then none else d.get? j := by
  rw [erase, get?_filter]
  by_cases h : k = j
  · cases hd : d.get? j <;> simp [Option.filter, h]
  · cases hd : d.get? j <;> simp [Option.filter, h, Ne.symm h]

@[simp] theorem get?_map (d : Dict α) (f : Text → α → β) (k : Text) :
    (d.map f).get? k = (d.get? k).map (f k) := by
  obtain ⟨l, hl⟩ := d
  simp only [get?, map]
  clear hl
  induction l with
  | nil => rfl
  | cons e rest ih =>
    by_cases h : e.1 = k
    · subst h; simp [lookup]
    · simp [lookup, h, ih]

theorem get?_insertAll {d : Dict α} {l : List (Text × α)}
    (hl : l.Pairwise fun a b => a.1 < b.1) (k : Text) :
    (d.insertAll l).get? k = (lookup k l).or (d.get? k) := by
  induction l generalizing d with
  | nil => simp [insertAll, lookup]
  | cons e rest ih =>
    obtain ⟨k', v'⟩ := e
    obtain ⟨hhead, htail⟩ := List.pairwise_cons.1 hl
    have hstep : (d.insertAll ((k', v') :: rest)) = (d.insert k' v').insertAll rest := rfl
    rw [hstep, ih htail]
    by_cases hk : k' = k
    · subst hk
      have : lookup k' rest = none := lookup_eq_none fun e he => (lt_ne (hhead e he)).symm
      simp [lookup, this]
    · simp [lookup, hk]

@[simp] theorem get?_overlay (lower upper : Dict α) (k : Text) :
    (lower.overlay upper).get? k = (upper.get? k).or (lower.get? k) :=
  get?_insertAll upper.ordered k

theorem mem_entries_iff {d : Dict α} {k : Text} {v : α} :
    (k, v) ∈ d.entries ↔ d.get? k = some v :=
  ⟨lookup_of_mem d.ordered, mem_of_lookup⟩

theorem mem_keys {d : Dict α} {k : Text} : k ∈ d.keys ↔ (d.get? k).isSome = true := by
  rw [keys, List.mem_map, Option.isSome_iff_exists]
  constructor
  · rintro ⟨⟨k', v⟩, hv, rfl⟩
    exact ⟨v, mem_entries_iff.1 hv⟩
  · rintro ⟨v, hv⟩
    exact ⟨(k, v), mem_entries_iff.2 hv, rfl⟩

/-- Lists of bindings in order that look up alike are equal. -/
theorem entries_eq_of_lookup {l m : List (Text × α)} (hl : l.Pairwise fun a b => a.1 < b.1)
    (hm : m.Pairwise fun a b => a.1 < b.1) (h : ∀ k, lookup k l = lookup k m) : l = m := by
  induction l generalizing m with
  | nil =>
    cases m with
    | nil => rfl
    | cons e rest => simpa [lookup] using h e.1
  | cons e rest ih =>
    obtain ⟨k, v⟩ := e
    obtain ⟨hhead, htail⟩ := List.pairwise_cons.1 hl
    cases m with
    | nil => simpa [lookup] using h k
    | cons e' rest' =>
      obtain ⟨k', v'⟩ := e'
      obtain ⟨hhead', htail'⟩ := List.pairwise_cons.1 hm
      have hk : k = k' := by
        have h₁ := h k
        have h₂ := h k'
        simp only [lookup, if_true] at h₁ h₂
        by_cases hne : k = k'
        · exact hne
        · simp only [hne, Ne.symm hne, if_false] at h₁ h₂
          exact absurd (hhead _ (mem_of_lookup h₂))
            (fun hlt => List.lt_asymm hlt (hhead' _ (mem_of_lookup h₁.symm)))
      subst hk
      have hv : v = v' := by simpa [lookup] using h k
      subst hv
      refine congrArg _ (ih htail htail' fun j => ?_)
      have hj := h j
      by_cases hkj : k = j
      · subst hkj
        rw [lookup_eq_none fun e he => (lt_ne (hhead e he)).symm,
          lookup_eq_none fun e he => (lt_ne (hhead' e he)).symm]
      · simpa [lookup, hkj] using hj

/-- Dictionaries that bind alike are equal. -/
theorem ext_get? {d e : Dict α} (h : ∀ k, d.get? k = e.get? k) : d = e := by
  obtain ⟨l, hl⟩ := d
  obtain ⟨m, hm⟩ := e
  have : l = m := entries_eq_of_lookup hl hm h
  subst this; rfl

end Dict

end Routing
