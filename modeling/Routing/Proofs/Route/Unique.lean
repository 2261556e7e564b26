import Routing.Proofs.Route.Language

/-!
# One reading of a path

A text for a parameter has neither a slash nor a dot, and what follows a level begins with one of
them. So as long as no component captures twice, a path has at most one reading: the levels that it
spells and the texts of their parameters are determined.

* `Route.CapturesOnce` — no component captures twice
* `Route.describes_unique` — two readings of a path agree
-/

namespace Routing

/-! ## Slots -/

/-- Neither a slash nor a dot. -/
def isInner (c : Char) : Bool := c ≠ '/' && c ≠ '.'

namespace Slot

variable {σ σ' : Text → Text} {slots : List Slot}

/-- A capture that is not a glob holds no separator. -/
theorem isInner_of_allows {name : Text} {c : Char} (h : allows name false c = true) :
    isInner c = true := by
  unfold allows at h
  split at h
  · rw [isInner, Bool.and_eq_true, decide_eq_true_iff, decide_eq_true_iff]
    constructor
    · rintro rfl
      exact absurd h (by decide)
    · rintro rfl
      exact absurd h (by decide)
  · simpa [isInner] using h

/-- Slots that capture once at most: the capture stands between fixed texts. -/
theorem spell_of_captures (h : (captures slots).length ≤ 1) :
    (names slots = [] ∧ ∃ a, ∀ σ, slots.flatMap (spell σ) = a) ∨
      ∃ name glob, names slots = [name] ∧ capture name glob ∈ slots ∧
        ∃ a b, ∀ σ, slots.flatMap (spell σ) = a ++ (σ name ++ b) := by
  -- on the slots: a text goes to the front, and the one capture leaves nothing but texts behind it
  induction slots with
  | nil => exact .inl ⟨rfl, [], fun _ => rfl⟩
  | cons s slots ih =>
    cases s with
    | text t =>
      rcases ih h with ⟨hnames, a, ha⟩ | ⟨name, glob, hnames, hmem, a, b, hab⟩
      · refine .inl ⟨hnames, t ++ a, fun σ => ?_⟩
        rw [List.flatMap_cons, ha]
        rfl
      · refine .inr ⟨name, glob, hnames, List.mem_cons_of_mem _ hmem, t ++ a, b, fun σ => ?_⟩
        rw [List.flatMap_cons, hab, List.append_assoc]
        rfl
    | capture name glob =>
      have hnil : captures slots = [] := by
        rw [captures, List.length_cons] at h
        exact List.eq_nil_of_length_eq_zero (by omega)
      rcases ih (by rw [hnil]; exact Nat.zero_le 1) with ⟨hnames, b, hb⟩ | ⟨_, _, hnames, -⟩
      · refine .inr ⟨name, glob, congrArg (name :: ·) hnames, List.mem_cons_self, [], b, fun σ => ?_⟩
        rw [List.flatMap_cons, hb]
        rfl
      · rw [names, hnil] at hnames
        cases hnames

/-- A run ends where a text that does not go on with it begins. -/
theorem takeWhile_append_of_nil {p : Char → Bool} {t : Text} (ht : t.takeWhile p = []) (b : Text) :
    (b ++ t).takeWhile p = b.takeWhile p := by
  induction b with
  | nil => exact ht
  | cons c b ih => rw [List.cons_append, List.takeWhile_cons, List.takeWhile_cons, ih]

/-- What stands before a separator is read in one way. -/
theorem spell_cancel (hone : (captures slots).length ≤ 1)
    (hfits : ∀ name glob, capture name glob ∈ slots → Fits name glob (σ name))
    (hfits' : ∀ name glob, capture name glob ∈ slots → Fits name glob (σ' name))
    {t t' : Text} (ht : t.takeWhile isInner = []) (ht' : t'.takeWhile isInner = [])
    (hglob : ∀ name, capture name true ∈ slots → t = [] ∧ t' = [])
    (h : slots.flatMap (spell σ) ++ t = slots.flatMap (spell σ') ++ t') :
    (∀ name ∈ names slots, σ name = σ' name) ∧ t = t' := by
  rcases spell_of_captures hone with ⟨hnames, a, ha⟩ | ⟨name, glob, hnames, hmem, a, b, hab⟩
  · rw [ha, ha] at h
    exact ⟨by simp [hnames], List.append_cancel_left h⟩
  · rw [hab, hab, List.append_assoc, List.append_assoc, List.append_assoc, List.append_assoc] at h
    have h := List.append_cancel_left h
    have heq : σ name = σ' name := by
      cases glob with
      | true =>
        obtain ⟨rfl, rfl⟩ := hglob name hmem
        exact List.append_cancel_right h
      | false =>
        -- up to the next separator both sides are the text and the same rest of the component
        have hwhile := congrArg (List.takeWhile isInner) h
        rw [List.takeWhile_append_of_pos fun c hc => isInner_of_allows ((hfits _ _ hmem).2 c hc),
          List.takeWhile_append_of_pos fun c hc => isInner_of_allows ((hfits' _ _ hmem).2 c hc),
          takeWhile_append_of_nil ht, takeWhile_append_of_nil ht'] at hwhile
        exact List.append_cancel_right hwhile
    rw [heq] at h
    refine ⟨?_, List.append_cancel_left (List.append_cancel_left h)⟩
    rw [hnames, List.forall_mem_singleton]
    exact heq

end Slot

/-! ## Levels -/

namespace Level

variable {σ σ' : Text → Text}

theorem spell_cons (σ : Text → Text) (l : Level) : ∃ t, l.spell σ = l.separator :: t := by
  cases l with
  | component s => exact ⟨_, rfl⟩
  | format name => exact ⟨_, rfl⟩

/-- What levels spell begins with a separator, if it is anything. -/
theorem takeWhile_flatMap_spell (σ : Text → Text) (levels : List Level) :
    (levels.flatMap (spell σ)).takeWhile isInner = [] := by
  cases levels with
  | nil => rfl
  | cons l levels =>
    obtain ⟨t, ht⟩ := l.spell_cons σ
    rw [List.flatMap_cons, ht, List.cons_append, List.takeWhile_cons, if_neg]
    cases l <;> simp [separator, isInner]

/-- The levels capture once each, and a glob stands at the end. -/
structure Readable (levels : List Level) : Prop where
  once : ∀ l ∈ levels, (Slot.captures l.slots).length ≤ 1
  glob : levels.Pairwise fun l _ => ∀ name, Slot.capture name true ∉ l.slots

/-- Two readings of a text agree when the levels of one begin with those of the other. -/
theorem spell_inj {levels more : List Level} (h : Readable (levels ++ more))
    (hfits : ∀ l ∈ levels, l.Fits σ) (hfits' : ∀ l ∈ levels ++ more, l.Fits σ')
    (heq : levels.flatMap (spell σ) = (levels ++ more).flatMap (spell σ')) :
    more = [] ∧ ∀ name ∈ levels.flatMap names, σ name = σ' name := by
  -- on the levels of the shorter reading, each of which is cancelled on both sides
  induction levels with
  | nil =>
    refine ⟨?_, by simp⟩
    cases more with
    | nil => rfl
    | cons l more =>
      obtain ⟨t, ht⟩ := l.spell_cons σ'
      rw [List.nil_append, List.flatMap_cons, ht] at heq
      cases heq
  | cons l levels ih =>
    obtain ⟨honce, hglob⟩ := h
    rw [List.cons_append] at honce hglob hfits' heq
    obtain ⟨hl, hlevels⟩ := List.forall_mem_cons.1 hfits
    obtain ⟨hl', hlevels'⟩ := List.forall_mem_cons.1 hfits'
    obtain ⟨hone, honce⟩ := List.forall_mem_cons.1 honce
    obtain ⟨hhead, hglob⟩ := List.pairwise_cons.1 hglob
    -- nothing follows a glob
    have hlast (name : Text) (hname : Slot.capture name true ∈ l.slots) : levels ++ more = [] := by
      rw [List.eq_nil_iff_forall_not_mem]
      intro l' hl'
      exact hhead l' hl' name hname
    obtain ⟨hnames, hrest⟩ := Slot.spell_cancel hone hl hl' (takeWhile_flatMap_spell σ levels)
      (takeWhile_flatMap_spell σ' (levels ++ more))
      (fun name hname => by
        have hnil := hlast name hname
        rw [hnil, (List.append_eq_nil_iff.1 hnil).1]
        exact ⟨rfl, rfl⟩) heq
    obtain ⟨hmore, hall⟩ := ih ⟨honce, hglob⟩ hlevels hlevels' hrest
    refine ⟨hmore, fun name hname => ?_⟩
    rw [List.flatMap_cons, List.mem_append, ← names_slots l] at hname
    rcases hname with hname | hname
    · exact hnames name hname
    · exact hall name hname

end Level

/-! ## Routes -/

variable [Properties]

namespace Route

variable {r : Route} {m m' : Nat} {σ σ' : Text → Text} {t : Text}

/-- A component captures once at most. -/
def CapturesOnce (r : Route) : Prop :=
  ∀ pieces, .compound pieces ∈ r.segments → (pieces.filterMap Piece.name?).length ≤ 1

omit [Properties] in
theorem length_captures (l : Level) : (Slot.captures l.slots).length = l.names.length := by
  rw [← Level.names_slots, Slot.names, List.length_map]

/-- The levels of a route, those that may be missing among them. -/
theorem mem_levels (h : r.Settled) {l : Level} (hl : l ∈ r.levels) :
    (∃ name, l = .component (.capture name true)) ∨ ∃ name, l = .format name := by
  rw [levels, Matcher.levels] at hl
  rcases List.mem_append.1 hl with hl | hl
  · obtain ⟨s, hs, rfl⟩ := List.mem_map.1 hl
    obtain ⟨name, rfl⟩ := h.shape.optional s hs
    exact .inl ⟨name, rfl⟩
  · obtain ⟨name, -, rfl⟩ := List.mem_map.1 hl
    exact .inr ⟨name, rfl⟩

/-- The levels of a path can be read back when every component captures once at most. -/
theorem readable_shown (h : r.Settled) (honce : r.CapturesOnce) (m : Nat) :
    Level.Readable (r.shown m) := by
  have hlevel (l : Level) (hl : l ∈ r.levels) :
      (Slot.captures l.slots).length ≤ 1 ∧ ∀ name, Slot.capture name true ∉ l.slots := by
    rcases mem_levels h hl with ⟨name, rfl⟩ | ⟨name, rfl⟩
    · exact ⟨Nat.le_refl 1, by simp [Level.slots, Segment.slots]⟩
    · exact ⟨Nat.le_refl 1, by simp [Level.slots]⟩
  constructor
  · intro l hl
    rcases List.mem_append.1 hl with hl | hl
    · obtain ⟨s, hs, rfl⟩ := List.mem_map.1 hl
      rw [length_captures]
      have hmem : s ∈ r.segments := by
        rw [h.segments, Template.Parts.segments, List.append_assoc]
        exact List.mem_append_left _ hs
      cases s with
      | static t => exact Nat.zero_le 1
      | capture name optional => exact Nat.le_refl 1
      | glob name => exact Nat.le_refl 1
      | compound pieces => exact honce pieces hmem
      | format name => exact Nat.le_refl 1
    · exact (hlevel l (List.mem_of_mem_take hl)).1
  · -- a glob among the required components is the last of them, and nothing may be missing
    have hlast (a b : List Segment) (s : Segment) (hab : r.required = a ++ s :: b) (name : Text)
        (hs : Slot.capture name true ∈ (Level.component s).slots) : b = [] ∧ r.levels = [] := by
      rw [Level.slots, List.mem_cons] at hs
      rcases hs with hs | hs
      · cases hs
      · rw [Segment.eq_glob_of_mem_slots hs] at hab
        obtain ⟨hb, hopt, hformat⟩ := h.shape.glob a b name hab
        refine ⟨hb, ?_⟩
        show Matcher.levels r.parts.optional r.parts.format? = []
        rw [hopt, hformat]
        rfl
    rw [shown]
    have hrest : (r.levels.take m).Pairwise fun l _ => ∀ name, Slot.capture name true ∉ l.slots :=
      List.pairwise_of_forall_mem_list fun l hl _ _ => (hlevel l (List.mem_of_mem_take hl)).2
    generalize r.required = required at hlast
    induction required with
    | nil => exact hrest
    | cons s required ih =>
      rw [List.map_cons, List.cons_append, List.pairwise_cons]
      refine ⟨fun l hl name hname => ?_, ih fun a b s' hab => hlast (s :: a) b s' (by rw [hab]; rfl)⟩
      obtain ⟨rfl, hnil⟩ := hlast [] required s rfl name hname
      rw [hnil] at hl
      simp at hl

/-- The root is spelled by no level. -/
theorem shown_eq_nil_of_root (h : r.Settled) (hd : r.Describes m σ ['/'])
    (hnil : r.required = []) : m = 0 := by
  cases m with
  | zero => rfl
  | succ m =>
    have hpath := hd.path
    have hfits := hd.fits
    have hle := hd.le
    rw [shown, hnil, List.map_nil, List.nil_append] at hpath hfits
    cases hlevels : r.levels with
    | nil =>
      rw [hlevels] at hle
      cases hle
    | cons l levels =>
      rw [hlevels, List.take_succ_cons] at hpath hfits
      rw [Level.path, List.isEmpty_cons, if_neg Bool.false_ne_true, List.flatMap_cons] at hpath
      -- a level spells more than a slash
      rcases mem_levels h (hlevels ▸ List.mem_cons_self) with ⟨name, rfl⟩ | ⟨name, rfl⟩
      · have hne := (hfits _ List.mem_cons_self name false (by simp [Level.slots, Segment.slots])).1
        have hrest : (σ name ++ []) ++ (levels.take m).flatMap (Level.spell σ) = [] :=
          (List.cons.inj hpath).2.symm
        rw [List.append_nil, List.append_eq_nil_iff] at hrest
        exact absurd hrest.1 hne
      · cases hpath

/-- Two readings of a path agree when the one shows no more than the other. -/
theorem describes_unique_of_le (h : r.Settled) (honce : r.CapturesOnce) (hle : m ≤ m')
    (hd : r.Describes m σ t) (hd' : r.Describes m' σ' t) :
    m = m' ∧ ∀ name ∈ (r.shown m).flatMap Level.names, σ name = σ' name := by
  -- without a level the path is the root, which the longer reading cannot spell with one
  by_cases hnil : r.shown m = []
  · obtain ⟨hmap, htake⟩ := List.append_eq_nil_iff.1 hnil
    have hreq : r.required = [] := List.map_eq_nil_iff.1 hmap
    have ht : t = ['/'] := by rw [hd.path, hnil]; rfl
    subst ht
    rw [shown_eq_nil_of_root h hd hreq, shown_eq_nil_of_root h hd' hreq]
    refine ⟨rfl, ?_⟩
    rw [shown, hreq]
    simp
  · obtain ⟨k, rfl⟩ := Nat.exists_eq_add_of_le hle
    -- the longer reading begins with the levels of the shorter one
    have hsplit : r.shown (m + k) = r.shown m ++ (r.levels.drop m).take k := by
      rw [shown, shown, List.append_assoc, List.take_add]
    have hpath := hd'.path
    rw [hd.path, Level.path, Level.path, hsplit, if_neg (by simpa using hnil),
      if_neg (by simp [hnil])] at hpath
    obtain ⟨hmore, hall⟩ := Level.spell_inj (hsplit ▸ readable_shown h honce (m + k)) hd.fits
      (hsplit ▸ hd'.fits) hpath
    refine ⟨?_, hall⟩
    have hlen := congrArg List.length hmore
    rw [List.length_take, List.length_drop, List.length_nil] at hlen
    have := hd'.le
    omega

/-- Two readings of a path agree. -/
theorem describes_unique (h : r.Settled) (honce : r.CapturesOnce) (hd : r.Describes m σ t)
    (hd' : r.Describes m' σ' t) :
    m = m' ∧ ∀ name ∈ (r.shown m).flatMap Level.names, σ name = σ' name := by
  rcases Nat.le_total m m' with hle | hle
  · exact describes_unique_of_le h honce hle hd hd'
  · obtain ⟨rfl, hall⟩ := describes_unique_of_le h honce hle hd' hd
    exact ⟨rfl, fun name hname => (hall name hname).symm⟩

end Route

end Routing
