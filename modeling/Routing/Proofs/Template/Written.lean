import Mathlib.Data.List.Chain
import Mathlib.Tactic.Conv
import Routing.Proofs.Template.Shape

/-!
# How components are written

The components of a pattern told without their reader: each one has one of four forms, with or
without the suffix `.:format`, and captures the names after its colons. The reader takes apart
exactly these texts, and what it makes of one can be put together again.

* `IsName`, `namesAfterColons` — the names of captures, and where they stand
* `Component.Form`, `Component.Written` — the forms of a component, without and with its suffix
* `Component.written_of_read`, `Component.read_of_written` — the reader reads these and no others
-/

namespace Routing

/-! ## Names -/

/-- ASCII letters, digits and underscores, of which the first is no digit. -/
structure IsName (name : Text) : Prop where
  nonempty : name ≠ []
  chars : ∀ c ∈ name, c.isAlphanum = true ∨ c = '_'
  first : ∀ c, name.head? = some c → c.isDigit = false

/-- What the reader takes for a name is one. -/
theorem isIdentifier_iff {name : Text} : isIdentifier name = true ↔ IsName name := by
  cases name with
  | nil => exact ⟨nofun, fun h => absurd rfl h.nonempty⟩
  | cons c name =>
    have hrest : name.all isNameChar = true ↔ ∀ d ∈ name, d.isAlphanum = true ∨ d = '_' := by
      simp [isNameChar]
    have hunderscore : '_'.isDigit = false := by decide
    -- letters stand behind the digits
    have hdigit (halpha : c.isAlpha = true) : c.isDigit = false := by
      have hge : 'A'.val ≤ c.val := by
        rcases Bool.or_eq_true_iff.1 halpha with hupper | hlower
        · exact (of_decide_eq_true hupper).1
        · exact UInt32.le_trans (by decide) (of_decide_eq_true (Bool.and_eq_true_iff.1 hlower).1)
      have hgt : ¬ c.val ≤ '9'.val := fun hle => absurd (UInt32.le_trans hge hle) (by decide)
      rw [Char.isDigit, decide_eq_false hgt, Bool.and_false]
    rw [isIdentifier, Bool.and_eq_true, hrest]
    constructor
    · rintro ⟨hc, hname⟩
      refine ⟨List.cons_ne_nil _ _, List.forall_mem_cons.2 ⟨?_, hname⟩, ?_⟩
      · rw [Bool.or_eq_true, decide_eq_true_eq] at hc
        exact hc.imp_left fun h => by simp [Char.isAlphanum, h]
      · rintro d ⟨⟩
        rw [Bool.or_eq_true, decide_eq_true_eq] at hc
        rcases hc with hc | rfl
        · exact hdigit hc
        · exact hunderscore
    · rintro ⟨-, hchars, hfirst⟩
      obtain ⟨hc, hname⟩ := List.forall_mem_cons.1 hchars
      refine ⟨?_, hname⟩
      have := hfirst c rfl
      simpa [Char.isAlphanum, this] using hc

/-- The longest run of name characters after each colon of a text, in order. -/
def namesAfterColons : Text → List Text
  | [] => []
  | c :: s => if c = ':' then s.takeWhile isNameChar :: namesAfterColons s else namesAfterColons s

theorem namesAfterColons_colon (s : Text) :
    namesAfterColons (':' :: s) = s.takeWhile isNameChar :: namesAfterColons s :=
  if_pos rfl

/-- A text without a colon in front adds no names. -/
theorem namesAfterColons_append {u : Text} (hu : ':' ∉ u) (s : Text) :
    namesAfterColons (u ++ s) = namesAfterColons s := by
  induction u with
  | nil => rfl
  | cons c u ih =>
    obtain ⟨hc, hu⟩ := not_or.1 (mt List.mem_cons.2 hu)
    rw [List.cons_append, namesAfterColons, if_neg (Ne.symm hc), ih hu]

theorem namesAfterColons_of_not_mem {s : Text} (hs : ':' ∉ s) : namesAfterColons s = [] := by
  have := namesAfterColons_append hs []
  rwa [List.append_nil] at this

theorem colon_not_mem_of_nameChars {s : Text} (hs : ∀ c ∈ s, isNameChar c = true) : ':' ∉ s :=
  fun h => absurd (hs ':' h) (by decide)

/-- A run of name characters holds no colon, so the names after it are those after its end. -/
theorem namesAfterColons_dropWhile (s : Text) :
    namesAfterColons (s.dropWhile isNameChar) = namesAfterColons s := by
  conv_rhs => rw [← List.takeWhile_append_dropWhile (p := isNameChar) (l := s)]
  rw [namesAfterColons_append]
  exact colon_not_mem_of_nameChars fun c hc => List.mem_takeWhile_imp hc

/-- A colon and a name have that name after it. -/
theorem namesAfterColons_of_name {name : Text} (h : IsName name) :
    namesAfterColons (':' :: name) = [name] := by
  have hchars : ∀ c ∈ name, isNameChar c = true := by simpa [isNameChar] using h.chars
  rw [namesAfterColons_colon, List.takeWhile_eq_self_iff.2 hchars,
    namesAfterColons_of_not_mem (colon_not_mem_of_nameChars hchars)]

/-! ## Pieces -/

/-- Two pieces of which one at least is a capture. -/
def Piece.Apart (p q : Piece) : Prop :=
  p.literal? = none ∨ q.literal? = none

/-- Pieces of a component: no fixed text is empty, and no two stand side by side. -/
structure Piece.Tidy (pieces : List Piece) : Prop where
  nonempty : ∀ t, .literal t ∈ pieces → t ≠ []
  apart : pieces.IsChain Piece.Apart

namespace Component

theorem literalPiece_text (s : Text) : (literalPiece s).flatMap Piece.text = s := by
  cases s with
  | nil => rfl
  | cons c s => exact List.append_nil _

theorem literalPiece_names (s : Text) : (literalPiece s).filterMap Piece.name? = [] := by
  cases s <;> rfl

theorem literalPiece_nonempty {s t : Text} (h : .literal t ∈ literalPiece s) : t ≠ [] :=
  (literalPiece_sound (fun _ => id) h).1

/-- A text without a colon before a capture. -/
theorem tidy_cons {pieces : List Piece} (h : Piece.Tidy pieces) (s name : Text) :
    Piece.Tidy (literalPiece s ++ .capture name :: pieces) where
  nonempty := by
    intro t ht
    rcases List.mem_append.1 ht with ht | ht
    · exact literalPiece_nonempty ht
    · exact h.nonempty t (by simpa using ht)
  apart := by
    have hcapture : (Piece.capture name :: pieces).IsChain Piece.Apart := by
      cases pieces with
      | nil => exact .singleton _
      | cons p pieces => exact List.isChain_cons_cons.2 ⟨.inl rfl, h.apart⟩
    cases s with
    | nil => exact hcapture
    | cons c s => exact List.isChain_cons_cons.2 ⟨.inr rfl, hcapture⟩

/-- A text is what stands before its first colon, a colon, and the rest. -/
theorem eq_before_colon {s after : Text} {c : Char} (h : s.dropWhile (· ≠ ':') = c :: after) :
    c = ':' ∧ ':' ∉ s.takeWhile (· ≠ ':') ∧ s = s.takeWhile (· ≠ ':') ++ ':' :: after := by
  have hc : c = ':' := by
    have := List.head?_dropWhile_not (· ≠ ':') s
    rw [h] at this
    simpa using this
  refine ⟨hc, fun hmem => by simpa using List.mem_takeWhile_imp hmem, ?_⟩
  conv_lhs => rw [← List.takeWhile_append_dropWhile (p := (· ≠ ':')) (l := s), h, hc]

/-- A text splits into pieces if every colon is followed by a name. -/
theorem isSome_pieces? {s : Text} :
    (pieces? s).isSome = true ↔ ∀ name ∈ namesAfterColons s, IsName name := by
  fun_induction pieces? s with
  | case1 s hs =>
    have hcolon : ':' ∉ s := fun hc => by simpa using List.dropWhile_eq_nil_iff.1 hs ':' hc
    rw [namesAfterColons_of_not_mem hcolon]
    simp
  | case2 s c after hs hid ih =>
    obtain ⟨rfl, hbefore, heq⟩ := eq_before_colon hs
    rw [heq, namesAfterColons_append hbefore, namesAfterColons_colon, List.forall_mem_cons,
      ← namesAfterColons_dropWhile, ← ih, Option.isSome_map]
    exact ⟨fun h => ⟨isIdentifier_iff.1 hid, h⟩, And.right⟩
  | case3 s c after hs hid =>
    obtain ⟨rfl, hbefore, heq⟩ := eq_before_colon hs
    rw [heq, namesAfterColons_append hbefore, namesAfterColons_colon, List.forall_mem_cons]
    constructor
    · intro h
      cases h
    · exact fun h => absurd (isIdentifier_iff.2 h.1) hid

/-- Pieces put together are the text, and they capture the names after its colons. -/
theorem pieces_of_text {s : Text} {pieces : List Piece} (h : pieces? s = some pieces) :
    pieces.flatMap Piece.text = s ∧ pieces.filterMap Piece.name? = namesAfterColons s ∧
      Piece.Tidy pieces := by
  fun_induction pieces? s generalizing pieces with
  | case1 s hs =>
    obtain rfl := Option.some.inj h
    have hcolon : ':' ∉ s := fun hc => by simpa using List.dropWhile_eq_nil_iff.1 hs ':' hc
    refine ⟨literalPiece_text s, ?_, ⟨fun t => literalPiece_nonempty, ?_⟩⟩
    · rw [namesAfterColons_of_not_mem hcolon, literalPiece_names]
    · cases s
      · exact .nil
      · exact .singleton _
  | case2 s c after hs hid ih =>
    obtain ⟨rest, hrest, rfl⟩ := Option.map_eq_some_iff.1 h
    obtain ⟨htext, hnames, htidy⟩ := ih hrest
    obtain ⟨rfl, hbefore, heq⟩ := eq_before_colon hs
    refine ⟨?_, ?_, tidy_cons htidy _ _⟩
    · rw [List.flatMap_append, literalPiece_text, List.flatMap_cons, htext, Piece.text,
        List.cons_append, List.takeWhile_append_dropWhile, ← heq]
    -- the names after the colons are the first one and those behind it
    · conv_rhs => rw [heq, namesAfterColons_append hbefore, namesAfterColons_colon,
        ← namesAfterColons_dropWhile, ← hnames]
      rw [List.filterMap_append, literalPiece_names]
      rfl
  | case3 => cases h

/-! ## The forms of a component -/

/-- What a component is without its suffix. `last` tells whether it is the last one of its pattern,
`format` whether it has the suffix. -/
inductive Form (last format : Bool) : Text → Prop
  | glob {name : Text} (hname : IsName name) (hlast : last = true) (hformat : format = false) :
    Form last format ('*' :: name)
  | capture {name : Text} (hname : IsName name) : Form last format (':' :: name)
  | plain {s : Text} (hcolon : ':' ∉ s) (hstar : '*' ∉ s) : Form last format s
  | mixed {s : Text} (hstar : s.head? ≠ some '*') (hcolon : ':' ∈ s)
    (hnames : ∀ name ∈ namesAfterColons s, IsName name) : Form last format s

/-- How a component is written: a form, or a form and the suffix at the end of the pattern. -/
inductive Written (last : Bool) : Text → Prop
  | bare {s : Text} (hsuffix : ¬ formatSuffix <:+ s) (hne : s ≠ []) (form : Form last false s) :
    Written last s
  | suffixed {s : Text} (hlast : last = true) (hne : s ≠ []) (form : Form last true s) :
    Written last (s ++ formatSuffix)

/-- The names that a component captures; that of the suffix is the last one. -/
def writtenNames : Text → List Text
  | '*' :: name => [name]
  | s => namesAfterColons s

/-- But for a glob, the names are those after the colons. -/
theorem writtenNames_of_not_star {s : Text} (h : s.head? ≠ some '*') :
    writtenNames s = namesAfterColons s := by
  unfold writtenNames
  split
  · exact absurd rfl h
  · rfl

end Component

/-- The written form of what a component is. -/
def ComponentKind.text (kind : ComponentKind) : Text :=
  (kind.segment false).text

namespace Component

/-- The written form of a component, the suffix attached. -/
def text (c : Component) : Text :=
  c.kind.text ++ if c.format then formatSuffix else []

/-- What a component is put together from. -/
def Tidy (kind : ComponentKind) : Prop :=
  ∀ pieces, kind = .compound pieces → Piece.Tidy pieces

/-- What is classified has a form, is printed as it was written, and captures its written names. -/
theorem classify_eq_ok {s : Text} {kind : ComponentKind} (h : classify s = .ok kind)
    {last format : Bool} (hglob : ∀ name, kind = .glob name → last = true ∧ format = false) :
    Form last format s ∧ kind.text = s ∧ kind.names = writtenNames s ∧ Tidy kind := by
  cases classified h with
  | glob hid =>
    obtain ⟨hlast, hformat⟩ := hglob _ rfl
    exact ⟨.glob (isIdentifier_iff.1 hid) hlast hformat, rfl, rfl, nofun⟩
  | capture hid =>
    have hname := isIdentifier_iff.1 hid
    exact ⟨.capture hname, rfl, (namesAfterColons_of_name hname).symm, nofun⟩
  | compound hhead hcolon hpieces =>
    obtain ⟨htext, hnames, htidy⟩ := pieces_of_text hpieces
    have hsome := isSome_pieces?.1 (Option.isSome_of_eq_some hpieces)
    refine ⟨.mixed hhead hcolon hsome, htext, ?_, ?_⟩
    · rw [writtenNames_of_not_star hhead]
      exact hnames
    · rintro _ ⟨⟩
      exact htidy
  | static hcolon hstar =>
    have hhead : s.head? ≠ some '*' := fun hhead => hstar (List.mem_of_mem_head? hhead)
    refine ⟨.plain hcolon hstar, rfl, ?_, nofun⟩
    rw [writtenNames_of_not_star hhead]
    exact (namesAfterColons_of_not_mem hcolon).symm

/-- A text is taken for pieces or for a fixed text when a name follows each colon and no star stands
alone. -/
theorem mixed_of_form {s : Text} (h : ':' ∈ s → ∀ name ∈ namesAfterColons s, IsName name)
    (hstar : ':' ∉ s → '*' ∉ s) :
    ∃ kind, classify.mixed s = .ok kind ∧ ∀ name, kind ≠ .glob name := by
  unfold classify.mixed
  split
  · next hcolon =>
    obtain ⟨pieces, hpieces⟩ := Option.isSome_iff_exists.1 (isSome_pieces?.2 (h hcolon))
    exact ⟨.compound pieces, by rw [hpieces], nofun⟩
  · next hcolon =>
    exact ⟨.static s, if_neg (hstar hcolon), nofun⟩

/-- Every form is classified. -/
theorem classify_of_form {last format : Bool} {s : Text} (h : Form last format s) :
    ∃ kind, classify s = .ok kind ∧
      ∀ name, kind = .glob name → last = true ∧ format = false := by
  -- a text that begins with no star is classified when it has pieces or is plain
  have hmixed (s : Text) (hhead : s.head? ≠ some '*')
      (hnames : ':' ∈ s → ∀ name ∈ namesAfterColons s, IsName name)
      (hstar : ':' ∉ s → '*' ∉ s) : ∃ kind, classify s = .ok kind ∧
        ∀ name, kind = .glob name → last = true ∧ format = false := by
    obtain ⟨kind, hkind, hglob⟩ := mixed_of_form hnames hstar
    unfold classify
    split
    · exact absurd rfl hhead
    · split
      · exact ⟨_, rfl, nofun⟩
      · exact ⟨kind, hkind, fun name hname => absurd hname (hglob name)⟩
    · exact ⟨kind, hkind, fun name hname => absurd hname (hglob name)⟩
  cases h with
  | glob hname hlast hformat =>
    exact ⟨_, if_pos (isIdentifier_iff.2 hname), fun _ _ => ⟨hlast, hformat⟩⟩
  | capture hname => exact ⟨_, if_pos (isIdentifier_iff.2 hname), nofun⟩
  | plain hcolon hstar =>
    apply hmixed s
    · exact fun hhead => hstar (List.mem_of_mem_head? hhead)
    · exact fun h => absurd h hcolon
    · exact fun _ => hstar
  | mixed hstar hcolon hnames => exact hmixed s hstar (fun _ => hnames) (absurd hcolon)

/-- The suffix is taken off a component that has it. -/
theorem stripFormat_of_suffixed (s : Text) : stripFormat (s ++ formatSuffix) = (s, true) := by
  have : Text.beforeSuffix? formatSuffix (s ++ formatSuffix) = some s := by
    rw [Text.beforeSuffix?, List.reverse_append, Text.afterPrefix?_eq_some_iff.2 rfl]
    exact congrArg some s.reverse_reverse
  rw [stripFormat, this]

/-- Nothing is taken off a component that lacks the suffix. -/
theorem stripFormat_of_bare {s : Text} (h : ¬ formatSuffix <:+ s) : stripFormat s = (s, false) := by
  have happend := stripFormat_append s
  cases hf : (stripFormat s).2 with
  | false =>
    rw [hf] at happend
    exact Prod.ext (by simpa using happend) hf
  | true =>
    rw [hf] at happend
    exact absurd ⟨_, happend⟩ h

/-- No name goes on into the suffix. -/
theorem takeWhile_suffixed (s : Text) :
    (s ++ formatSuffix).takeWhile isNameChar = s.takeWhile isNameChar := by
  -- the suffix begins with a dot, which is no character of a name
  induction s with
  | nil => decide
  | cons c s ih => rw [List.cons_append, List.takeWhile_cons, List.takeWhile_cons, ih]

/-- The suffix captures one more name. -/
theorem writtenNames_suffixed {s : Text} (hne : s ≠ []) (hstar : s.head? ≠ some '*') :
    writtenNames (s ++ formatSuffix) = writtenNames s ++ [formatName] := by
  have hhead : (s ++ formatSuffix).head? ≠ some '*' := by
    rwa [List.head?_append_of_ne_nil s hne]
  rw [writtenNames_of_not_star hhead, writtenNames_of_not_star hstar]
  clear hne hstar hhead
  induction s with
  | nil => decide
  | cons c s ih =>
    rw [List.cons_append, namesAfterColons, namesAfterColons, ih, takeWhile_suffixed]
    split <;> rfl

/-- A component with the suffix is no glob. -/
theorem Form.head? {last : Bool} {s : Text} (h : Form last true s) : s.head? ≠ some '*' := by
  cases h with
  | glob _ _ hformat => cases hformat
  | capture => simp
  | plain _ hstar => exact fun hhead => hstar (List.mem_of_mem_head? hhead)
  | mixed hstar => exact hstar

/-- A component that is read is written in one of the forms, and can be printed again. -/
theorem written_of_read {last : Bool} {s : Text} {c : Component} (h : read last s = .ok c) :
    Written last s ∧ c.text = s ∧ c.names = writtenNames s ∧ Tidy c.kind := by
  obtain ⟨hne, hkind, hformat, hlast, hglob⟩ := read_eq_ok h
  have happend := stripFormat_append s
  rw [← hformat] at happend
  generalize (stripFormat s).1 = text at hne hkind happend
  obtain ⟨hform, htext, hnames, htidy⟩ := classify_eq_ok hkind hglob
  have hprinted : c.text = s := by rw [Component.text, htext, happend]
  obtain ⟨kind, format⟩ := c
  cases format with
  | false =>
    obtain rfl : text = s := by simpa using happend
    refine ⟨.bare ?_ hne hform, hprinted, ?_, htidy⟩
    · rintro ⟨t, rfl⟩
      rw [stripFormat_of_suffixed] at hformat
      cases hformat
    · rw [names, hnames]
      exact List.append_nil _
  | true =>
    obtain rfl : text ++ formatSuffix = s := happend
    refine ⟨.suffixed (hlast rfl) hne hform, hprinted, ?_, htidy⟩
    rw [writtenNames_suffixed hne hform.head?, names, hnames]
    rfl

/-- A component is read when its text is classified and nothing about its place forbids it. -/
theorem read_of_classify {last format : Bool} {s text : Text} {kind : ComponentKind}
    (hstrip : stripFormat s = (text, format)) (hne : text ≠ [])
    (hlast : format = true → last = true) (hkind : classify text = .ok kind)
    (hglob : ∀ name, kind = .glob name → last = true ∧ format = false) :
    read last s = .ok ⟨kind, format⟩ := by
  have hnot : (format && !last) = false := by cases format <;> simp_all
  have hempty : text.isEmpty = false := by simpa using hne
  simp only [read, hstrip, hnot, hempty, hkind, Bool.false_eq_true, if_false]
  cases kind with
  | glob name =>
    obtain ⟨rfl, rfl⟩ := hglob name rfl
    rfl
  | static | capture | compound => rfl

/-- Every component written in one of the forms is read. -/
theorem read_of_written {last : Bool} {s : Text} (h : Written last s) :
    ∃ c, read last s = .ok c := by
  cases h with
  | bare hsuffix hne form =>
    obtain ⟨kind, hkind, hglob⟩ := classify_of_form form
    exact ⟨_, read_of_classify (stripFormat_of_bare hsuffix) hne nofun hkind hglob⟩
  | suffixed hlast hne form =>
    obtain ⟨kind, hkind, hglob⟩ := classify_of_form form
    exact ⟨_, read_of_classify (stripFormat_of_suffixed _) hne (fun _ => hlast) hkind hglob⟩

end Component

end Routing
