import Routing.Proofs.Path.Slash
import Routing.Proofs.Route.RoundTrip

/-!
# What a path says

The texts that a route reads from a decoded path without placeholders for slashes can be rendered
again: characters are put back for the placeholders, and what comes of it still fits.

* `Route.Restored` — the parts of a text read from a path
* `Route.read_of_match` — the parameters of a path, part by part
-/

namespace Routing

open Routing.Path

namespace Level

variable {σ : Text → Text} {levels : List Level} {l : Level} {name : Text} {glob : Bool}

/-- The text of a parameter stands in the path. -/
theorem infix_path (σ : Text → Text) (hl : l ∈ levels) (hc : Slot.capture name glob ∈ l.slots) :
    σ name <:+: path σ levels := by
  have hne : levels ≠ [] := List.ne_nil_of_mem hl
  rw [path, if_neg (by simpa using hne)]
  have hspell : σ name <:+: l.spell σ :=
    List.infix_of_mem_flatten (List.mem_map.2 ⟨_, hc, rfl⟩)
  exact hspell.trans (List.infix_of_mem_flatten (List.mem_map_of_mem hl))

end Level

variable [Properties]

namespace Route

variable {r : Route} {m : Nat} {σ : Text → Text} {s : Text} {l : Level} {name : Text} {glob : Bool}

/-- The parts of a text that was read from a path. -/
structure Restored (name : Text) (glob : Bool) (parts : List Text) : Prop where
  sound : ∀ part ∈ parts, part ≠ [] ∧ '/' ∉ part
  single : glob = false → ∃ part, parts = [part]
  newline : glob = true → ∀ part ∈ parts, '\n' ∉ part
  ne_nil : ['/'].intercalate parts ≠ []
  controller : name = controllerKey → Slot.Fits controllerKey glob (['/'].intercalate parts)
  inner : glob = false → ∀ c ∈ ['/'].intercalate parts, isInner c = true

/-- The parts of a text, with the characters back for the placeholders. -/
def restoredParts (glob : Bool) (t : Text) : List Text :=
  if glob then (t.splitOn '/').map restore else [restore t]

/-- The value read from a text is the value of the parts that are put back. -/
theorem capturedValue_eq (r : Route) (name t : Text) :
    r.capturedValue name t = r.valueOf name (restoredParts (r.isGlob name) t) := by
  rw [capturedValue, valueOf, restoredParts]
  split
  · rw [List.map_map]
    rfl
  · rw [List.intercalate_singleton]

omit [Properties] in
/-- A text that fits the controller holds no placeholder, slash or line feed. -/
theorem restore_of_fits {t : Text} (h : Slot.Fits controllerKey glob t) :
    restore t = t ∧ '/' ∉ t ∧ '\n' ∉ t := by
  have hplain := Rendering.plain_of_fits h
  refine ⟨restore_of_plain fun hc => (hplain _ hc).2.1 rfl, fun hc => (hplain _ hc).2.2 rfl,
    fun hc => absurd (hplain _ hc).1 (by decide)⟩

/-- The text of a single capture is one part, when the path has no placeholder for a slash. -/
theorem restored_single (hclean : Clean s) (hd : r.Describes m σ s) (hl : l ∈ r.shown m)
    (hc : Slot.capture name false ∈ l.slots) : Restored name false [restore (σ name)] := by
  obtain ⟨hne, hallows⟩ := hd.fits l hl name false hc
  have hinner : ∀ c ∈ σ name, isInner c = true := fun c hc => Slot.isInner_of_allows (hallows c hc)
  have hmark : ¬ slashMark <:+: σ name := by
    intro h
    have := Level.infix_path σ hl hc
    rw [← hd.path] at this
    exact hclean.not_infix (h.trans this)
  -- a slash can only come back where a placeholder for it stood
  have hslash : '/' ∉ restore (σ name) :=
    slash_not_mem_restore (fun hc => absurd (hinner _ hc) (by decide)) hmark
  constructor
  case sound =>
    rw [List.forall_mem_singleton]
    exact ⟨restore_ne_nil hne, hslash⟩
  case single => exact fun _ => ⟨_, rfl⟩
  case newline => exact fun h => absurd h Bool.false_ne_true
  case ne_nil =>
    rw [List.intercalate_singleton]
    exact restore_ne_nil hne
  case controller =>
    rintro rfl
    rw [List.intercalate_singleton, (restore_of_fits ⟨hne, hallows⟩).1]
    exact ⟨hne, hallows⟩
  case inner =>
    rw [List.intercalate_singleton]
    intro _ c hc
    rcases mem_restore hc with hc' | rfl | ⟨rfl, -⟩
    · exact hinner c hc'
    · decide
    · exact absurd hc hslash

/-- A glob stands at the end of the path. -/
theorem path_of_glob (σ : Text → Text) (h : r.Settled) (hl : l ∈ r.shown m)
    (hc : Slot.capture name true ∈ l.slots) :
    ∃ pre, Level.path σ (r.shown m) = pre ++ '/' :: σ name := by
  have hmem := segmentOf_mem h.toCompiled hl
  rw [Segment.eq_glob_of_mem_slots (mem_slots_segmentOf.1 hc)] at hmem
  obtain ⟨before, hreq, hopt, hformat⟩ := required_of_glob h.toCompiled hmem
  refine ⟨(before.map Level.component).flatMap (Level.spell σ), ?_⟩
  rw [shown, levels, hreq, hopt, hformat, Level.path, if_neg (by simp)]
  simp [Matcher.levels, Level.spell, Level.slots, Segment.slots, Slot.spell]

/-- The text of a glob are the components that it spans, each put back by itself. -/
theorem restored_glob (h : r.Settled) (hclean : Clean s) (hd : r.Describes m σ s)
    (hl : l ∈ r.shown m) (hc : Slot.capture name true ∈ l.slots) :
    Restored name true ((σ name).splitOn '/' |>.map restore) := by
  obtain ⟨hne, hallows⟩ := hd.fits l hl name true hc
  obtain ⟨pre, hpre⟩ := path_of_glob σ h hl hc
  -- the glob stands at the end of the path, so its parts are the last components of a clean text
  have hparts := hclean.parts (hd.path.trans hpre) hne
  have hnewline : '\n' ∉ σ name := by
    intro hmem
    have := hallows _ hmem
    rw [Slot.allows] at this
    split at this
    · exact absurd this (by decide)
    · simp at this
  have hnonempty : (σ name).splitOn '/' ≠ [] := List.splitOn_ne_nil _ _
  constructor
  case sound =>
    intro part hpart
    obtain ⟨t, ht, rfl⟩ := List.mem_map.1 hpart
    obtain ⟨htne, hslash, hmark⟩ := hparts t ht
    exact ⟨restore_ne_nil htne, slash_not_mem_restore hslash hmark⟩
  case single => exact fun h => absurd h (by decide)
  case newline =>
    intro _ part hpart hmem
    obtain ⟨t, ht, rfl⟩ := List.mem_map.1 hpart
    rcases mem_restore hmem with hmem | hmem | ⟨hmem, -⟩
    · have := mem_intercalate_of_mem ht hmem
      rw [List.intercalate_splitOn] at this
      exact hnewline this
    · exact absurd hmem (by decide)
    · exact absurd hmem (by decide)
  case ne_nil =>
    obtain ⟨t, ht⟩ := List.exists_mem_of_ne_nil _ hnonempty
    obtain ⟨c, hc⟩ := List.exists_mem_of_ne_nil _ (restore_ne_nil (hparts t ht).1)
    exact List.ne_nil_of_mem (mem_intercalate_of_mem (List.mem_map_of_mem ht) hc)
  case controller =>
    rintro rfl
    obtain ⟨hrestore, hslash, -⟩ := restore_of_fits ⟨hne, hallows⟩
    rw [List.splitOn_eq_singleton hslash, List.map_singleton, List.intercalate_singleton, hrestore]
    exact ⟨hne, hallows⟩
  case inner => exact fun h => absurd h (by decide)

/-- The parameters of a path without encoded slashes, part by part. -/
theorem read_of_match (h : r.Settled) (hclean : Clean s) {params : Params}
    (hm : r.match? s = some params) :
    ∃ m ≤ r.levels.length, ∃ parts : Text → List Text,
      (∀ l ∈ r.shown m, ∀ name glob, Slot.capture name glob ∈ l.slots →
        Restored name glob (parts name)) ∧
      ∀ k, params.get? k = if k ∈ (r.shown m).flatMap Level.names then some (r.valueOf k (parts k))
        else (r.defaults.get? k).filter fun v => !v.isNil := by
  obtain ⟨m, σ, hd, -, hget⟩ := get?_of_match h hm
  refine ⟨m, hd.le, fun name => restoredParts (r.isGlob name) (σ name), ?_, fun k => ?_⟩
  · intro l hl name glob hc
    simp only [isGlob_eq h.toCompiled hl hc]
    cases glob with
    | false => exact restored_single hclean hd hl hc
    | true => exact restored_glob h hclean hd hl hc
  · rw [hget, capturedValue_eq]

end Route

end Routing
