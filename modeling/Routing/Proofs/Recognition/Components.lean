import Routing.Proofs.Path.Slash
import Routing.Proofs.Recognition

/-!
# What recognition sees of a path

A request path counts only by the texts that its components are decoded to: two paths with the same
texts have the same decoded path, whatever slashes, escapes and queries they are written with. The
decoded path has one component for each of theirs, so that what is escaped inside a component never
becomes a boundary.

* `Path.components_decode_normalize` — the components of a decoded path
* `Path.decode_normalize_eq_ofComponents` — a decoded path is made of these
* `Table.recognize_components` — paths with the same decoded components are recognised alike
-/

namespace Routing

namespace Path

/-- A decoded path is determined by the texts of the components. -/
theorem decode_normalize_eq_mark (p : Text) :
    decode (normalize p) =
      if (components (beforeQuery p)).map Percent.decode = [] then ['/']
      else ((components (beforeQuery p)).map Percent.decode).flatMap fun t => '/' :: mark t := by
  rw [decode_normalize]
  simp only [List.map_eq_nil_iff, List.flatMap_map]
  split
  · rfl
  · apply List.flatMap_congr
    intro part hpart
    rw [decodeComponent_eq_mark (mem_components hpart).2]

/-- A decoded path has a component for each component of the path, which stands for the text that
this one is decoded to. -/
theorem components_decode_normalize (p : Text) :
    components (decode (normalize p)) =
      (components (beforeQuery p)).map fun part => mark (Percent.decode part) := by
  rw [decode_normalize_eq_mark]
  split
  · next hnil =>
    rw [List.map_eq_nil_iff] at hnil
    rw [hnil]
    rfl
  · rw [List.flatMap_map, ← List.flatMap_map (fun part => mark (Percent.decode part)) ('/' :: ·)]
    apply components_flatMap
    intro part hpart
    obtain ⟨part', hpart', rfl⟩ := List.mem_map.1 hpart
    exact ⟨mark_ne_nil (decode_ne_nil (mem_components hpart').1), slash_not_mem_mark _⟩

/-- A decoded path consists of the decoded components. -/
theorem decode_normalize_eq_ofComponents (p : Text) :
    decode (normalize p) =
      ofComponents ((components (beforeQuery p)).map fun part => mark (Percent.decode part)) := by
  rw [decode_normalize_eq_mark]
  split
  · next hnil =>
    rw [List.map_eq_nil_iff.1 hnil]
    rfl
  · next hne =>
    rw [ofComponents_eq_flatMap (by simpa using hne), List.flatMap_map, List.flatMap_map]

end Path

/-- The same failure on another path. -/
def RecognitionError.onPath (path : Text) : RecognitionError → RecognitionError
  | notFound _ => notFound path
  | methodNotAllowed _ method allowed => methodNotAllowed path method allowed
  | unknownMethod token => unknownMethod token

namespace Table

/-- Paths whose components are decoded to the same texts have the same parameters, or fail in the
same way but for the path that is told. A decoded path has one component for each component of the
path and in the same order, from which the decoded text comes back. -/
theorem recognize_components [Properties] (t : Table) (method : Option Method)
    (host : Option Text) :
    (∀ p q : Text,
      (Path.components (Path.beforeQuery p)).map Percent.decode =
          (Path.components (Path.beforeQuery q)).map Percent.decode →
        t.recognize ⟨q, method, host⟩ =
          (t.recognize ⟨p, method, host⟩).mapError (.onPath (Path.normalize q))) ∧
      ∀ p : Text,
        (Path.components (Path.decode (Path.normalize p))).length =
            (Path.components (Path.beforeQuery p)).length ∧
          (Path.components (Path.decode (Path.normalize p))).map Path.restore =
            (Path.components (Path.beforeQuery p)).map Percent.decode := by
  refine ⟨fun p q hpq => ?_, fun p => ⟨?_, ?_⟩⟩
  -- recognition reads the path through its decoded form alone
  · have hdecoded : Request.decoded ⟨q, method, host⟩ = Request.decoded ⟨p, method, host⟩ := by
      rw [Request.decoded, Request.decoded, Path.decode_normalize_eq_mark, ← hpq,
        Path.decode_normalize_eq_mark]
    rw [recognize_eq_mapError, recognize_eq_mapError, hdecoded]
    cases Recognition.among method host (Request.decoded ⟨p, method, host⟩) [] t.routes with
    | ok params => rfl
    | error found => cases method <;> cases found <;> rfl
  · rw [Path.components_decode_normalize, List.length_map]
  · rw [Path.components_decode_normalize, List.map_map]
    exact List.map_congr_left fun part _ => Path.restore_mark _

/-- Notes are shown by their titles. -/
def notesDeclaration : Declaration :=
  { Declaration.blank with
    path := "notes/:title".toList
    defaults := .ofList [(controllerKey, .str "notes".toList), (actionKey, .str "show".toList)] }

/-- An escaped slash, in either case of its digits, is part of the title, and so is what is put for
a byte that is no text. Nor do doubled slashes, a slash at the end and a query matter. -/
theorem recognize_components_notes :
    ∃ t params, empty.draw [notesDeclaration] = .ok t ∧
      t.recognize ⟨"/notes/a%2Fb%FF".toList, none, none⟩ = .ok params ∧
      params.get? "title".toList = some (.str "a/b\uFFFD".toList) ∧
      t.recognize ⟨"notes//%61%2fb%FE/?page=1".toList, none, none⟩ = .ok params := by
  let t : Table := (empty.draw [notesDeclaration]).toOption.getD empty
  let params : Params := .ofList [(controllerKey, .str "notes".toList),
    (actionKey, .str "show".toList), ("title".toList, .str "a/b\uFFFD".toList)]
  have hdraw : empty.draw [notesDeclaration] = .ok t := by decide +kernel
  have hshown : t.recognize ⟨"/notes/a%2Fb%FF".toList, none, none⟩ = .ok params := by
    decide +kernel
  have hsame := (recognize_components t none none).1 "/notes/a%2Fb%FF".toList
    "notes//%61%2fb%FE/?page=1".toList (by decide +kernel)
  refine ⟨t, params, hdraw, hshown, by decide +kernel, ?_⟩
  rw [hsame, hshown]
  rfl

end Table

end Routing
