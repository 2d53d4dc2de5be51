import LogGuard.Proofs.Json.Printer
import LogGuard.Proofs.Output
import LogGuard.Report

/-!
# Printing a report as a document

On an output that takes everything a report is printed as a line that is a JSON document for it,
unless a path in the summary is not UTF-8 (`printJson_of_readable`). The document is then cut off
before the first such path, in the middle of a line (`printJson_of_unreadable`).
-/

namespace LogGuard

variable {s : Summary}

/-- The paths in a summary. -/
def Summary.paths (s : Summary) : List Path :=
  s.modified ++ s.failures.map FileFailure.path ++ s.missingDirs

/-- All paths in the summary are UTF-8. -/
def Summary.Readable (s : Summary) : Prop :=
  ∀ p ∈ s.paths, p.toString?.isSome = true

instance : Decidable s.Readable :=
  List.decidableBAll _ s.paths

/-- Values are readable if each of them is. -/
theorem Json.areReadable_map {α : Type} (f : α → Json) (items : List α) :
    areReadable (items.map f) = items.all fun a => (f a).isReadable := by
  induction items with
  | nil => rfl
  | cons a rest ih => rw [List.map_cons, areReadable, ih, List.all_cons]

namespace Report

theorem isReadable_jsonPath (p : Path) : (jsonPath p).isReadable = p.toString?.isSome := by
  unfold jsonPath
  split
  · rename_i heq
    rw [heq]
    rfl
  · rename_i heq
    rw [heq]
    rfl

theorem isReadable_jsonFailure (f : FileFailure) :
    (jsonFailure f).isReadable = f.path.toString?.isSome := by
  simp [jsonFailure, Json.isReadable, Json.haveReadable, isReadable_jsonPath]

/-- A report can be written to its end if all paths in the summary are UTF-8. -/
theorem isReadable_json : (json s).isReadable = true ↔ s.Readable := by
  simp [json, Json.isReadable, Json.haveReadable, Json.areReadable_map, isReadable_jsonPath,
    isReadable_jsonFailure, Summary.Readable, Summary.paths, or_imp, forall_and]

/-- On an output that takes everything, all that is written of the document is printed, and the
line is ended if that is all of the document. -/
theorem printJson_empty (s : Summary) :
    printJson s {} =
      if ((json s).render 0).complete then
        (Output.given none (Output.lineBytes (String.ofList ((json s).render 0).text)), .ok ())
      else
        (Output.given none (String.ofList ((json s).render 0).text).toByteArray.data.toList,
          .error .unreadablePath) := by
  unfold printJson
  dsimp only
  generalize (json s).render 0 = written
  cases hcomplete : written.complete with
  | true => simp [Output.print, Output.printBytes, Output.given, Output.lineBytes]
  | false => rfl

/-- A report on UTF-8 paths is printed as a document for it on a line of its own. -/
theorem printJson_of_readable (h : s.Readable) :
    ∃ document, Json.Spells (json s) document ∧
      printJson s {} = (Output.given none (Output.lineBytes (String.ofList document)), .ok ()) := by
  have hreadable := isReadable_json.mpr h
  refine ⟨((json s).render 0).text, Json.spells_render 0 _ hreadable, ?_⟩
  rw [printJson_empty, Json.complete_render, hreadable, if_pos rfl]

/-- Of a report on other paths a part is printed that does not end a line. -/
theorem printJson_of_unreadable (h : ¬s.Readable) :
    ∃ part, (∀ t, part ≠ Output.lineBytes t) ∧
      printJson s {} = (Output.given none part, .error .unreadablePath) := by
  have hunreadable : (json s).isReadable = false := by
    rwa [← isReadable_json, Bool.not_eq_true] at h
  refine ⟨_, fun t heq => ?_, by
    rw [printJson_empty, Json.complete_render, hunreadable, if_neg (by decide)]⟩
  -- A line would be a text with a line end, and so would be what was written.
  have htext := congrArg String.toList (Output.bytes_injective heq)
  rw [String.toList_ofList, String.toList_append] at htext
  exact Json.text_render_ne_line hunreadable t.toList htext

end Report

end LogGuard
