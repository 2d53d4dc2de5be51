import LogGuard.Proofs.Json.Reading
import LogGuard.Proofs.Path.Utf8
import LogGuard.Proofs.Report

/-!
# Reading a report back

What a report says is read back from its document by the names of the fields (`read?`). A summary
whose paths are UTF-8 is read back as it was (`read?_json`). Since the document is one for this
report alone, nothing of the summary is lost when it is printed (`printJson_lossless`).
-/

namespace LogGuard

namespace Json

/-- The value of the first field with a name. -/
def field? (name : String) : Json → Option Json
  | .object fields => fields.lookup name.toList
  | _ => none

/-- A truth value. -/
def bool? : Json → Option Bool
  | .bool b => some b
  | _ => none

/-- A number. -/
def number? : Json → Option Nat
  | .number n => some n
  | _ => none

/-- A text. -/
def text? : Json → Option String
  | .text t => some (String.ofList t)
  | _ => none

/-- The items of an array, each of them read by `f`. -/
def items? {α : Type} (f : Json → Option α) : Json → Option (List α)
  | .array items => items.mapM f
  | _ => none

/-- Items are read back if each of them is. -/
theorem items?_map {α : Type} {f : Json → Option α} {g : α → Json} {items : List α}
    (h : ∀ a ∈ items, f (g a) = some a) : items? f (.array (items.map g)) = some items := by
  rw [items?]
  induction items with
  | nil => rfl
  | cons a rest ih =>
    rw [List.map_cons, List.mapM_cons, h a List.mem_cons_self,
      ih fun b hb => h b (List.mem_cons_of_mem _ hb)]
    rfl

end Json

namespace Report

variable {s s' : Summary}

/-- The path that a document gives as a text. -/
def readPath? (j : Json) : Option Path :=
  j.text?.map .ofString

/-- The failure that a document tells of. -/
def readFailure? (j : Json) : Option FileFailure := do
  let path ← readPath? (← j.field? "path")
  let message ← (← j.field? "message").text?
  pure ⟨path, message⟩

/-- The summary that a document reports. -/
def read? (j : Json) : Option Summary := do
  let dryRun ← (← j.field? "dry_run").bool?
  let filesProcessed ← (← j.field? "files_processed").number?
  let filesModified ← (← j.field? "files_modified").number?
  let filesErrored ← (← j.field? "files_errored").number?
  let callsReplaced ← (← j.field? "calls_rewritten").number?
  let modified ← (← j.field? "modified").items? readPath?
  let failures ← (← j.field? "errors").items? readFailure?
  let missingDirs ← (← j.field? "missing_dirs").items? readPath?
  pure ⟨dryRun, filesProcessed, filesModified, filesErrored, callsReplaced, modified, failures,
    missingDirs⟩

/-- A path in UTF-8 is read back. -/
theorem readPath?_jsonPath {p : Path} (h : p.toString?.isSome = true) :
    readPath? (jsonPath p) = some p := by
  obtain ⟨t, ht⟩ := Option.isSome_iff_exists.mp h
  have hpath : p = .ofString t := by
    have hbytes := Settings.toString?_eq_some.mp ht
    rw [Settings.path, String.ofList_toList] at hbytes
    exact congrArg Path.mk hbytes
  rw [jsonPath, ht]
  dsimp only
  rw [readPath?, Json.text?, String.ofList_toList, Option.map_some, ← hpath]

/-- A failure at a path in UTF-8 is read back. -/
theorem readFailure?_jsonFailure {f : FileFailure} (h : f.path.toString?.isSome = true) :
    readFailure? (jsonFailure f) = some f := by
  have hpath : (jsonFailure f).field? "path" = some (jsonPath f.path) := rfl
  have hmessage : (jsonFailure f).field? "message" = some (.text f.message.toList) := rfl
  simp [readFailure?, hpath, hmessage, readPath?_jsonPath h, Json.text?]

/-- A summary whose paths are UTF-8 is read back from its report. -/
theorem read?_json (h : s.Readable) : read? (json s) = some s := by
  obtain ⟨hmodified, hfailures, hmissing⟩ :
      (∀ p ∈ s.modified, p.toString?.isSome = true) ∧
        (∀ f ∈ s.failures, f.path.toString?.isSome = true) ∧
          ∀ p ∈ s.missingDirs, p.toString?.isSome = true := by
    simpa [Summary.Readable, Summary.paths, or_imp, forall_and] using h
  have hread := Json.items?_map fun p hp => readPath?_jsonPath (hmodified p hp)
  have hread' := Json.items?_map fun f hf => readFailure?_jsonFailure (hfailures f hf)
  have hread'' := Json.items?_map fun p hp => readPath?_jsonPath (hmissing p hp)
  simp [read?, json, Json.field?, Json.bool?, Json.number?, hread, hread', hread'',
    List.lookup_cons]

/-- A report on UTF-8 paths is printed as a document on a line of its own. It is a document for the
report and for no other value, and the summary can be read back from that. So no other summary with
UTF-8 paths has a report that is printed with the same bytes. -/
theorem printJson_lossless (h : s.Readable) :
    ∃ document,
      printJson s {} = (Output.given none (Output.lineBytes (String.ofList document)), .ok ()) ∧
        (∀ j, Json.Spells j document ↔ j = json s) ∧
        (∀ j, Json.Spells j document → read? j = some s) ∧
        ∀ s' : Summary, s'.Readable →
          (printJson s' {}).1.printed = (printJson s {}).1.printed → s' = s := by
  obtain ⟨document, hspells, hprinted⟩ := printJson_of_readable h
  have hunique (j : Json) (hj : Json.Spells j document) : j = json s := hj.unique hspells
  refine ⟨document, hprinted, fun j => ⟨hunique j, fun hj => hj ▸ hspells⟩, fun j hj => ?_,
    fun s' h' hsame => ?_⟩
  · rw [hunique j hj, read?_json h]
  · obtain ⟨document', hspells', hprinted'⟩ := printJson_of_readable h'
    rw [hprinted', hprinted] at hsame
    -- The bytes are those of a text with a line end, which the documents have before it.
    have hline : String.ofList document' ++ "\n" = String.ofList document ++ "\n" :=
      Output.bytes_injective hsame
    obtain rfl : document' = document := by simpa using congrArg String.toList hline
    have hread := read?_json h'
    rw [hunique _ hspells', read?_json h] at hread
    exact (Option.some.inj hread).symm

/-- Quotes, backslashes, controls and characters beyond ASCII in a path and in a message. -/
def intricateSummary : Summary where
  dryRun := true
  filesProcessed := 18446744073709551615
  filesModified := 1
  filesErrored := 1
  modified := [.ofString "a \"b\"\\\n\x01\u00e9.ts"]
  failures := [⟨.ofString "c.ts", "\t\x7b\x7d, \u2028"⟩]

/-- Nothing of it is lost. -/
theorem printJson_lossless_of_escapes :
    intricateSummary.Readable ∧
      (∀ s : Summary, s.Readable →
        (printJson s {}).1.printed = (printJson intricateSummary {}).1.printed →
          s = intricateSummary) ∧
      read? (json intricateSummary) = some intricateSummary := by
  have hreadable : intricateSummary.Readable := by decide +kernel
  obtain ⟨document, -, hspells, hread, hsame⟩ := printJson_lossless hreadable
  exact ⟨hreadable, hsame, hread _ ((hspells _).mpr rfl)⟩

end Report

end LogGuard
