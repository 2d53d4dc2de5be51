import LogGuard.Settings.Basic
import LogGuard.Toml.Document

/-!
# Settings from a document

The settings stand in the table `safe_log_fixer` of a TOML document. Keys that are no setting are
ignored; a setting of the wrong kind is refused (`Decoded.malformed`).
-/

namespace LogGuard.Settings

/-- The name of the table that holds the settings. -/
def tableName : Text := "safe_log_fixer".toList

/-- What a document says about the settings. -/
inductive Decoded where
  /-- It is no TOML document, or a setting is of the wrong kind. -/
  | malformed
  /-- It has no table of settings. -/
  | absent
  | found (raw : RawSettings)

/-- A text. -/
def text? : Toml.Value → Option Text
  | .string t => some t
  | _ => none

/-- A list of texts. -/
def texts? : Toml.Value → Option (List Text)
  | .array items => items.mapM text?
  | _ => none

/-- The value of a setting that may be absent. -/
def setting? {α : Type} (fields : Toml.Fields) (name : String) (read : Toml.Value → Option α) :
    Option (Option α) :=
  match fields.get? name.toList with
  | none => some none
  | some v => (read v).map some

/-- The settings that the fields of a table give. -/
def ofFields? (fields : Toml.Fields) : Option RawSettings := do
  pure {
    root := ← setting? fields "root" text?
    dirs := ← setting? fields "dirs" texts?
    extensions := ← setting? fields "extensions" texts?
    safetyModule := ← setting? fields "safety_module" text?
    exclude := ← setting? fields "exclude" texts? }

/-- The settings that a value gives. All five may stand in an array in their order, and a date is a
table without settings. -/
def ofValue? : Toml.Value → Option RawSettings
  | .table _ fields => ofFields? fields
  | .array (root :: dirs :: extensions :: safetyModule :: exclude :: _) => do
    pure {
      root := some (← text? root)
      dirs := some (← texts? dirs)
      extensions := some (← texts? extensions)
      safetyModule := some (← text? safetyModule)
      exclude := some (← texts? exclude) }
  | .dateTime => some {}
  | _ => none

/-- Reads the settings from a document. -/
def decode (document : Text) : Decoded :=
  match Toml.parse document with
  | none => .malformed
  | some fields =>
    match fields.get? tableName with
    | none => .absent
    | some v =>
      match ofValue? v with
      | none => .malformed
      | some raw => .found raw

end LogGuard.Settings
