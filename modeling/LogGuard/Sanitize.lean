import LogGuard.Call.Site
import LogGuard.Import.Anchor

/-!
# Sanitising a source text

`sanitize` makes a text call the safe functions only: it inserts the import of the safety module
unless the text mentions the module already, and replaces every logging call. The declaration to
insert is an action, run only if the text does not mention the module.
-/

namespace LogGuard

/-- What became of the import of the safety module. -/
inductive ImportStatus where
  /-- The text mentions the module already. -/
  | present
  /-- The import was inserted. -/
  | inserted
  /-- The text has no import after which to insert another. -/
  | unanchored
  deriving DecidableEq, Repr

/-- A text that calls the safe functions only. -/
structure Sanitized where
  text : Text
  /-- The number of calls that were replaced. -/
  calls : Nat
  status : ImportStatus
  deriving DecidableEq, Repr

/-- Adds the import that `declaration` computes, unless `moduleName` occurs in the text. -/
def addImport {m : Type → Type} [Monad m] (moduleName t : Text) (declaration : m Text) :
    m (Text × ImportStatus) :=
  if Text.mentions moduleName t then
    pure (t, .present)
  else do
    let line ← declaration
    match Import.insert? t line with
    | some extended => pure (extended, .inserted)
    | none => pure (t, .unanchored)

/-- Adds the import and replaces every call. -/
def sanitize {m : Type → Type} [Monad m] (moduleName t : Text) (declaration : m Text) :
    m Sanitized := do
  let (extended, status) ← addImport moduleName t declaration
  pure ⟨Call.replaceAll extended, Call.count extended, status⟩

end LogGuard
