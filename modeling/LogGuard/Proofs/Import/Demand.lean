import LogGuard.Import.Resolver
import LogGuard.Proofs.Sanitize
import LogGuard.Settings.Basic

/-!
# When a declaration is computed

Sanitising is given a computation of the declaration, which may fail. In whatever monad it runs, it
comes before the search for a place where the declaration could go (`sanitize_eq_bind`). So it runs
for every text that does not mention the module, also for one that has no place for an import, and
if it fails the calls of such a text are not replaced (`declaration_computed_iff`).
-/

namespace LogGuard

variable {ε : Type}

/-- An import is to be added to the text: it does not mention the module and has a place for one. -/
def NeedsImport (moduleName t : Text) : Prop :=
  Text.mentions moduleName t = false ∧ (Import.anchor? t).isSome = true

instance (moduleName t : Text) : Decidable (NeedsImport moduleName t) :=
  inferInstanceAs (Decidable (_ ∧ _))

/-- A computation of a declaration, with a count of how often it runs. -/
def counted (declaration : Except ε Text) : ExceptT ε (StateM Nat) Text := do
  modify (· + 1)
  ExceptT.mk (pure declaration)

/-- What sanitising yields, with the number of times that the declaration was computed. -/
def sanitizeCounted (moduleName t : Text) (declaration : Except ε Text) :
    Except ε Sanitized × Nat :=
  (sanitize moduleName t (counted declaration)).run.run 0

/-- The sanitised text for a declaration at hand, which is inserted if there is a place for it. -/
def Sanitized.withLine (t line : Text) : Sanitized :=
  match Import.insert? t line with
  | some extended => .of extended .inserted
  | none => .of t .unanchored

/-- Without a place for it a declaration is not inserted, and nothing else keeps it out. -/
theorem Sanitized.withLine_eq_iff {t line : Text} :
    Sanitized.withLine t line = .of t .unanchored ↔ Import.anchor? t = none := by
  unfold Sanitized.withLine Import.insert?
  cases Import.anchor? t with
  | none => simp
  | some parts => simp [Sanitized.of]

/-- In any monad the declaration is computed before a place for it is looked for. -/
theorem sanitize_eq_bind {m : Type → Type} [Monad m] [LawfulMonad m] (moduleName t : Text)
    (declaration : m Text) :
    sanitize moduleName t declaration =
      if Text.mentions moduleName t then pure (.of t .present)
      else declaration >>= fun line => pure (.withLine t line) := by
  unfold sanitize addImport
  split
  · rw [pure_bind]
    rfl
  · rw [bind_assoc]
    congr 1
    funext line
    unfold Sanitized.withLine
    cases Import.insert? t line <;> rw [pure_bind] <;> rfl

/-- The declaration counts once or not at all, by whether the text mentions the module. -/
theorem sanitizeCounted_eq (moduleName t : Text) (declaration : Except ε Text) :
    sanitizeCounted moduleName t declaration =
      if Text.mentions moduleName t then (.ok (.of t .present), 0)
      else (declaration.map (.withLine t), 1) := by
  rw [sanitizeCounted, sanitize_eq_bind]
  split
  · rfl
  · cases declaration <;> rfl

/-- The declaration is computed once if the text does not mention the module, and not at all if it
does. That is as often as an import is to be added, except for texts that neither mention the module
nor have a place for an import. Sanitising fails exactly if the declaration is computed and cannot
be. A text without a place gets its calls replaced, and no import, exactly if it can be. -/
theorem declaration_computed_iff (moduleName t : Text) (declaration : Except ε Text) :
    let run := sanitizeCounted moduleName t declaration
    run.2 = (if Text.mentions moduleName t then 0 else 1) ∧
      ((run.2 ≠ 0 ↔ NeedsImport moduleName t) ↔
        Text.mentions moduleName t = true ∨ (Import.anchor? t).isSome = true) ∧
      (∀ e, run.1 = .error e ↔ Text.mentions moduleName t = false ∧ declaration = .error e) ∧
      (run.1 = .ok (.of t .unanchored) ↔ Text.mentions moduleName t = false ∧
        Import.anchor? t = none ∧ ∃ line, declaration = .ok line) := by
  intro run
  have hrun : run = _ := sanitizeCounted_eq moduleName t declaration
  cases hmention : Text.mentions moduleName t with
  | true =>
    rw [hmention, if_pos rfl] at hrun
    simp [hrun, NeedsImport, hmention, Sanitized.of]
  | false =>
    rw [hmention, if_neg Bool.false_ne_true] at hrun
    refine ⟨by simp [hrun], by simp [hrun, NeedsImport, hmention], fun e => ?_, ?_⟩
    · cases declaration <;> simp [hrun, Except.map]
    · cases declaration with
      | error e => simp [hrun, Except.map]
      | ok line => simp [hrun, Except.map, Sanitized.withLine_eq_iff]

/-- For a text without an import no declaration is needed. It is computed all the same, so that a
file for which there is none keeps its calls. -/
theorem computed_in_vain :
    let moduleName := "securityUtils".toList
    let t := "console.log(1)".toList
    let declaration (file : String) :=
      Import.forFile (.ofString "app") Settings.defaultSafetyModule (.ofString file)
    ¬NeedsImport moduleName t ∧
      sanitizeCounted moduleName t (declaration "app/a.ts") =
        (.ok ⟨"safeLog(1)".toList, 1, .unanchored⟩, 1) ∧
      sanitizeCounted moduleName t (declaration "app/../lib/a.ts") =
        (.error (.notRootRelative (.ofString "../lib/a.ts")), 1) := by
  intro moduleName t declaration
  decide +kernel

end LogGuard
