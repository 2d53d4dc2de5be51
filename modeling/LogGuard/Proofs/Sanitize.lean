import LogGuard.Proofs.Call.Replacement
import LogGuard.Sanitize

/-!
# Sanitised texts

`sanitize_eq_ok_iff` says when sanitising succeeds and what it yields in each of the three cases of
the import. Whatever the case, the result has no call, so it differs from a text that has one
(`occursIn_of_sanitize`, `ne_of_sanitize`).
-/

namespace LogGuard

variable {ε : Type} {moduleName t : Text} {declaration : Except ε Text} {s : Sanitized}

/-- The text with its calls replaced after `extended` was put in its place, with the number of
calls and what became of the import. -/
def Sanitized.of (extended : Text) (status : ImportStatus) : Sanitized :=
  ⟨Call.replaceAll extended, Call.count extended, status⟩

/-- What sanitising yields: the module is mentioned already, or the declaration was computed and
then inserted if there is an anchor. -/
theorem sanitize_eq_ok_iff :
    sanitize moduleName t declaration = .ok s ↔
      (Text.mentions moduleName t = true ∧ s = .of t .present) ∨
      (Text.mentions moduleName t = false ∧ ∃ line, declaration = .ok line ∧
        ((∃ extended, Import.insert? t line = some extended ∧ s = .of extended .inserted) ∨
          (Import.insert? t line = none ∧ s = .of t .unanchored))) := by
  unfold sanitize addImport Sanitized.of
  by_cases hmention : Text.mentions moduleName t = true
  · simp [hmention, bind, Except.bind, pure, Except.pure, eq_comm]
  · cases declaration with
    | error e => simp [hmention, bind, Except.bind]
    | ok line =>
      cases hinsert : Import.insert? t line <;>
        simp [hmention, hinsert, bind, Except.bind, pure, Except.pure, eq_comm]

/-- If a text mentions the module, nothing is inserted. -/
theorem sanitize_present (hmention : Text.mentions moduleName t = true) :
    sanitize moduleName t declaration = .ok (.of t .present) :=
  sanitize_eq_ok_iff.mpr (.inl ⟨hmention, rfl⟩)

section Absent

variable {out line : Text} (habsent : Text.mentions moduleName t = false)

include habsent

/-- If a text does not mention the module, a declaration that cannot be computed is an error. -/
theorem sanitize_error (e : ε) : sanitize moduleName t (.error e : Except ε Text) = .error e := by
  simp [sanitize, addImport, habsent, bind, Except.bind]

/-- If a text does not mention the module and has an anchor, the declaration is inserted. -/
theorem sanitize_inserted (h : Import.insert? t line = some out) :
    sanitize moduleName t (.ok line : Except ε Text) = .ok (.of out .inserted) :=
  sanitize_eq_ok_iff.mpr (.inr ⟨habsent, line, rfl, .inl ⟨out, h, rfl⟩⟩)

/-- If a text does not mention the module and has no anchor, only its calls are replaced. -/
theorem sanitize_unanchored (h : Import.insert? t line = none) :
    sanitize moduleName t (.ok line : Except ε Text) = .ok (.of t .unanchored) :=
  sanitize_eq_ok_iff.mpr (.inr ⟨habsent, line, rfl, .inr ⟨h, rfl⟩⟩)

end Absent

/-- A sanitised text is a text whose calls were replaced and counted. -/
theorem exists_of_sanitize (h : sanitize moduleName t declaration = .ok s) :
    ∃ extended, s = .of extended s.status := by
  rcases sanitize_eq_ok_iff.mp h with ⟨-, rfl⟩ | ⟨-, line, -, ⟨extended, -, rfl⟩ | ⟨-, rfl⟩⟩
  · exact ⟨t, rfl⟩
  · exact ⟨extended, rfl⟩
  · exact ⟨t, rfl⟩

/-- A sanitised text has no call. -/
theorem occursIn_of_sanitize (h : sanitize moduleName t declaration = .ok s) :
    Call.occursIn s.text = false := by
  obtain ⟨extended, hs⟩ := exists_of_sanitize h
  rw [hs]
  exact Call.occursIn_eq_false_of_pieces (Call.pieces_replaceAll extended)

/-- Sanitising changes every text that has a call. -/
theorem ne_of_sanitize (h : sanitize moduleName t declaration = .ok s)
    (hcall : Call.occursIn t = true) : s.text ≠ t := by
  intro heq
  rw [← heq, occursIn_of_sanitize h] at hcall
  contradiction

/-- A computation of the declaration may keep a record on the side without changing the result. -/
theorem sanitize_run_run {ε σ : Type} (moduleName t : Text)
    (declaration : ExceptT ε (StateM σ) Text) (st : σ) :
    ((sanitize moduleName t declaration).run.run st).1 =
      sanitize moduleName t (declaration.run.run st).1 := by
  unfold sanitize addImport
  by_cases hmention : Text.mentions moduleName t = true
  · -- The declaration is not computed.
    simp only [hmention, if_true]
    rfl
  · obtain ⟨result, hrun⟩ : ∃ result, declaration.run.run st = result := ⟨_, rfl⟩
    obtain ⟨result, st'⟩ := result
    cases result with
    | error e =>
      simp [hmention, ExceptT.run_bind, hrun]
      rfl
    | ok line =>
      have hline (f : Text → Except ε Sanitized) : (Except.ok line >>= f) = f line := rfl
      have hpair (f : Except ε Text × σ → Id (Except ε Sanitized × σ)) :
          (bind (m := Id) (Except.ok line, st') f) = f (Except.ok line, st') := rfl
      cases hinsert : Import.insert? t line <;>
      · simp [hmention, ExceptT.run_bind, hrun, hinsert, hline, hpair]
        rfl

end LogGuard
