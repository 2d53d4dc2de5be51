import LogGuard.Proofs.Sanitize
import LogGuard.Run.File

/-!
# Processing one file

`FileStep` lists what processing a file can lead to, with the outcome and the file system
afterwards, and `file_step` shows that nothing else happens. Later proofs go by its cases. The
outcome `unchanged` is not among them: the text that takes the place of a file with a call never is
the text of the file (`no_call_left`). The outcome is what is found in the file (`verdict`), unless
the file is to be replaced and cannot be (`FileStep.outcome_cases`).
-/

namespace LogGuard.Run

/-- The sanitised text of the file at a path. -/
def sanitized (settings : Settings) (path : Path) (t : Text) :
    Except Import.ResolveError Sanitized :=
  sanitize settings.moduleName t (Import.forFile settings.root settings.safetyModule path)

/-- Different texts have different bytes. -/
theorem encode_injective : Function.Injective encode := fun _ _ h =>
  String.ofList_injective (String.toByteArray_inj.mp h)

/-- Telling how deep a file lies does not change the declaration. -/
theorem declaration_run_run (settings : Settings) (path : Path) (log : List Event) :
    ((declaration settings path).run.run log).1 =
      Import.forFile settings.root settings.safetyModule path := by
  unfold declaration Import.forFile
  cases Import.locate settings.root path with
  | error e => rfl
  | ok located => rfl

/-- What is told on the way does not change how a file is sanitised. -/
theorem sanitizeFile_fst (settings : Settings) (path : Path) (t : Text) :
    (sanitizeFile settings path t).1 = sanitized settings path t := by
  unfold sanitizeFile sanitized
  rw [sanitize_run_run, declaration_run_run]

/-- What processing the file at `path` leads to: the outcome and the file system afterwards. -/
inductive FileStep (replace : Replacer) (settings : Settings) (mode : RunMode) (path : Path)
    (fs : FileSystem) : Outcome → FileSystem → Prop where
  /-- The file cannot be read. -/
  | unreadable {e} (hread : fs.readText path = .error e) :
    FileStep replace settings mode path fs (.failed (.unreadable path e)) fs
  /-- The file has no call. -/
  | clean {t} (hread : fs.readText path = .ok t) (hcall : Call.occursIn t.toList = false) :
    FileStep replace settings mode path fs .clean fs
  /-- There is no import for the file. -/
  | unresolved {t e} (hread : fs.readText path = .ok t) (hcall : Call.occursIn t.toList = true)
    (hsanitized : sanitized settings path t.toList = .error e) :
    FileStep replace settings mode path fs (.failed (.unresolved e)) fs
  /-- The file is only examined. -/
  | examined {t s} (hread : fs.readText path = .ok t) (hcall : Call.occursIn t.toList = true)
    (hsanitized : sanitized settings path t.toList = .ok s) (hmode : mode = .check) :
    FileStep replace settings mode path fs (.modified s.calls s.status) fs
  /-- The file is replaced. -/
  | replaced {t s fs'} (hread : fs.readText path = .ok t) (hcall : Call.occursIn t.toList = true)
    (hsanitized : sanitized settings path t.toList = .ok s) (hmode : mode = .fix)
    (hreplace : replace fs path (encode s.text) = .ok fs') :
    FileStep replace settings mode path fs (.modified s.calls s.status) fs'
  /-- The file cannot be replaced. -/
  | notReplaced {t s e} (hread : fs.readText path = .ok t)
    (hcall : Call.occursIn t.toList = true)
    (hsanitized : sanitized settings path t.toList = .ok s) (hmode : mode = .fix)
    (hreplace : replace fs path (encode s.text) = .error e) :
    FileStep replace settings mode path fs (.failed (.notReplaced e)) fs

variable (replace : Replacer) (settings : Settings) (mode : RunMode) (path : Path)
  (fs : FileSystem)

/-- Processing a file leads to one of the listed results. -/
theorem file_step :
    FileStep replace settings mode path fs (file replace settings mode path fs).outcome
      (file replace settings mode path fs).files := by
  unfold file
  cases hread : fs.readText path with
  | error e => exact .unreadable hread
  | ok t =>
    simp only [processText]
    cases hcall : Call.occursIn t.toList with
    | false => simpa using .clean hread hcall
    | true =>
      have hfst := sanitizeFile_fst settings path t.toList
      generalize sanitizeFile settings path t.toList = produced at hfst ⊢
      obtain ⟨result, log⟩ := produced
      dsimp only at hfst
      cases result with
      | error e => simpa using .unresolved hread hcall hfst.symm
      | ok s =>
        -- The sanitised text differs, so the file is never found unchanged.
        have hne := ne_of_sanitize hfst.symm hcall
        simp only [Bool.not_true, Bool.false_eq_true, if_false, beq_iff_eq, hne, writeBack]
        cases mode with
        | check => exact .examined hread hcall hfst.symm rfl
        | fix =>
          cases hreplace : replace fs path (encode s.text) with
          | ok fs' => exact .replaced hread hcall hfst.symm rfl hreplace
          | error e => exact .notReplaced hread hcall hfst.symm rfl hreplace

/-- A file that was, or would be, changed has a text with a call that was sanitised. -/
theorem FileStep.exists_of_modified {calls : Nat} {status : ImportStatus} {after : FileSystem}
    (h : FileStep replace settings mode path fs (.modified calls status) after) :
    ∃ t s, fs.readText path = .ok t ∧ Call.occursIn t.toList = true ∧
      sanitized settings path t.toList = .ok s ∧ s.calls = calls ∧ s.status = status := by
  cases h with
  | examined hread hcall hsanitized => exact ⟨_, _, hread, hcall, hsanitized, rfl, rfl⟩
  | replaced hread hcall hsanitized => exact ⟨_, _, hread, hcall, hsanitized, rfl, rfl⟩

/-- A file with a call is replaced if its text can be sanitised and written. -/
theorem FileStep.eq_of_replaced {outcome : Outcome} {after fs' : FileSystem} {t : String}
    {s : Sanitized} (h : FileStep replace settings .fix path fs outcome after)
    (hread : fs.readText path = .ok t) (hcall : Call.occursIn t.toList = true)
    (hsanitized : sanitized settings path t.toList = .ok s)
    (hreplace : replace fs path (encode s.text) = .ok fs') :
    outcome = .modified s.calls s.status ∧ after = fs' := by
  cases h with
  | unreadable hread' => simp [hread] at hread'
  | clean hread' hcall' =>
    obtain rfl : t = _ := by simpa [hread] using hread'
    simp [hcall] at hcall'
  | unresolved hread' _ hsanitized' =>
    obtain rfl : t = _ := by simpa [hread] using hread'
    simp [hsanitized] at hsanitized'
  | examined _ _ _ hmode => contradiction
  | replaced hread' _ hsanitized' _ hreplace' =>
    obtain rfl : t = _ := by simpa [hread] using hread'
    obtain rfl : s = _ := by simpa [hsanitized] using hsanitized'
    exact ⟨rfl, by simpa [hreplace] using hreplace'.symm⟩
  | notReplaced hread' _ hsanitized' _ hreplace' =>
    obtain rfl : t = _ := by simpa [hread] using hread'
    obtain rfl : s = _ := by simpa [hsanitized] using hsanitized'
    simp [hreplace] at hreplace'

/-! ## What is found in a file -/

/-- Whether an outcome is that of a file that was, or would be, changed. -/
def isModified : Outcome → Bool
  | .modified .. => true
  | _ => false

/-- What is found in the file at a path, given what reading it has led to. -/
def verdict (settings : Settings) (path : Path) : Except IoError String → Outcome
  | .error e => .failed (.unreadable path e)
  | .ok t =>
    if Call.occursIn t.toList then
      match sanitized settings path t.toList with
      | .error e => .failed (.unresolved e)
      | .ok s => .modified s.calls s.status
    else .clean

variable {replace settings mode path fs} {outcome : Outcome} {after : FileSystem}

/-- The outcome is what is found in the file, unless that is to be replaced and cannot be. -/
theorem FileStep.outcome_cases (h : FileStep replace settings mode path fs outcome after) :
    outcome = verdict settings path (fs.readText path) ∨
      isModified (verdict settings path (fs.readText path)) = true ∧ mode = .fix ∧
        ∃ e, outcome = .failed (.notReplaced e) := by
  cases h with
  | unreadable hread => exact .inl (by rw [hread]; rfl)
  | clean hread hcall => exact .inl (by simp [hread, verdict, hcall])
  | unresolved hread hcall hsanitized =>
    exact .inl (by simp [hread, verdict, hcall, hsanitized])
  | examined hread hcall hsanitized => exact .inl (by simp [hread, verdict, hcall, hsanitized])
  | replaced hread hcall hsanitized => exact .inl (by simp [hread, verdict, hcall, hsanitized])
  | notReplaced hread hcall hsanitized hmode =>
    exact .inr ⟨by simp [hread, verdict, hcall, hsanitized, isModified], hmode, _, rfl⟩

/-- Only a file that is changed changes the file system. -/
theorem FileStep.files_eq (h : FileStep replace settings mode path fs outcome after)
    (hkept : mode = .check ∨ isModified outcome = false) : after = fs := by
  cases h with
  | replaced _ _ _ hmode => simp [hmode, isModified] at hkept
  | _ => rfl

/-- No call is left. A text with its calls replaced has none, so replacing them once more changes
nothing. A sanitised text has none either, whatever the declaration to insert is, and differs from
the text that it was made of if that one had a call. So no file is found unchanged by sanitising. -/
theorem no_call_left :
    (∀ t : Text, Call.occursIn (Call.replaceAll t) = false ∧
      Call.replaceAll (Call.replaceAll t) = Call.replaceAll t) ∧
    (∀ (ε : Type) (moduleName t : Text) (declaration : Except ε Text) (s : Sanitized),
      sanitize moduleName t declaration = .ok s →
        Call.occursIn s.text = false ∧ (Call.occursIn t = true → s.text ≠ t)) ∧
    ∀ (replace : Replacer) (settings : Settings) (mode : RunMode) (path : Path) (fs : FileSystem),
      (file replace settings mode path fs).outcome ≠ .unchanged := by
  refine ⟨fun t => ?_, fun ε moduleName t declaration s h => ?_, ?_⟩
  · have hpieces := Call.pieces_replaceAll t
    exact ⟨Call.occursIn_eq_false_of_pieces hpieces, Call.replaceAll_eq_self_of_pieces hpieces⟩
  · exact ⟨occursIn_of_sanitize h, ne_of_sanitize h⟩
  · intro replace settings mode path fs hunchanged
    have hstep := file_step replace settings mode path fs
    rw [hunchanged] at hstep
    cases hstep

/-- A declaration that itself calls a console method leaves no call either. -/
theorem no_call_left_of_calling_declaration :
    sanitize "utils".toList "import a from 'a';\nconsole.log(a);".toList
        (.ok "console . warn (console.error('utils'));".toList : Except Empty Text) =
      .ok ⟨"import a from 'a';\nsafeWarn (safeError('utils'));\nsafeLog(a);".toList, 3, .inserted⟩ ∧
    Call.occursIn "import a from 'a';\nconsole.log(a);".toList = true ∧
    Call.occursIn
      "import a from 'a';\nsafeWarn (safeError('utils'));\nsafeLog(a);".toList = false := by
  have hsanitize : sanitize "utils".toList "import a from 'a';\nconsole.log(a);".toList
      (.ok "console . warn (console.error('utils'));".toList : Except Empty Text) =
        .ok ⟨"import a from 'a';\nsafeWarn (safeError('utils'));\nsafeLog(a);".toList, 3,
          .inserted⟩ := by
    decide +kernel
  exact ⟨hsanitize, by decide +kernel, (no_call_left.2.1 Empty _ _ _ _ hsanitize).1⟩

end LogGuard.Run
