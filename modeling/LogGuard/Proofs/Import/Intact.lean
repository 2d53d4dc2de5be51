import LogGuard.Proofs.Import.Declaration
import LogGuard.Proofs.Import.Insertion
import LogGuard.Proofs.Settings.ModuleName

/-!
# Whether an import stays as it was written

The import of the safe functions has the name of the safety module between quotes as it was given.
The recogniser of import declarations reads the import to its end exactly if the module is
`Quotable` (`declaration?_declarationText`). The import has the calls that the module has after a
separator (`occursIn_declarationText`), at any depth below the root. They are replaced with those of
the text into which it is inserted, so that it is kept there exactly if there are none
(`declaration_intact_iff`).
-/

namespace LogGuard.Import

open Call

variable {t rest written : Text}

/-- What stands between the word `import` and the specifier of the import. -/
def clause : Text :=
  " \x7b ".toList ++ safeNames ++ " \x7d from ".toList

/-! ## Recognising the import -/

/-- After a terminator that ends a text there is no quote. -/
theorem quote_notMem_of_dropTerminator (h : dropTerminator t = []) : '\'' ∉ t := by
  have hblank : '\'' ∉ t.takeWhile isBlank := fun hmem => by
    have := List.mem_takeWhile_imp hmem
    contradiction
  rw [← List.takeWhile_append_dropWhile (p := isBlank) (l := t), List.mem_append, not_or]
  refine ⟨hblank, ?_⟩
  unfold dropTerminator at h
  split at h
  · rename_i hdrop
    rw [hdrop, h]
    decide
  · rw [h]
    exact List.not_mem_nil

/-- The import is recognised if its specifier is. -/
theorem declaration?_eq_specifier? (written : Text) :
    declaration? (declarationText written) =
      (specifier? ('\'' :: written ++ "';".toList)).map dropTerminator := by
  have hword : declarationText written =
      "import".toList ++ (clause ++ '\'' :: (written ++ "';".toList)) := by
    unfold declarationText clause
    generalize safeNames = names
    simp
  have hall : ∀ c ∈ clause, (!endsClause c) = true := List.all_eq_true.mp (by decide)
  have htake (t : Text) : (clause ++ '\'' :: t).takeWhile (fun c => !endsClause c) = clause := by
    rw [List.takeWhile_append_of_pos hall]
    simp [endsClause, isQuote]
  have hdrop (t : Text) : (clause ++ '\'' :: t).dropWhile (fun c => !endsClause c) =
      '\'' :: t := by
    rw [List.dropWhile_append_of_pos hall]
    simp [endsClause, isQuote]
  have hstart (t : Text) : startsInWord (clause ++ t) = false := by
    show Unicode.isWord ' ' = false
    decide
  have hclause : isClause clause = true := by decide
  unfold declaration?
  rw [hword, isPrefixOf?_append, Option.bind_eq_bind, Option.bind_some, hstart]
  dsimp only
  rw [htake, hdrop, hclause, List.cons_append]
  cases specifier? ('\'' :: (written ++ "';".toList)) <;> rfl

/-- The recogniser reads the whole import exactly if the specifier can stand between quotes. -/
theorem declaration?_declarationText (hne : written ≠ []) :
    declaration? (declarationText written) = some [] ↔ Quotable written := by
  rw [declaration?_eq_specifier?, Option.map_eq_some_iff]
  constructor
  · rintro ⟨rest, hspecifier, hrest⟩
    obtain ⟨opening, inside, closing, htext, -, -, hinside, -⟩ :=
      specifier?_eq_some_iff.mp hspecifier
    have hnone := quote_notMem_of_dropTerminator hrest
    rw [List.cons_append, List.cons_append, List.cons.injEq] at htext
    -- The quote that closes the specifier is the one that was put after it.
    rcases List.append_eq_append_iff.mp htext.2 with ⟨w, rfl, hw⟩ | ⟨w, rfl, hw⟩
    · exact fun c hc => hinside c (List.mem_append_left w hc)
    · cases w with
      | nil => simpa using hinside
      | cons d w =>
        rw [List.cons_append, List.cons.injEq] at hw
        exact absurd (hw.2 ▸ List.mem_append_right w (by simp)) hnone
  · intro hquotable
    exact ⟨[';'], specifier?_eq_some_iff.mpr
      ⟨'\'', written, '\'', rfl, by decide, hne, hquotable, by decide⟩, by decide⟩

/-! ## The calls of the import -/

/-- Plain characters are no calls. -/
theorem any_isCall_map_plain (w : Text) : (w.map Piece.plain).any Piece.isCall = false := by
  simp [Piece.isCall]

/-- A specifier ends with a dot, a separator and the module, after more dots and separators. -/
theorem exists_specifier (depth : Nat) (module : Text) :
    ∃ climb, specifier depth module = climb ++ "./".toList ++ module ∧
      ∀ c ∈ climb, c = '.' ∨ c = '/' := by
  cases depth with
  | zero => exact ⟨[], rfl, by simp⟩
  | succ n =>
    refine ⟨(List.replicate n "../".toList).flatten ++ ['.'], ?_, ?_⟩
    · rw [specifier, if_neg (Nat.succ_ne_zero n), List.replicate_succ', List.flatten_append]
      simp
    · intro c hc
      rw [List.mem_append, List.mem_flatten] at hc
      rcases hc with ⟨up, hup, hc⟩ | hc
      · rw [List.eq_of_mem_replicate hup] at hc
        simpa [or_comm] using hc
      · exact .inl (List.mem_singleton.mp hc)

/-- A specifier can stand between quotes if its module can. -/
theorem quotable_specifier (depth : Nat) (module : Text) :
    Quotable (specifier depth module) ↔ Quotable module := by
  obtain ⟨climb, hspecifier, hclimb⟩ := exists_specifier depth module
  have hfront : ∀ c ∈ climb ++ "./".toList, isQuote c = false ∧ c ≠ '\n' := by
    intro c hc
    have hcases : c = '.' ∨ c = '/' := by
      rcases List.mem_append.mp hc with hc | hc
      · exact hclimb c hc
      · simpa using hc
    rcases hcases with rfl | rfl <;> decide
  rw [hspecifier, Quotable, List.forall_mem_append]
  exact and_iff_right hfront

/-- The import has the calls that its specifier has after a quote. -/
theorem exists_occursIn_declarationText (written : Text) :
    ∃ before, occursIn (declarationText written) =
      (piecesFrom before written).any Piece.isCall := by
  obtain ⟨front, hfront, hline⟩ : ∃ front, '(' ∉ front ∧
      declarationText written = (front ++ ['\'']) ++ (written ++ ([] ++ '\'' :: [';'])) := by
    refine ⟨"import".toList ++ clause, by decide, ?_⟩
    unfold declarationText clause
    generalize safeNames = names
    simp
  have hbefore := not_straddles_concat (c := '\'') (by decide) [] front
    (written ++ ([] ++ '\'' :: [';']))
  have hafter := not_straddles_append (w := []) (by simp) (c := '\'') (by decide)
    ((front ++ ['\'']).reverse ++ []) written [';']
  have hstart : piecesFrom [] (front ++ ['\'']) = (front ++ ['\'']).map .plain :=
    piecesFrom_of_notMem (fun h => h.mem.1) (by simp [hfront]) _
  have hend (before : Text) : piecesFrom before ([] ++ '\'' :: [';']) = "';".toList.map .plain :=
    piecesFrom_of_notMem (fun h => h.mem.1) (by decide) before
  refine ⟨(front ++ ['\'']).reverse ++ [], ?_⟩
  rw [occursIn, pieces, hline, piecesFrom_append_cut hbefore, piecesFrom_append_cut hafter, hstart,
    hend, List.any_append, List.any_append, any_isCall_map_plain, any_isCall_map_plain,
    Bool.false_or, Bool.or_false]

/-- At any depth the import has the calls that the module has after a dot and a separator. -/
theorem occursIn_declarationText (depth : Nat) (module : Text) :
    occursIn (declarationText (specifier depth module)) =
      occursIn ("./".toList ++ module) := by
  obtain ⟨before, hline⟩ := exists_occursIn_declarationText (specifier depth module)
  obtain ⟨climb, hspecifier, hclimb⟩ := exists_specifier depth module
  -- What stands before the separator is hidden by it and the dot.
  have hmodule (before : Text) : piecesFrom ('/' :: '.' :: before) module =
      piecesFrom ['/', '.'] module :=
    piecesFrom_congr (sameView_cons_cons (by decide) (by decide) before []) module
  have hnone : 'c' ∉ climb := fun hc => by
    have := hclimb 'c' hc
    contradiction
  have hclimbed : piecesFrom before (specifier depth module) =
      climb.map .plain ++ ("./".toList.map .plain ++ piecesFrom ['/', '.'] module) := by
    rw [hspecifier, List.append_assoc, piecesFrom_append hnone,
      piecesFrom_append (w := "./".toList) (by decide)]
    exact congrArg _ (congrArg _ (hmodule _))
  have hdirect : pieces ("./".toList ++ module) =
      "./".toList.map .plain ++ piecesFrom ['/', '.'] module :=
    piecesFrom_append (by decide) [] module
  rw [hline, hclimbed, occursIn, hdirect, List.any_append, any_isCall_map_plain, Bool.false_or]

end LogGuard.Import

namespace LogGuard

open Import (Quotable specifier declarationText)

/-- A text in which the line stands on its own and that has no call shows that the line has none. -/
theorem occursIn_of_between {line front back out : Text} (hline : Enclosed line)
    (h : LineBetween line front back out) (hout : Call.occursIn out = false) :
    Call.occursIn line = false := by
  obtain ⟨newline, -, hpieces⟩ := pieces_between hline h
  rw [Call.occursIn, hpieces] at hout
  simp only [List.any_append, Bool.or_eq_false_iff] at hout
  exact hout.1.2

/-- For any module and at any depth below the root, the import of the safe functions is recognised
as a whole exactly if the module has neither a quote nor a line feed. It has no call exactly if the
module has none after a dot and a separator. Where it is inserted it is kept as it is exactly if it
has no call. -/
theorem declaration_intact_iff (depth : Nat) (module : Text) :
    let line := declarationText (specifier depth module)
    (Import.declaration? line = some [] ↔ Quotable module) ∧
      (Call.occursIn line = false ↔ Call.occursIn ("./".toList ++ module) = false) ∧
      ∀ (ε : Type) (moduleName t : Text) (s : Sanitized),
        sanitize moduleName t (.ok line : Except ε Text) = .ok s → s.status = .inserted →
          ((∃ front back, LineBetween line front back s.text) ↔ Call.occursIn line = false) := by
  intro line
  have henclosed : Enclosed line := enclosed_declarationText _
  have hne : specifier depth module ≠ [] := by
    obtain ⟨climb, hspecifier, -⟩ := Import.exists_specifier depth module
    simp [hspecifier]
  refine ⟨(Import.declaration?_declarationText hne).trans (Import.quotable_specifier depth module),
    by rw [Import.occursIn_declarationText], fun ε moduleName t s h hinserted => ⟨?_, ?_⟩⟩
  · rintro ⟨front, back, hbetween⟩
    exact occursIn_of_between henclosed hbetween (occursIn_of_sanitize h)
  · intro hnone
    rcases sanitize_eq_ok_iff.mp h with
      ⟨-, rfl⟩ | ⟨-, _, hdeclaration, ⟨extended, hinsert, rfl⟩ | ⟨-, rfl⟩⟩
    · contradiction
    · obtain rfl := Except.ok.inj hdeclaration
      obtain ⟨-, -, front, back, -, rfl, hbetween, -⟩ := insert?_between hinsert
      have hkept := replaceAll_enclosed henclosed hbetween
      rw [Call.replaceAll_eq_self hnone] at hkept
      exact ⟨_, _, hkept⟩
    · contradiction

/-- A module that spells a call is kept right after the dot and the separator, where no call begins.
-/
theorem declaration_intact_iff_of_leading_call :
    let line := declarationText (specifier 1 "console.log(1)".toList)
    let t := "import a from 'a';\nconsole.warn(a);".toList
    Import.declaration? line = some [] ∧ Call.occursIn line = false ∧
      ∃ s, sanitize "log(1)".toList t (.ok line : Except Empty Text) = .ok s ∧
        s.status = .inserted ∧ s.calls = 1 ∧ ∃ front back, LineBetween line front back s.text := by
  intro line t
  obtain ⟨hrecognised, hcalls, hkept⟩ := declaration_intact_iff 1 "console.log(1)".toList
  have hquotable : Quotable "console.log(1)".toList := by decide
  have hnone : Call.occursIn line = false := hcalls.mpr (by decide +kernel)
  have hsanitize : sanitize "log(1)".toList t (.ok line : Except Empty Text) =
      .ok ⟨"import a from 'a';\n".toList ++ line ++ "\nsafeWarn(a);".toList, 1, .inserted⟩ := by
    decide +kernel
  exact ⟨hrecognised.mpr hquotable, hnone, _, hsanitize, rfl, rfl,
    (hkept Empty _ t _ hsanitize rfl).mpr hnone⟩

/-- Two accepted modules whose import is not what it should be. The call in the first one is
replaced in the import, so that the import leads elsewhere. The quote in the second one ends the
specifier early. -/
theorem declaration_not_intact :
    (∃ s, (Settings.load (Settings.configured
          "[safe_log_fixer]\nsafety_module = 'utils/console.log(1)'") none).1 = .ok s ∧
      sanitize s.moduleName "import a from 'a';\nconsole.warn(a);".toList
          (.ok (declarationText (specifier 1 s.safetyModule)) : Except Empty Text) =
        .ok ⟨"import a from 'a';\n".toList ++
          declarationText "../utils/safeLog(1)".toList ++ "\nsafeWarn(a);".toList,
          2, .inserted⟩) ∧
    ∃ s, (Settings.load (Settings.configured
          "[safe_log_fixer]\nsafety_module = \"it's/log\"") none).1 = .ok s ∧
      Import.declaration? (declarationText (specifier 1 s.safetyModule)) =
        some "s/log';".toList := by
  refine ⟨⟨⟨Settings.path Settings.defaultRoot, Settings.defaultDirs.map Settings.path,
    Settings.defaultExtensions, "utils/console.log(1)".toList, []⟩, ?_⟩,
    ⟨Settings.path Settings.defaultRoot, Settings.defaultDirs.map Settings.path,
      Settings.defaultExtensions, "it's/log".toList, []⟩, ?_⟩
  · decide +kernel
  · decide +kernel

end LogGuard
