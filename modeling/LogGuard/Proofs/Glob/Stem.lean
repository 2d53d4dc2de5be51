import LogGuard.Glob.Match
import LogGuard.Proofs.Path.Utf8

/-!
# Patterns for all that is below a directory

A pattern that spells a directory without special characters and goes on with `/**` has a token for
each character of the directory (`parse_stem`). It matches the texts that begin with the directory
and a separator, and a path only if it is UTF-8 and spelled so (`matchesPath_stem`).
-/

namespace LogGuard.Glob

/-- A text without the characters that are special in patterns. -/
def Literal (t : Text) : Prop :=
  ∀ c ∈ t, c ≠ '?' ∧ c ≠ '*' ∧ c ≠ '['

instance (t : Text) : Decidable (Literal t) :=
  List.decidableBAll (fun c => c ≠ '?' ∧ c ≠ '*' ∧ c ≠ '[') t

/-- The tokens of a pattern that spells a directory and goes on with `/**`. -/
def stemTokens (directory : Text) : List Token :=
  directory.map .char ++ [.char '/', .anyComponents]

/-- A character that is not special stands for itself. -/
theorem tokens_cons {c : Char} (hc : c ≠ '?' ∧ c ≠ '*' ∧ c ≠ '[') (position : Nat)
    (previous : Option Char) (rest : Text) :
    tokens position previous (c :: rest) =
      (tokens (position + 1) (some c) rest).map (.char c :: ·) := by
  obtain ⟨hany, hsequence, hset⟩ := hc
  rw [tokens]
  · exact fun heq => hany heq
  · exact fun _ heq => absurd heq hsequence
  · exact fun _ heq => absurd heq hsequence
  · exact fun heq => hsequence heq
  · exact fun heq => hset heq

/-- What follows the directory is read as a separator and any components. -/
theorem tokens_stem (position : Nat) (previous : Option Char) {directory : Text}
    (h : Literal directory) :
    tokens position previous (directory ++ "/**".toList) = .ok (stemTokens directory) := by
  induction directory generalizing position previous with
  | nil =>
    have hend : tokens (position + 1) (some '/') ['*', '*'] = .ok [.anyComponents] := by
      rw [tokens]
      · simp [recursive, tokens]
        rfl
      · simp
    have hslash : tokens position previous ('/' :: ['*', '*']) =
        (tokens (position + 1) (some '/') ['*', '*']).map (.char '/' :: ·) :=
      tokens_cons (by decide) ..
    rw [hend] at hslash
    exact hslash
  | cons c rest ih =>
    rw [List.cons_append, tokens_cons (h c List.mem_cons_self),
      ih _ _ fun d hd => h d (List.mem_cons_of_mem _ hd)]
    rfl

/-- The pattern is read as the tokens for its directory. -/
theorem parse_stem {directory : Text} (h : Literal directory) :
    parse (directory ++ "/**".toList) = .ok (stemTokens directory) :=
  tokens_stem 0 none h

/-- The empty end of a text can follow its last component. -/
theorem nil_mem_componentSuffixes (t : Text) : [] ∈ componentSuffixes t := by
  induction t with
  | nil => exact List.mem_singleton_self _
  | cons c rest ih =>
    rw [componentSuffixes]
    split
    · exact List.mem_cons_of_mem _ ih
    · exact ih

/-- Any components match all that is left. -/
theorem matchesText_anyComponents (t : Text) : matchesText [.anyComponents] t = true := by
  rw [matchesText, List.any_cons, Bool.or_eq_true, List.any_eq_true]
  exact .inr ⟨[], nil_mem_componentSuffixes t, rfl⟩

/-- The texts that are matched go on after the directory with a separator. -/
theorem matchesText_stem {directory t : Text} :
    matchesText (stemTokens directory) t = true ↔ ∃ rest, t = directory ++ '/' :: rest := by
  induction directory generalizing t with
  | nil =>
    cases t with
    | nil => simp [stemTokens, matchesText]
    | cons c t =>
      have hstep : matchesText (stemTokens []) (c :: t) =
          (c == '/' && matchesText [.anyComponents] t) := rfl
      rw [hstep, matchesText_anyComponents]
      simp
  | cons d directory ih =>
    cases t with
    | nil => simp [stemTokens, matchesText]
    | cons c t =>
      have hstep : matchesText (stemTokens (d :: directory)) (c :: t) =
          (c == d && matchesText (stemTokens directory) t) := rfl
      rw [hstep, Bool.and_eq_true, beq_iff_eq, ih]
      constructor
      · rintro ⟨rfl, rest, rfl⟩
        exact ⟨rest, rfl⟩
      · rintro ⟨rest, heq⟩
        obtain ⟨rfl, rfl⟩ := List.cons.inj heq
        exact ⟨rfl, rest, rfl⟩

/-- A path is the UTF-8 of a text that spells the directory and goes on with a separator. -/
def SpelledBelow (directory : Text) (p : Path) : Prop :=
  ∃ rest, p = Settings.path (directory ++ '/' :: rest)

/-- The paths that are matched are spelled so. -/
theorem matchesPath_stem {directory : Text} {p : Path} :
    matchesPath (stemTokens directory) p = true ↔ SpelledBelow directory p := by
  obtain ⟨bytes⟩ := p
  rw [matchesPath_eq, Option.any_eq_true]
  constructor
  · rintro ⟨s, hs, hmatch⟩
    obtain ⟨rest, hrest⟩ := matchesText_stem.mp hmatch
    refine ⟨rest, ?_⟩
    rw [← hrest, Settings.toString?_eq_some.mp hs]
  · rintro ⟨rest, heq⟩
    refine ⟨String.ofList (directory ++ '/' :: rest), ?_, ?_⟩
    · exact Settings.toString?_eq_some.mpr (by rw [String.toList_ofList, ← heq])
    · rw [String.toList_ofList]
      exact matchesText_stem.mpr ⟨rest, rfl⟩

end LogGuard.Glob
