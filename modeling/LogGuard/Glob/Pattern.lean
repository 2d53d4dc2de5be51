import LogGuard.Text.Basic

/-!
# Glob patterns

A pattern is read into tokens (`Glob.parse`): `?` stands for a character, `*` for any number of
them, `[...]` for one of a set and `[!...]` for one outside it. `**` has to be a whole path
component and stands for any number of components; the separator after it belongs to it.
-/

namespace LogGuard.Glob

/-- One character or a closed range of characters inside brackets. -/
inductive Member where
  | single (c : Char)
  | range (low high : Char)
  deriving DecidableEq, Repr

/-- A unit of a pattern. -/
inductive Token where
  /-- This character. -/
  | char (c : Char)
  /-- Any one character. -/
  | anyChar
  /-- One character of a set. -/
  | within (set : List Member)
  /-- One character outside a set. -/
  | except (set : List Member)
  /-- Any characters, separators among them. -/
  | anySequence
  /-- Any number of path components with the separators after them, or all that is left. -/
  | anyComponents
  deriving DecidableEq, Repr

/-- What is wrong with a pattern. -/
inductive Fault where
  | wildcards
  | recursiveWildcards
  | invalidRange
  deriving DecidableEq, Repr

/-- What is wrong with a pattern, and after how many characters. -/
structure PatternError where
  position : Nat
  fault : Fault
  deriving DecidableEq, Repr

/-- What a user is told about a fault. -/
def Fault.message : Fault → String
  | .wildcards => "wildcards are either regular `*` or recursive `**`"
  | .recursiveWildcards => "recursive wildcards must form a single path component"
  | .invalidRange => "invalid range pattern"

/-- What a user is told. -/
def PatternError.message (e : PatternError) : String :=
  "Pattern syntax error near position " ++ e.position.repr ++ ": " ++ e.fault.message

/-- The members of a set, read from the text between the brackets. -/
def members : Text → List Member
  | low :: '-' :: high :: rest => .range low high :: members rest
  | c :: rest => .single c :: members rest
  | [] => []

/-- Divides the text after an opening bracket at the closing one. The first character belongs to the
set even if it is a bracket. -/
def splitBracket? : Text → Option (Text × Text)
  | [] => none
  | c :: rest =>
    match rest.dropWhile (· != ']') with
    | [] => none
    | _ :: after => some (c :: rest.takeWhile (· != ']'), after)

/-- The set at the front of a text that follows an opening bracket, with what stands after it. -/
def set? : Text → Option (Token × Text)
  | '!' :: rest => (splitBracket? rest).map fun (inside, after) => (.except (members inside), after)
  | rest => (splitBracket? rest).map fun (inside, after) => (.within (members inside), after)

/-- Reads two asterisks that stand after `previous` and before `after`. They have to fill a path
component. The result is the text that goes on after them and their separator. -/
def recursive (position : Nat) (previous : Option Char) (after : Text) :
    Except PatternError Text :=
  if previous == none || previous == some '/' then
    match after with
    | [] => .ok []
    | '/' :: rest => .ok rest
    | _ => .error ⟨position + 2, .recursiveWildcards⟩
  else .error ⟨position - 1, .recursiveWildcards⟩

/-- The text after a set is shorter than the text that begins with it. -/
theorem length_lt_of_set? {t rest : Text} {token : Token} (h : set? t = some (token, rest)) :
    rest.length < t.length := by
  have key : ∀ {t inside after : Text}, splitBracket? t = some (inside, after) →
      after.length < t.length := by
    intro t inside after h
    cases t with
    | nil => simp [splitBracket?] at h
    | cons c t =>
      simp only [splitBracket?] at h
      split at h
      · simp at h
      · rename_i d r hd
        have hle := (List.dropWhile_suffix (l := t) (· != ']')).length_le
        rw [hd] at hle
        simp only [Option.some.injEq, Prod.mk.injEq] at h
        rw [← h.2]
        simp only [List.length_cons] at hle ⊢
        omega
  unfold set? at h
  split at h
  · simp only [Option.map_eq_some_iff, Prod.mk.injEq, Prod.exists] at h
    obtain ⟨inside, after, h, -, rfl⟩ := h
    have := key h
    simp only [List.length_cons]
    omega
  · simp only [Option.map_eq_some_iff, Prod.mk.injEq, Prod.exists] at h
    obtain ⟨inside, after, h, -, rfl⟩ := h
    exact key h

/-- Reading asterisks makes no text longer. -/
theorem length_le_of_recursive {position : Nat} {previous : Option Char} {after rest : Text}
    (h : recursive position previous after = .ok rest) : rest.length ≤ after.length := by
  unfold recursive at h
  split at h
  · split at h
    · simp only [Except.ok.injEq] at h
      simp [← h]
    · simp only [Except.ok.injEq] at h
      simp [← h]
    · simp at h
  · simp at h

/-- Reads the part of a pattern that begins at `position` after the character `previous`. -/
def tokens (position : Nat) (previous : Option Char) (t : Text) :
    Except PatternError (List Token) :=
  match t with
  | [] => .ok []
  | '?' :: rest => (tokens (position + 1) (some '?') rest).map (.anyChar :: ·)
  | '*' :: '*' :: '*' :: _ => .error ⟨position + 2, .wildcards⟩
  | '*' :: '*' :: after =>
    match _h : recursive position previous after with
    | .error e => .error e
    | .ok rest =>
      let position := position + 2 + (after.length - rest.length)
      let previous := if rest.length < after.length then '/' else '*'
      (tokens position (some previous) rest).map (.anyComponents :: ·)
  | '*' :: rest => (tokens (position + 1) (some '*') rest).map (.anySequence :: ·)
  | '[' :: inside =>
    match _h : set? inside with
    | none => .error ⟨position, .invalidRange⟩
    | some (token, rest) =>
      (tokens (position + 1 + (inside.length - rest.length)) (some ']') rest).map (token :: ·)
  | c :: rest => (tokens (position + 1) (some c) rest).map (.char c :: ·)
  termination_by t.length
  decreasing_by
  · simp
  · have := length_le_of_recursive _h
    simp only [List.length_cons]
    omega
  · simp
  · have := length_lt_of_set? _h
    simp only [List.length_cons]
    omega
  · simp

/-- Reads a pattern. -/
def parse (pattern : Text) : Except PatternError (List Token) :=
  tokens 0 none pattern

end LogGuard.Glob
