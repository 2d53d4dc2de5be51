import LogGuard.Glob.Pattern
import LogGuard.Path.Basic

/-!
# Matching paths with patterns

A pattern matches a path if its tokens match the text of the path from beginning to end
(`Glob.matchesText`). No token but `**` cares for separators, and a path that is not UTF-8 is
matched by none. A `**` covers whole components or all that is left.

A search that follows `matchesText` tries the ends of the text anew for every `*`, so that its time
grows exponentially with their number. `Glob.verdicts` settles one token after the other for all
ends of the text at once and takes time in the product of the two lengths; `verdicts_eq` says it is
exact, and `matchesPath_eq` that paths are matched as `matchesText` says.
-/

namespace LogGuard.Glob

/-- Whether a set member covers a character. -/
def Member.covers (c : Char) : Member → Bool
  | .single d => c == d
  | .range low high => decide (low ≤ c) && decide (c ≤ high)

/-- Whether a token that stands for one character stands for `c`. -/
def Token.accepts (c : Char) : Token → Bool
  | .char d => c == d
  | .anyChar => true
  | .within set => set.any (Member.covers c)
  | .except set => !set.any (Member.covers c)
  | .anySequence => false
  | .anyComponents => false

/-- All ends of a text, from the whole text to the empty one. -/
def suffixes : Text → List Text
  | [] => [[]]
  | c :: rest => (c :: rest) :: suffixes rest

/-- The ends of a text that follow a separator, and the empty one. -/
def componentSuffixes : Text → List Text
  | [] => [[]]
  | c :: rest => if c == '/' then rest :: componentSuffixes rest else componentSuffixes rest

/-- Whether the tokens match the text from beginning to end. -/
def matchesText : List Token → Text → Bool
  | [], t => t.isEmpty
  | .anySequence :: rest, t => (suffixes t).any (matchesText rest)
  | .anyComponents :: rest, t => (t :: componentSuffixes t).any (matchesText rest)
  | token :: rest, c :: t => token.accepts c && matchesText rest t
  | _ :: _, [] => false

/-! ## All ends at once

A list of verdicts belongs to a text: it has one for each of the `suffixes`, in their order. -/

/-- For each verdict, whether it or a later one is positive. -/
def orLater : List Bool → List Bool
  | [] => []
  | verdict :: rest =>
    let later := orLater rest
    (verdict || later.headD false) :: later

/-- For each end of a text, whether the verdict on one of its `componentSuffixes` is positive. -/
def orComponents : Text → List Bool → List Bool
  | c :: t, _ :: rest =>
    let later := orComponents t rest
    (c == '/' && rest.headD false || later.headD false) :: later
  | _, verdicts => verdicts

/-- For each end of a text, whether its first character is accepted and the verdict on what follows
is positive. -/
def afterFirst (accepts : Char → Bool) : Text → List Bool → List Bool
  | c :: t, _ :: rest => (accepts c && rest.headD false) :: afterFirst accepts t rest
  | _, _ => [false]

/-- The verdicts with a token in front of the tokens to which the given ones belong. -/
def Token.extend (token : Token) (t : Text) (verdicts : List Bool) : List Bool :=
  match token with
  | .anySequence => orLater verdicts
  | .anyComponents => List.zipWith or verdicts (orComponents t verdicts)
  | token => afterFirst token.accepts t verdicts

/-- For each end of a text, whether the tokens match it. -/
def verdicts (tokens : List Token) (t : Text) : List Bool :=
  tokens.foldr (fun token below => token.extend t below) ((suffixes t).map List.isEmpty)

/-- Whether the tokens match a path. -/
def matchesPath (tokens : List Token) (p : Path) : Bool :=
  match p.toString? with
  | some s => (verdicts tokens s.toList).headD false
  | none => false

/-- The first of the values for all ends is the one for the whole text. -/
theorem headD_map_suffixes (f : Text → Bool) (t : Text) :
    ((suffixes t).map f).headD false = f t := by
  cases t <;> rfl

/-- Collecting later verdicts asks for an end of the end. -/
theorem orLater_map_suffixes (f : Text → Bool) (t : Text) :
    orLater ((suffixes t).map f) = (suffixes t).map fun s => (suffixes s).any f := by
  induction t with
  | nil => simp [suffixes, orLater]
  | cons c t ih =>
    simp only [suffixes, List.map_cons, orLater, ih, headD_map_suffixes, List.any_cons]

/-- Collecting verdicts after separators asks for an end that follows one. -/
theorem orComponents_map_suffixes (f : Text → Bool) (t : Text) :
    orComponents t ((suffixes t).map f) =
      (suffixes t).map fun s => (componentSuffixes s).any f := by
  induction t with
  | nil => simp [suffixes, orComponents, componentSuffixes]
  | cons c t ih =>
    simp only [suffixes, List.map_cons, orComponents, ih, headD_map_suffixes, componentSuffixes]
    by_cases h : c == '/' <;> simp [h]

/-- A token for one character leaves the verdict to what follows the character. -/
theorem afterFirst_map_suffixes (accepts : Char → Bool) (f : Text → Bool) (t : Text) :
    afterFirst accepts t ((suffixes t).map f) =
      (suffixes t).map fun
        | [] => false
        | c :: s => accepts c && f s := by
  induction t with
  | nil => simp [suffixes, afterFirst]
  | cons c t ih => simp only [suffixes, List.map_cons, afterFirst, ih, headD_map_suffixes]

/-- A token in front of the tokens turns the verdicts into those with it. -/
theorem extend_map_suffixes (token : Token) (rest : List Token) (t : Text) :
    token.extend t ((suffixes t).map (matchesText rest)) =
      (suffixes t).map (matchesText (token :: rest)) := by
  have single : afterFirst token.accepts t ((suffixes t).map (matchesText rest)) =
      (suffixes t).map fun
        | [] => false
        | c :: s => token.accepts c && matchesText rest s :=
    afterFirst_map_suffixes token.accepts (matchesText rest) t
  cases token with
  | anySequence =>
    simp only [Token.extend, orLater_map_suffixes]
    exact List.map_congr_left fun s _ => by simp [matchesText]
  | anyComponents =>
    simp only [Token.extend, orComponents_map_suffixes, List.zipWith_map, List.zipWith_self]
    exact List.map_congr_left fun s _ => by simp [matchesText]
  | _ =>
    simp only [Token.extend, single]
    exact List.map_congr_left fun s _ => by cases s <;> simp [matchesText]

/-- The verdicts are those of `matchesText` on all ends of the text. -/
theorem verdicts_eq (tokens : List Token) (t : Text) :
    verdicts tokens t = (suffixes t).map (matchesText tokens) := by
  induction tokens with
  | nil => exact List.map_congr_left fun s _ => by simp [matchesText]
  | cons token rest ih =>
    rw [← extend_map_suffixes, ← ih]
    rfl

/-- The first verdict is the one on the whole text. -/
theorem headD_verdicts (tokens : List Token) (t : Text) :
    (verdicts tokens t).headD false = matchesText tokens t := by
  rw [verdicts_eq, headD_map_suffixes]

/-- A path is matched if its text is. -/
theorem matchesPath_eq (tokens : List Token) (p : Path) :
    matchesPath tokens p = p.toString?.any fun s => matchesText tokens s.toList := by
  unfold matchesPath
  cases p.toString? with
  | none => rfl
  | some s => exact headD_verdicts tokens s.toList

end LogGuard.Glob
