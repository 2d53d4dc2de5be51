import LogGuard.Call.Method
import LogGuard.Unicode.Class

/-!
# The shape of a logging call

A call reads `console . method (` with any white space between its parts. `Call.match?` recognises
one at the front of a text and divides the text into the token that names the method, the opening
up to the parenthesis, and the rest. `Call.startsExpression` decides from the text before it whether
`console` there is the global object rather than the tail of a longer name or a member of another
object.
-/

namespace LogGuard.Call

open Unicode

/-- A text that begins with a call, divided into its parts. -/
structure Match where
  /-- The method that is called. -/
  method : Method
  /-- The text from `console` to the method name. -/
  token : Text
  /-- White space and the parenthesis after the token. -/
  opening : Text
  /-- What follows the parenthesis. -/
  rest : Text

/-- The method name at the front of a text, with what follows it. -/
def method? (t : Text) : Option (Method × Text) :=
  Method.all.findSome? fun method => (method.name.isPrefixOf? t).map (method, ·)

/-- Recognises a call at the front of a text. -/
def match? (t : Text) : Option Match := do
  let afterObject ← "console".toList.isPrefixOf? t
  let afterDot ← ['.'].isPrefixOf? (afterObject.dropWhile isWhiteSpace)
  let (method, afterMethod) ← method? (afterDot.dropWhile isWhiteSpace)
  let rest ← ['('].isPrefixOf? (afterMethod.dropWhile isWhiteSpace)
  let token := "console".toList ++ afterObject.takeWhile isWhiteSpace ++ '.' ::
    afterDot.takeWhile isWhiteSpace ++ method.name
  some ⟨method, token, afterMethod.takeWhile isWhiteSpace ++ ['('], rest⟩

/-- A character that belongs to an identifier. -/
def isIdentifier (c : Char) : Bool :=
  isAlphanumeric c || c == '_' || c == '$'

/-- Whether an expression may start after the text `before`, which is given last character first.
It may not right after an identifier character or a dot, nor after a dot and white space on the same
line. A dot that ends an earlier line does not count. -/
def startsExpression : Text → Bool
  | [] => true
  | c :: before =>
    if isIdentifier c || c == '.' then false
    else if Text.isLineEnd c then true
    else (before.find? fun d => Text.isLineEnd d || !isWhiteSpace d) != some '.'

/-- No word is found at the front of the empty text. -/
theorem isPrefixOf?_cons_nil (c : Char) (word : Text) : (c :: word).isPrefixOf? [] = none :=
  rfl

/-- A word is compared with the front of a text character by character. -/
theorem isPrefixOf?_cons_cons (c d : Char) (word t : Text) :
    (c :: word).isPrefixOf? (d :: t) = if c == d then word.isPrefixOf? t else none :=
  rfl

/-- Whatever is dropped from the front can be put back. -/
theorem eq_append_of_isPrefixOf? {word t rest : Text} (h : word.isPrefixOf? t = some rest) :
    t = word ++ rest := by
  induction word generalizing t with
  | nil => exact Option.some.inj h
  | cons c word ih =>
    cases t with
    | nil => simp [isPrefixOf?_cons_nil] at h
    | cons d t =>
      rw [isPrefixOf?_cons_cons] at h
      by_cases hd : c = d
      · subst hd
        rw [if_pos (by simp)] at h
        rw [ih h, List.cons_append]
      · simp [hd] at h

/-- The method found is the one that stands at the front. -/
theorem eq_append_of_method? {t rest : Text} {method : Method}
    (h : method? t = some (method, rest)) : t = method.name ++ rest := by
  obtain ⟨k, -, hk⟩ := List.exists_of_findSome?_eq_some h
  simp only [Option.map_eq_some_iff, Prod.mk.injEq] at hk
  obtain ⟨r, hr, rfl, rfl⟩ := hk
  exact eq_append_of_isPrefixOf? hr

/-- A match divides the text without loss. -/
theorem eq_append_of_match? {t : Text} {m : Match} (h : match? t = some m) :
    t = m.token ++ m.opening ++ m.rest := by
  simp only [match?, Option.bind_eq_bind, Option.bind_eq_some_iff] at h
  obtain ⟨afterObject, h1, afterDot, h2, ⟨method, afterMethod⟩, h3, rest, h4, hm⟩ := h
  simp only [Option.some.injEq] at hm
  subst hm
  have e1 := eq_append_of_isPrefixOf? h1
  have e2 := eq_append_of_isPrefixOf? h2
  have e3 := eq_append_of_method? h3
  have e4 := eq_append_of_isPrefixOf? h4
  have s1 := (List.takeWhile_append_dropWhile (p := isWhiteSpace) (l := afterObject)).symm
  have s2 := (List.takeWhile_append_dropWhile (p := isWhiteSpace) (l := afterDot)).symm
  have s3 := (List.takeWhile_append_dropWhile (p := isWhiteSpace) (l := afterMethod)).symm
  rw [e2] at s1
  rw [e3] at s2
  rw [e4] at s3
  rw [e1]
  conv => lhs; rw [s1, s2, s3]
  simp

/-- The text after a call is shorter than the text that begins with it. -/
theorem length_rest_lt {t : Text} {m : Match} (h : match? t = some m) :
    m.rest.length < t.length := by
  have e := eq_append_of_match? h
  simp only [match?, Option.bind_eq_bind, Option.bind_eq_some_iff] at h
  obtain ⟨_, -, _, -, _, -, _, -, hm⟩ := h
  simp only [Option.some.injEq] at hm
  rw [e, ← hm]
  simp only [List.length_append, List.length_cons]
  omega

end LogGuard.Call
