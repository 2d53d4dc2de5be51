import LogGuard.Call.Site
import Mathlib.Data.List.TakeWhile

/-!
# The shape of a call

`Match.Spells` says which texts begin with a call, without the search for it: the word `console`, a
dot, the name of a method and a parenthesis, with white space in between. `match?_eq_some_iff` shows
that the recogniser finds exactly these. What a scan needs of a call follows from its shape: it
begins with the only `c` that it has (`Match.Spells.head`), it ends with its only parenthesis
(`Match.Spells.paren_notMem_token`), it consists of few characters (`Match.Spells.isCallChar`), and
it is found whatever comes after it (`match?_append`).
-/

namespace LogGuard.Call

open Unicode

/-- White space and nothing else. -/
def Blank (w : Text) : Prop :=
  ∀ c ∈ w, isWhiteSpace c = true

/-- The text `t` begins with a call, and `m` divides it into the parts of that call. -/
structure Match.Spells (m : Match) (t : Text) : Prop where
  /-- The token is the object and the method with a dot between them. -/
  token : ∃ w₁ w₂, Blank w₁ ∧ Blank w₂ ∧
    m.token = "console".toList ++ w₁ ++ '.' :: w₂ ++ m.method.name
  /-- The opening is white space and the parenthesis. -/
  opening : ∃ w, Blank w ∧ m.opening = w ++ ['(']
  /-- The parts make up the text. -/
  text : t = m.token ++ m.opening ++ m.rest

/-- The white space at the front of a text is blank. -/
theorem blank_takeWhile (t : Text) : Blank (t.takeWhile isWhiteSpace) :=
  fun _ hc => List.mem_takeWhile_imp hc

/-- A character that is no white space is not in a blank text. -/
theorem Blank.notMem {w : Text} (hw : Blank w) {c : Char} (hc : isWhiteSpace c = false) : c ∉ w :=
  fun h => by simp [hw c h] at hc

/-- White space is dropped up to the first other character. -/
theorem Blank.dropWhile_append {w t : Text} (hw : Blank w)
    (ht : ∀ c ∈ t.head?, isWhiteSpace c = false) : (w ++ t).dropWhile isWhiteSpace = t := by
  rw [List.dropWhile_append_of_pos hw]
  cases t with
  | nil => rfl
  | cons c t => exact List.dropWhile_cons_of_neg (by simp [ht c rfl])

/-- White space is taken up to the first other character. -/
theorem Blank.takeWhile_append {w t : Text} (hw : Blank w)
    (ht : ∀ c ∈ t.head?, isWhiteSpace c = false) : (w ++ t).takeWhile isWhiteSpace = w := by
  rw [List.takeWhile_append_of_pos hw]
  cases t with
  | nil => exact List.append_nil w
  | cons c t => rw [List.takeWhile_cons_of_neg (by simp [ht c rfl]), List.append_nil]

/-- A word is found at the front of a text that begins with it. -/
@[simp]
theorem isPrefixOf?_append (word t : Text) : word.isPrefixOf? (word ++ t) = some t := by
  induction word with
  | nil => rfl
  | cons c word ih => simp [isPrefixOf?_cons_cons, ih]

/-- A method is found at the front of a text that begins with its name. -/
@[simp]
theorem method?_append (method : Method) (t : Text) :
    method? (method.name ++ t) = some (method, t) := by
  cases method <;> rfl

/-- No method name begins with white space. -/
theorem Method.head?_name_append (method : Method) (t : Text) :
    ∀ c ∈ (method.name ++ t).head?, isWhiteSpace c = false := by
  cases method <;> simp [Method.name] <;> decide

/-- What is recognised has the shape of a call. -/
theorem spells_of_match? {t : Text} {m : Match} (h : match? t = some m) : m.Spells t := by
  have htext := eq_append_of_match? h
  simp only [match?, Option.bind_eq_bind, Option.bind_eq_some_iff] at h
  obtain ⟨afterObject, -, afterDot, -, ⟨method, afterMethod⟩, -, rest, -, hm⟩ := h
  simp only [Option.some.injEq] at hm
  subst hm
  exact ⟨⟨_, _, blank_takeWhile _, blank_takeWhile _, rfl⟩, ⟨_, blank_takeWhile _, rfl⟩, htext⟩

/-- Whatever has the shape of a call is recognised. -/
theorem match?_of_spells {t : Text} {m : Match} (h : m.Spells t) : match? t = some m := by
  obtain ⟨⟨w₁, w₂, h₁, h₂, htoken⟩, ⟨w₃, h₃, hopening⟩, htext⟩ := h
  obtain ⟨method, token, opening, rest⟩ := m
  dsimp only at htoken hopening htext
  -- Associated to the right, each part of the call stands in front of what is read after it.
  have ht : t = "console".toList ++ (w₁ ++ (['.'] ++ (w₂ ++ (method.name ++
      (w₃ ++ (['('] ++ rest)))))) := by
    simp [htext, htoken, hopening]
  have hdot : ∀ c ∈ (['.'] ++ (w₂ ++ (method.name ++ (w₃ ++ (['('] ++ rest))))).head?,
      isWhiteSpace c = false := by simp; decide
  have hparen : ∀ c ∈ (['('] ++ rest).head?, isWhiteSpace c = false := by simp; decide
  have hname := method.head?_name_append (w₃ ++ (['('] ++ rest))
  rw [ht, match?]
  simp only [isPrefixOf?_append, method?_append, Option.bind_eq_bind, Option.bind_some,
    h₁.dropWhile_append hdot, h₁.takeWhile_append hdot, h₂.dropWhile_append hname,
    h₂.takeWhile_append hname, h₃.dropWhile_append hparen, h₃.takeWhile_append hparen]
  rw [htoken, hopening]

/-- The recogniser finds exactly the texts that have the shape of a call. -/
theorem match?_eq_some_iff {t : Text} {m : Match} : match? t = some m ↔ m.Spells t :=
  ⟨spells_of_match?, match?_of_spells⟩

/-- A call is found whatever comes after it. -/
theorem match?_append {t : Text} {m : Match} (h : match? t = some m) (after : Text) :
    match? (t ++ after) = some { m with rest := m.rest ++ after } := by
  obtain ⟨htoken, hopening, htext⟩ := spells_of_match? h
  exact match?_of_spells ⟨htoken, hopening, by simp [htext]⟩

/-! ## The characters of a call -/

/-- A character that may stand in a call up to its parenthesis. -/
def isCallChar (c : Char) : Bool :=
  isWhiteSpace c || "console.logerrorwarn(".toList.contains c

namespace Match.Spells

variable {t : Text} {m : Match}

/-- A call begins with the `c` of `console` and has no other. -/
theorem head (h : m.Spells t) :
    ∃ token, m.token = 'c' :: token ∧ 'c' ∉ token ∧ 'c' ∉ m.opening := by
  obtain ⟨⟨w₁, w₂, h₁, h₂, htoken⟩, ⟨w₃, h₃, hopening⟩, -⟩ := h
  have hc : isWhiteSpace 'c' = false := by decide
  have hname : 'c' ∉ m.method.name := by cases m.method <;> decide
  refine ⟨"onsole".toList ++ w₁ ++ '.' :: w₂ ++ m.method.name, by simp [htoken], ?_, ?_⟩
  · simp [h₁.notMem hc, h₂.notMem hc, hname]
  · simp [hopening, h₃.notMem hc]

/-- The parenthesis of a call stands at its end only. -/
theorem paren_notMem_token (h : m.Spells t) :
    '(' ∉ m.token ∧ ∃ w, m.opening = w ++ ['('] ∧ '(' ∉ w := by
  obtain ⟨⟨w₁, w₂, h₁, h₂, htoken⟩, ⟨w₃, h₃, hopening⟩, -⟩ := h
  have hc : isWhiteSpace '(' = false := by decide
  have hname : '(' ∉ m.method.name := by cases m.method <;> decide
  exact ⟨by simp [htoken, h₁.notMem hc, h₂.notMem hc, hname], w₃, hopening, h₃.notMem hc⟩

/-- A call has a parenthesis and a dot. -/
theorem mem (h : m.Spells t) : '(' ∈ t ∧ '.' ∈ t := by
  obtain ⟨⟨w₁, w₂, -, -, htoken⟩, ⟨w₃, -, hopening⟩, htext⟩ := h
  simp [htext, htoken, hopening]

/-- A call has no characters but white space and those of its words. -/
theorem isCallChar (h : m.Spells t) : ∀ c ∈ m.token ++ m.opening, Call.isCallChar c = true := by
  obtain ⟨⟨w₁, w₂, h₁, h₂, htoken⟩, ⟨w₃, h₃, hopening⟩, -⟩ := h
  have hblank {w : Text} (hw : Blank w) : ∀ c ∈ w, Call.isCallChar c = true := fun c hc => by
    simp [Call.isCallChar, hw c hc]
  have hname : ∀ c ∈ m.method.name, Call.isCallChar c = true :=
    List.all_eq_true.mp (by cases m.method <;> decide)
  have hobject : ∀ c ∈ "console".toList, Call.isCallChar c = true :=
    List.all_eq_true.mp (by decide)
  simp only [htoken, hopening, List.forall_mem_append, List.forall_mem_cons]
  exact ⟨⟨⟨⟨hobject, hblank h₁⟩, by decide, hblank h₂⟩, hname⟩, hblank h₃, by decide, by simp⟩

end Match.Spells

end LogGuard.Call
