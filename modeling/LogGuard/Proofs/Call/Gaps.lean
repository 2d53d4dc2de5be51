import LogGuard.Proofs.Call.Replacement
import Mathlib.Data.List.Infix

/-!
# What replacing keeps

The tokens of the calls that are to be replaced leave gaps in a text (`Layout`). Replacing puts the
safe names in the places of the tokens and keeps the gaps (`exists_layout`). Calls of safe functions
are counted by the places at which one begins (`safeCallCount`). None is lost by replacing: none
begins in a token, and one that begins in a gap has no call in it that could be replaced. None comes
about but at the tokens: its name is a whole safe name that was put there, since a text without a
second `s` is kept text (`safeCallCount_replaceFrom`). `gaps_kept` says both of whole texts.
-/

namespace LogGuard.Call

open Unicode
open Text (byteLength byteLength_cons)

/-! ## Gaps and tokens -/

/-- A text that begins at the byte `offset` consists of gaps with one token between each two of
them. The tokens take the bytes of the sites. -/
inductive Layout : Nat → List Site → List Text → List Text → Prop
  /-- After the last token there is one more gap. -/
  | last (offset : Nat) (gap : Text) : Layout offset [] [gap] []
  /-- A site starts where the gap before it ends and stops where its token ends. -/
  | site {offset : Nat} {site : Site} {sites : List Site} {gap token : Text}
    {gaps tokens : List Text} (start : site.start = offset + byteLength gap)
    (stop : site.stop = site.start + byteLength token)
    (rest : Layout site.stop sites gaps tokens) :
    Layout offset (site :: sites) (gap :: gaps) (token :: tokens)

/-- The text in which gaps and other parts take turns. -/
def alternate : List Text → List Text → Text
  | gap :: gaps, part :: parts => gap ++ part ++ alternate gaps parts
  | gaps, [] => gaps.flatten
  | [], parts => parts.flatten

theorem alternate_cons (c : Char) (gap : Text) (gaps parts : List Text) :
    alternate ((c :: gap) :: gaps) parts = c :: alternate (gap :: gaps) parts := by
  cases parts <;> rfl

/-- A character in front of a text belongs to the first gap. -/
theorem Layout.cons {offset : Nat} {sites : List Site} {gaps tokens : List Text} {c : Char}
    (h : Layout (offset + c.utf8Size) sites gaps tokens) :
    ∃ gap rest, gaps = gap :: rest ∧ Layout offset sites ((c :: gap) :: rest) tokens := by
  cases h with
  | last _ gap => exact ⟨gap, [], rfl, .last _ _⟩
  | site start stop rest =>
    refine ⟨_, _, rfl, .site ?_ stop rest⟩
    rw [start, byteLength_cons, Nat.add_assoc]

/-- Pieces lay out the text that they stand for, and the safe names stand between the same gaps. -/
theorem exists_layout (offset : Nat) (pieces : List Piece) :
    ∃ gaps tokens, Layout offset (sitesFrom offset pieces) gaps tokens ∧
      pieces.flatMap Piece.source = alternate gaps tokens ∧
      pieces.flatMap Piece.safe =
        alternate gaps ((sitesFrom offset pieces).map fun site => site.method.safeName) := by
  induction pieces generalizing offset with
  | nil => exact ⟨[[]], [], .last offset [], rfl, rfl⟩
  | cons piece pieces ih =>
    cases piece with
    | plain c =>
      obtain ⟨gaps, tokens, hlayout, hsource, hsafe⟩ := ih (offset + c.utf8Size)
      obtain ⟨gap, rest, rfl, hlayout'⟩ := hlayout.cons
      refine ⟨_, _, hlayout', ?_, ?_⟩
      · rw [List.flatMap_cons, hsource, alternate_cons]
        rfl
      · rw [List.flatMap_cons, hsafe, sitesFrom, alternate_cons]
        rfl
    | call method token =>
      -- The gap in front of the token is empty as yet.
      obtain ⟨gaps, tokens, hlayout, hsource, hsafe⟩ := ih (offset + byteLength token)
      refine ⟨[] :: gaps, token :: tokens, .site rfl rfl hlayout, ?_, ?_⟩
      · rw [List.flatMap_cons, hsource]
        rfl
      · rw [List.flatMap_cons, hsafe]
        rfl

/-! ## Calls of safe functions -/

/-- A call of the safe function begins the text: its name, white space and a parenthesis. -/
def BeginsSafeCall (method : Method) (t : Text) : Prop :=
  ∃ w rest, Blank w ∧ t = method.safeName ++ w ++ '(' :: rest

/-- After the name the first character that is no white space decides. -/
theorem beginsSafeCall_iff {method : Method} {t : Text} :
    BeginsSafeCall method t ↔ ∃ rest ∈ method.safeName.isPrefixOf? t,
      (rest.dropWhile isWhiteSpace).head? = some '(' := by
  constructor
  · rintro ⟨w, rest, hw, rfl⟩
    have hparen : ∀ c ∈ ('(' :: rest).head?, isWhiteSpace c = false := by simp; decide
    refine ⟨w ++ '(' :: rest, ?_, ?_⟩
    · rw [List.append_assoc, isPrefixOf?_append, Option.mem_some]
    · rw [hw.dropWhile_append hparen, List.head?_cons]
  · rintro ⟨rest, hrest, hparen⟩
    obtain ⟨after, hafter⟩ := List.head?_eq_some_iff.mp hparen
    refine ⟨rest.takeWhile isWhiteSpace, after, blank_takeWhile rest, ?_⟩
    rw [List.append_assoc, ← hafter, List.takeWhile_append_dropWhile]
    exact eq_append_of_isPrefixOf? hrest

instance (method : Method) (t : Text) : Decidable (BeginsSafeCall method t) :=
  decidable_of_iff
    ((method.safeName.isPrefixOf? t).any
      (fun rest => (rest.dropWhile isWhiteSpace).head? == some '(') = true)
    (by rw [beginsSafeCall_iff]; simp [Option.any_eq_true])

/-- The number of places of the text at which a call of the safe function begins. -/
def safeCallCount (method : Method) (t : Text) : Nat :=
  t.tails.countP fun suffix => decide (BeginsSafeCall method suffix)

variable {method : Method}

theorem safeCallCount_cons (c : Char) (t : Text) :
    safeCallCount method (c :: t) =
      safeCallCount method t + if BeginsSafeCall method (c :: t) then 1 else 0 := by
  rw [safeCallCount, List.tails_cons, List.countP_cons, safeCallCount]
  simp only [decide_eq_true_eq]

/-- A safe name begins with an `s` and an `a` and has no other `s`. -/
theorem Method.exists_safeName (method : Method) :
    ∃ name, method.safeName = 's' :: 'a' :: name ∧ 's' ∉ 'a' :: name := by
  cases method
  · exact ⟨"feLog".toList, by decide⟩
  · exact ⟨"feError".toList, by decide⟩
  · exact ⟨"feWarn".toList, by decide⟩

/-- No safe name begins another one. -/
theorem Method.eq_of_prefix {called method : Method} (h : called.safeName <+: method.safeName) :
    called = method := by
  revert h
  cases called <;> cases method <;> decide

/-- A safe name, white space and a parenthesis are a call of that function and of no other. -/
theorem beginsSafeCall_safeName {w : Text} (hw : Blank w) (called : Method) (rest : Text) :
    BeginsSafeCall method (called.safeName ++ (w ++ '(' :: rest)) ↔ called = method := by
  constructor
  · rintro ⟨w', rest', -, h⟩
    have hcalled : called.safeName <+: called.safeName ++ (w ++ '(' :: rest) :=
      List.prefix_append _ _
    have hmethod : method.safeName <+: called.safeName ++ (w ++ '(' :: rest) := by
      rw [h, List.append_assoc]
      exact List.prefix_append _ _
    rcases List.prefix_or_prefix_of_prefix hcalled hmethod with hprefix | hprefix
    · exact Method.eq_of_prefix hprefix
    · exact (Method.eq_of_prefix hprefix).symm
  · rintro rfl
    exact ⟨w, rest, hw, by rw [List.append_assoc]⟩

/-- A call of a safe function begins with an `s`. -/
theorem not_beginsSafeCall {c : Char} (hc : c ≠ 's') (t : Text) :
    ¬BeginsSafeCall method (c :: t) := by
  rintro ⟨w, rest, -, h⟩
  obtain ⟨name, hname, -⟩ := method.exists_safeName
  rw [hname] at h
  exact hc (List.cons.inj h).1

/-- Where there is no `s`, no call of a safe function begins. -/
theorem safeCallCount_append {w : Text} (hw : 's' ∉ w) (t : Text) :
    safeCallCount method (w ++ t) = safeCallCount method t := by
  induction w with
  | nil => rfl
  | cons c w ih =>
    rw [List.mem_cons, not_or] at hw
    rw [List.cons_append, safeCallCount_cons, if_neg (not_beginsSafeCall (Ne.symm hw.1) _),
      ih hw.2, Nat.add_zero]

/-- No call of a safe function begins in a token. -/
theorem Match.Spells.safeCallCount_token {t : Text} {m : Match} (h : m.Spells t) (after : Text) :
    safeCallCount method (m.token ++ after) = safeCallCount method after := by
  obtain ⟨⟨w₁, w₂, h₁, h₂, htoken⟩, -, -⟩ := h
  have hs : isWhiteSpace 's' = false := by decide
  have hname : 's' ∉ m.method.name := by cases m.method <;> decide
  -- The only `s` of a token is the one in `console`, and an `o` follows it.
  have hsplit : m.token ++ after = "con".toList ++
      ('s' :: ("ole".toList ++ w₁ ++ '.' :: w₂ ++ m.method.name ++ after)) := by
    simp [htoken]
  have hnone : ¬BeginsSafeCall method
      ('s' :: ("ole".toList ++ w₁ ++ '.' :: w₂ ++ m.method.name ++ after)) := by
    rintro ⟨w, rest, -, heq⟩
    obtain ⟨name, hsafe, -⟩ := method.exists_safeName
    simp [hsafe] at heq
  rw [hsplit, safeCallCount_append (by decide), safeCallCount_cons, if_neg hnone, Nat.add_zero,
    safeCallCount_append (by simp [h₁.notMem hs, h₂.notMem hs, hname])]

/-- A letter that a name does not have is nowhere in a call of it. -/
theorem Blank.notMem_call {c : Char} {name w : Text} (hw : Blank w) (hname : c ∉ name)
    (hspace : isWhiteSpace c = false) (hparen : c ≠ '(') : c ∉ name ++ w ++ ['('] := by
  simp only [List.mem_append, List.mem_singleton, not_or]
  exact ⟨⟨hname, hw.notMem hspace⟩, hparen⟩

/-- A character that is kept begins a call of a safe function in the replaced text if it does in the
text. -/
theorem beginsSafeCall_replaceFrom {before : Text} {c : Char} {tail : Text}
    (h : ∀ m, ¬CallAt before (c :: tail) m) :
    BeginsSafeCall method (replaceFrom before (c :: tail)) ↔ BeginsSafeCall method (c :: tail) := by
  obtain ⟨name, hname, hs⟩ := method.exists_safeName
  constructor
  · rintro ⟨w, rest, hw, heq⟩
    rw [replaceFrom_plain h, hname] at heq
    obtain ⟨rfl, htail⟩ := List.cons.inj heq
    -- Up to its parenthesis the call has no `s` but its first letter, so all of it is kept text.
    have hkept : 's' ∉ 'a' :: name ++ w ++ ['('] := hw.notMem_call hs (by decide) (by decide)
    have hout : replaceFrom ('s' :: before) tail = 'a' :: name ++ w ++ ['('] ++ rest := by
      simpa using htail
    obtain ⟨rest', rfl, -⟩ := replaceFrom_eq_append hkept hout
    exact ⟨w, rest', hw, by simp [hname]⟩
  · rintro ⟨w, rest, hw, heq⟩
    have hc : 'c' ∉ method.safeName ++ w ++ ['('] :=
      hw.notMem_call method.c_notMem_safeName (by decide) (by decide)
    have hsplit : method.safeName ++ w ++ '(' :: rest = method.safeName ++ w ++ ['('] ++ rest := by
      simp
    rw [heq, hsplit, replaceFrom_append hc]
    exact ⟨w, _, hw, List.append_assoc _ _ _⟩

/-- A replaced text has the calls of safe functions that the text has, and one more for each call
that was replaced. -/
theorem safeCallCount_replaceFrom (method : Method) (offset : Nat) (before t : Text) :
    safeCallCount method (replaceFrom before t) =
      safeCallCount method t +
        ((sitesFrom offset (piecesFrom before t)).map Site.method).count method := by
  induction before, t using scan_induction generalizing offset with
  | nil before =>
    rw [replaceFrom_nil, piecesFrom]
    rfl
  | plain before c tail hplain ih =>
    have hbegins : BeginsSafeCall method (replaceFrom before (c :: tail)) ↔
        BeginsSafeCall method (c :: tail) := beginsSafeCall_replaceFrom hplain
    rw [replaceFrom_plain hplain] at hbegins ⊢
    rw [safeCallCount_cons, safeCallCount_cons, if_congr hbegins rfl rfl, piecesFrom_plain hplain,
      sitesFrom, ih (offset + c.utf8Size), Nat.add_right_comm]
  | call before t m hcall ih =>
    have hspells := spells_of_match? hcall.1
    have htext : t = m.token ++ (m.opening ++ m.rest) := by simpa using hspells.text
    obtain ⟨w, hw, hopening⟩ := hspells.opening
    obtain ⟨-, -, -, hc⟩ := hspells.head
    obtain ⟨name, hname, hs⟩ := m.method.exists_safeName
    -- The opening of the call is kept, so the safe name begins a call.
    have hbegins : BeginsSafeCall method (m.method.safeName ++
        replaceFrom (m.token.reverse ++ before) (m.opening ++ m.rest)) ↔ m.method = method := by
      rw [replaceFrom_append hc, hopening, List.append_assoc]
      exact beginsSafeCall_safeName hw _ _
    have hafter := ih (offset + byteLength m.token)
    rw [replaceFrom_call hcall, piecesFrom_call hcall, sitesFrom, List.map_cons, List.count_cons]
    rw [hname, List.cons_append] at hbegins ⊢
    rw [safeCallCount_cons, safeCallCount_append hs, if_congr hbegins rfl rfl, hafter, htext,
      hspells.safeCallCount_token]
    simp only [beq_iff_eq, Nat.add_assoc]

/-- The calls that are found in a text divide it into gaps and tokens, and the replaced text has the
same gaps in the same order with the safe names of the called methods in the places of the tokens.
Each safe function is called in the replaced text as often as in the text and once more for each
call of its method that was found. -/
theorem gaps_kept (t : Text) :
    (∃ gaps tokens, Layout 0 (sites t) gaps tokens ∧ t = alternate gaps tokens ∧
      replaceAll t = alternate gaps ((sites t).map fun site => site.method.safeName)) ∧
    ∀ method, safeCallCount method (replaceAll t) =
      safeCallCount method t + ((sites t).map Site.method).count method := by
  refine ⟨?_, fun method => safeCallCount_replaceFrom method 0 [] t⟩
  obtain ⟨gaps, tokens, hlayout, hsource, hsafe⟩ := exists_layout 0 (pieces t)
  exact ⟨gaps, tokens, hlayout, (source_piecesFrom [] t).symm.trans hsource, hsafe⟩

example : safeCallCount .log "safeLog(console\n.log (1), safeLogs(2))".toList = 1 ∧
    safeCallCount .log (replaceAll "safeLog(console\n.log (1), safeLogs(2))".toList) = 2 := by
  decide +kernel

end LogGuard.Call
