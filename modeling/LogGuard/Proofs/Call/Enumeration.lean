import LogGuard.Proofs.Call.Occurrence

/-!
# All calls of a text, in order

A call that is to be replaced begins at a byte of a text if the shape of a call stands there and an
expression starts (`BeginsAt`). The scan lists these calls, at each byte the one that begins there
(`mem_sites_iff_beginsAt`), and no other. It lists them from left to right: each one ends before the
next one begins (`pairwise_sites`), so that none is listed twice. `sites_enumerate` says so of whole
texts, with what the bytes of each call spell.
-/

namespace LogGuard.Call

open Text (byteLength byteLength_append byteLength_cons)

variable {t : Text} {offset : Nat} {site : Site} {m : Match}

/-- A call that is to be replaced begins at the byte `offset` of the text, and `m` divides the text
from there on into its parts. -/
def BeginsAt (t : Text) (offset : Nat) (m : Match) : Prop :=
  ∃ before rest, t = before ++ rest ∧ byteLength before = offset ∧ m.Spells rest ∧
    startsExpression before.reverse = true

/-- The bytes of the text from `start` up to `stop` are whole characters, which spell `part`. -/
def SpelledBetween (t : Text) (start stop : Nat) (part : Text) : Prop :=
  ∃ before after, t = before ++ part ++ after ∧ byteLength before = start ∧
    byteLength (before ++ part) = stop

/-! ## The shape of a token -/

/-- A token is the object, then the method, with no parenthesis. -/
theorem Match.Spells.token_spec (h : m.Spells t) :
    "console".toList <+: m.token ∧ m.method.name <:+ m.token ∧ '(' ∉ m.token := by
  obtain ⟨w₁, w₂, -, -, htoken⟩ := h.token
  refine ⟨?_, ?_, h.paren_notMem_token.1⟩
  · rw [htoken, List.append_assoc, List.append_assoc]
    exact List.prefix_append _ _
  · rw [htoken]
    exact List.suffix_append _ _

/-- Where a call begins, its token can be read. -/
theorem BeginsAt.token (h : BeginsAt t offset m) :
    SpelledBetween t offset (offset + byteLength m.token) m.token := by
  obtain ⟨before, rest, rfl, rfl, hspells, -⟩ := h
  refine ⟨before, m.opening ++ m.rest, ?_, rfl, byteLength_append _ _⟩
  rw [hspells.text]
  simp

/-- What is listed are the calls that begin somewhere in the text, each with its method and the
bytes of its token. -/
theorem mem_sites_iff_beginsAt :
    site ∈ sites t ↔
      ∃ m, BeginsAt t site.start m ∧ site.method = m.method ∧
        SpelledBetween t site.start site.stop m.token := by
  rw [mem_sites_iff]
  constructor
  · rintro ⟨before, rest, m, rfl, ⟨hmatch, hstarts⟩, rfl⟩
    have hbegins : BeginsAt (before ++ rest) (byteLength before) m :=
      ⟨before, rest, rfl, rfl, spells_of_match? hmatch, hstarts⟩
    exact ⟨m, hbegins, rfl, hbegins.token⟩
  · rintro ⟨m, ⟨before, rest, rfl, hbefore, hspells, hstarts⟩, hmethod, _, _, -, hstart, hstop⟩
    refine ⟨before, rest, m, rfl, ⟨match?_of_spells hspells, hstarts⟩, ?_⟩
    rw [hbefore, ← hmethod, ← hstart, ← byteLength_append, hstop, hstart]

/-! ## The order of the calls -/

/-- The calls of a text that begins at `offset` begin there or later, and none ends before it
begins. -/
theorem le_of_mem_sitesFrom {pieces : List Piece} (h : site ∈ sitesFrom offset pieces) :
    offset ≤ site.start ∧ site.start ≤ site.stop := by
  induction pieces generalizing offset with
  | nil => contradiction
  | cons piece rest ih =>
    cases piece with
    | plain c =>
      have hlater := ih h
      omega
    | call method token =>
      rcases List.mem_cons.mp h with rfl | hlater
      · dsimp only
        omega
      · have hlater := ih hlater
        omega

/-- No call begins before the one in front of it has ended. -/
theorem pairwise_sitesFrom (offset : Nat) (pieces : List Piece) :
    (sitesFrom offset pieces).Pairwise fun a b => a.stop ≤ b.start := by
  induction pieces generalizing offset with
  | nil => exact List.Pairwise.nil
  | cons piece rest ih =>
    cases piece with
    | plain c => exact ih _
    | call method token =>
      exact List.pairwise_cons.mpr ⟨fun site hsite => (le_of_mem_sitesFrom hsite).1, ih _⟩

/-- No call is empty. -/
theorem start_lt_stop (h : site ∈ sites t) : site.start < site.stop := by
  obtain ⟨m, ⟨_, _, -, -, hspells, -⟩, -, _, _, -, hstart, hstop⟩ := mem_sites_iff_beginsAt.mp h
  obtain ⟨token, htoken, -, -⟩ := hspells.head
  have hpos := Char.utf8Size_pos 'c'
  rw [← hstart, ← hstop, byteLength_append, htoken, byteLength_cons]
  omega

/-- The calls come in the order in which they stand, one after the other. -/
theorem pairwise_sites (t : Text) :
    (sites t).Pairwise fun a b => a.start < b.start ∧ a.stop ≤ b.start :=
  (pairwise_sitesFrom 0 (pieces t)).imp_of_mem fun ha _ hle =>
    ⟨Nat.lt_of_lt_of_le (start_lt_stop ha) hle, hle⟩

/-- A call is listed for each byte of the text at which the shape of a call stands and an expression
starts, and for no other byte: its method is the one that is called, its bytes are those of the
token. The calls are listed from left to right, each once and none within another one. The bytes of
each call are whole characters of the text, from `console` up to the name of the method, without the
parenthesis. -/
theorem sites_enumerate (t : Text) :
    (∀ offset, offset ∈ (sites t).map Site.start ↔ ∃ m, BeginsAt t offset m) ∧
      (∀ site, site ∈ sites t ↔ ∃ m, BeginsAt t site.start m ∧ site.method = m.method ∧
        SpelledBetween t site.start site.stop m.token) ∧
      ((sites t).Pairwise fun a b => a.start < b.start ∧ a.stop ≤ b.start) ∧
      ∀ site ∈ sites t, ∃ token, SpelledBetween t site.start site.stop token ∧
        "console".toList <+: token ∧ site.method.name <:+ token ∧ '(' ∉ token := by
  refine ⟨fun offset => ?_, fun site => mem_sites_iff_beginsAt, pairwise_sites t, ?_⟩
  · rw [List.mem_map]
    constructor
    · rintro ⟨site, hsite, rfl⟩
      obtain ⟨m, hbegins, -⟩ := mem_sites_iff_beginsAt.mp hsite
      exact ⟨m, hbegins⟩
    · rintro ⟨m, hbegins⟩
      have hsite : ⟨m.method, offset, offset + byteLength m.token⟩ ∈ sites t :=
        mem_sites_iff_beginsAt.mpr ⟨m, hbegins, rfl, hbegins.token⟩
      exact ⟨_, hsite, rfl⟩
  · intro site hsite
    obtain ⟨m, ⟨_, _, -, -, hspells, -⟩, hmethod, htoken⟩ := mem_sites_iff_beginsAt.mp hsite
    rw [hmethod]
    exact ⟨m.token, htoken, hspells.token_spec⟩

example : sites "x.console.log(console\n.warn (1))".toList = [⟨.warn, 14, 27⟩] := by
  decide +kernel

end LogGuard.Call
