import LogGuard.Proofs.Json.Grammar
import Mathlib.Data.List.Nodup

/-!
# The grammar is unambiguous

A text is a JSON document for one value at most (`Spells.unique`). Each token shows where it ends: a
run of white space or digits at the first other character (`append_inj_of_run`), a string at the
first quote that is not part of an escape (`IsString.unique`). What comes after the token is the
same then, whatever it is, so that the lemmas are stated for texts with something after them. A
value shows in its first character of what kind it is (`Spells.kind`), and items and fields show in
the character after them whether there are more.
-/

namespace LogGuard.Json

variable {t t' r r' w w' : Text}

/-! ## Runs -/

/-- Where a run of characters of one kind ends is determined by what is not of this kind after
it. -/
theorem append_inj_of_run {P : Char → Prop} (hw : ∀ c ∈ w, P c) (hw' : ∀ c ∈ w', P c)
    (hr : ∀ c ∈ r.head?, ¬P c) (hr' : ∀ c ∈ r'.head?, ¬P c) (h : w ++ r = w' ++ r') :
    w = w' ∧ r = r' := by
  induction w generalizing w' with
  | nil =>
    cases w' with
    | nil => exact ⟨rfl, h⟩
    | cons c w' =>
      rw [List.nil_append, List.cons_append] at h
      exact absurd (hw' c List.mem_cons_self) (hr c (by rw [h]; rfl))
  | cons c w ih =>
    cases w' with
    | nil =>
      rw [List.nil_append, List.cons_append] at h
      exact absurd (hw c List.mem_cons_self) (hr' c (by rw [← h]; rfl))
    | cons c' w' =>
      rw [List.cons_append, List.cons_append] at h
      obtain ⟨rfl, hrest⟩ := List.cons.inj h
      obtain ⟨rfl, rfl⟩ := ih (fun c hc => hw c (List.mem_cons_of_mem _ hc))
        (fun c hc => hw' c (List.mem_cons_of_mem _ hc)) hrest
      exact ⟨rfl, rfl⟩

/-! ## Strings -/

/-- Escapes by code points have four digits. -/
theorem length_of_unit? {digits : Text} {n : Nat} (h : unit? digits = some n) :
    digits.length = 4 := by
  unfold unit? at h
  split at h
  · rfl
  · contradiction

/-- No escape of one character begins as one by the code point. -/
theorem ne_of_mem_shortEscapes {e c : Char} (h : (e, c) ∈ shortEscapes) : e ≠ 'u' :=
  have hforms : ∀ form ∈ shortEscapes, form.1 ≠ 'u' := by decide
  hforms _ h

/-- No escape of one character stands for two characters. -/
theorem eq_of_mem_shortEscapes {e c c' : Char} (h : (e, c) ∈ shortEscapes)
    (h' : (e, c') ∈ shortEscapes) : c = c' :=
  have hforms : ∀ form ∈ shortEscapes, ∀ other ∈ shortEscapes,
      form.1 = other.1 → form.2 = other.2 := by decide
  hforms _ h _ h' rfl

/-- No character has the code point of the first half of a pair. -/
theorem toNat_ne_high {c c' : Char} {high low : Nat}
    (hc : c.toNat = 0x10000 + high * 0x400 + low) : c'.toNat ≠ 0xD800 + high := by
  have hvalid : c.toNat < 0x110000 := by
    rcases c.valid with h | h
    · exact Nat.lt_trans h (by decide)
    · exact h.2
  have hvalid' : c'.toNat < 0xD800 ∨ 0xDFFF < c'.toNat := c'.valid.imp_right And.left
  omega

/-- The digits of two escapes that begin in the same place are the same. -/
theorem digits_inj {digits digits' : Text} {n n' : Nat} (h : unit? digits = some n)
    (h' : unit? digits' = some n') (heq : digits ++ r = digits' ++ r') :
    digits = digits' ∧ n = n' ∧ r = r' := by
  obtain ⟨rfl, rfl⟩ := List.append_inj heq ((length_of_unit? h).trans (length_of_unit? h').symm)
  exact ⟨rfl, Option.some.inj (h.symm.trans h'), rfl⟩

/-- Where a form of a character in a string begins it is determined, and so is the character. -/
theorem StandsFor.unique {c c' : Char} (h : StandsFor t c) (h' : StandsFor t' c')
    (heq : t ++ r = t' ++ r') : c = c' ∧ t = t' := by
  cases h with
  | itself _ _ hbackslash =>
    cases h' with
    | itself => exact ⟨(List.cons.inj heq).1, by rw [(List.cons.inj heq).1]⟩
    | _ => exact absurd (List.cons.inj heq).1 hbackslash
  | short hshort =>
    cases h' with
    | itself _ _ hbackslash => exact absurd (List.cons.inj heq).1.symm hbackslash
    | short hshort' =>
      obtain ⟨rfl, -⟩ := List.cons.inj (List.cons.inj heq).2
      exact ⟨eq_of_mem_shortEscapes hshort hshort', rfl⟩
    | _ => exact absurd (List.cons.inj (List.cons.inj heq).2).1 (ne_of_mem_shortEscapes hshort)
  | code hdigits =>
    cases h' with
    | itself _ _ hbackslash => exact absurd (List.cons.inj heq).1.symm hbackslash
    | short hshort' =>
      exact absurd (List.cons.inj (List.cons.inj heq).2).1.symm
        (ne_of_mem_shortEscapes hshort')
    | code hdigits' =>
      obtain ⟨rfl, hnat, -⟩ := digits_inj hdigits hdigits' (List.cons.inj (List.cons.inj heq).2).2
      exact ⟨Char.toNat_inj.mp hnat, rfl⟩
    | pair hfirst' _ _ hc' =>
      simp only [List.cons_append, List.append_assoc, List.cons.injEq, true_and] at heq
      exact absurd (digits_inj hdigits hfirst' heq).2.1 (toNat_ne_high hc')
  | pair hfirst hsecond _ hc =>
    cases h' with
    | itself _ _ hbackslash => exact absurd (List.cons.inj heq).1.symm hbackslash
    | short hshort' =>
      exact absurd (List.cons.inj (List.cons.inj heq).2).1.symm
        (ne_of_mem_shortEscapes hshort')
    | code hdigits' =>
      simp only [List.cons_append, List.append_assoc, List.cons.injEq, true_and] at heq
      exact absurd (digits_inj hfirst hdigits' heq).2.1.symm (toNat_ne_high hc)
    | pair hfirst' hsecond' _ hc' =>
      simp only [List.cons_append, List.append_assoc, List.cons.injEq, true_and] at heq
      obtain ⟨rfl, hhigh, hrest⟩ := digits_inj hfirst hfirst' heq
      simp only [List.cons.injEq, true_and] at hrest
      obtain ⟨rfl, hlow, -⟩ := digits_inj hsecond hsecond' hrest
      exact ⟨Char.toNat_inj.mp (by omega), rfl⟩

/-- No form of a character begins with a quote. -/
theorem StandsFor.ne_quote {c : Char} (h : StandsFor t c) : t ++ r ≠ '"' :: r' := by
  intro heq
  cases h with
  | itself _ hquote => exact hquote (List.cons.inj heq).1
  | _ => exact absurd (List.cons.inj heq).1 (by decide)

/-- What stands between quotes ends at the first quote that is not part of an escape. -/
theorem SpellsBody.unique {value value' : Text} (h : SpellsBody value t)
    (h' : SpellsBody value' t') (heq : t ++ '"' :: r = t' ++ '"' :: r') :
    value = value' ∧ t = t' := by
  induction h generalizing value' t' with
  | nil =>
    cases h' with
    | nil => exact ⟨rfl, rfl⟩
    | cons hform' =>
      rw [List.append_assoc] at heq
      exact absurd heq.symm hform'.ne_quote
  | cons hform _ ih =>
    rw [List.append_assoc] at heq
    cases h' with
    | nil => exact absurd heq hform.ne_quote
    | cons hform' hrest' =>
      rw [List.append_assoc] at heq
      obtain ⟨rfl, rfl⟩ := hform.unique hform' heq
      obtain ⟨rfl, rfl⟩ := ih hrest' (List.append_cancel_left heq)
      exact ⟨rfl, rfl⟩

/-- Where a string begins it is determined, and so is the text that it stands for. -/
theorem IsString.unique {value value' : Text} (h : IsString value t) (h' : IsString value' t')
    (heq : t ++ r = t' ++ r') : value = value' ∧ t = t' := by
  obtain ⟨body, hbody, rfl⟩ := h
  obtain ⟨body', hbody', rfl⟩ := h'
  simp only [List.cons_append, List.append_assoc, List.cons.injEq, true_and, List.nil_append]
    at heq
  obtain ⟨rfl, rfl⟩ := hbody.unique hbody' heq
  exact ⟨rfl, rfl⟩

/-! ## What begins a value and what may follow one -/

/-- The kinds of values that documents show in their first characters. -/
inductive Kind where
  | bool (b : Bool)
  | number
  | text
  | array
  | object
  deriving DecidableEq

/-- The kind of a value. -/
def kind? : Json → Option Kind
  | .bool b => some (.bool b)
  | .number _ => some .number
  | .text _ => some .text
  | .unreadable => none
  | .array _ => some .array
  | .object _ => some .object

/-- The kind of a value whose document begins with a character. -/
def Kind.ofChar? (c : Char) : Option Kind :=
  if c.isDigit then some .number
  else
    [('t', Kind.bool true), ('f', .bool false), ('"', .text), ('[', .array),
      ('\x7b', .object)].lookup c

/-- A text does not go on with a digit. -/
def EndsNumber (r : Text) : Prop :=
  ∀ c ∈ r.head?, ¬c.isDigit = true

/-- A text does not go on with white space. -/
def EndsSpace (r : Text) : Prop :=
  ∀ c ∈ r.head?, ¬(c = ' ' ∨ c = '\t' ∨ c = '\n' ∨ c = '\r')

variable {j j' : Json}

/-- White space ends where something else begins. -/
theorem IsSpace.unique (hw : IsSpace w) (hw' : IsSpace w') (hr : EndsSpace r) (hr' : EndsSpace r')
    (h : w ++ r = w' ++ r') : w = w' ∧ r = r' :=
  append_inj_of_run hw hw' hr hr' h

/-- A number ends where its digits do. -/
theorem IsNumber.unique {n n' : Nat} (h : IsNumber n t) (h' : IsNumber n' t') (hr : EndsNumber r)
    (hr' : EndsNumber r') (heq : t ++ r = t' ++ r') : n = n' ∧ t = t' := by
  obtain ⟨rfl, -⟩ := append_inj_of_run h.digits h'.digits hr hr' heq
  exact ⟨h.value.symm.trans h'.value, rfl⟩

/-- A document begins with a character that shows of what kind its value is. -/
theorem Spells.kind (h : Spells j t) :
    ∃ c rest, t = c :: rest ∧ j.kind? = Kind.ofChar? c ∧ (Kind.ofChar? c).isSome := by
  cases h with
  | bool b => cases b <;> exact ⟨_, _, rfl, by decide, by decide⟩
  | number h =>
    obtain ⟨c, rest, rfl⟩ := List.exists_cons_of_ne_nil h.nonempty
    have hkind : Kind.ofChar? c = some .number := if_pos (h.digits c List.mem_cons_self)
    exact ⟨c, rest, rfl, hkind.symm, by rw [hkind]; rfl⟩
  | text h =>
    obtain ⟨body, -, rfl⟩ := h
    exact ⟨_, _, rfl, rfl, by decide⟩
  | array => exact ⟨_, _, rfl, rfl, by decide⟩
  | object => exact ⟨_, _, rfl, rfl, by decide⟩

/-- Where two documents begin in the same place, their values are of the same kind. -/
theorem Spells.kind_eq (h : Spells j t) (h' : Spells j' t') (heq : t ++ r = t' ++ r') :
    j.kind? = j'.kind? := by
  obtain ⟨c, rest, rfl, hkind, -⟩ := h.kind
  obtain ⟨c', rest', rfl, hkind', -⟩ := h'.kind
  rw [hkind, hkind', (List.cons.inj heq).1]

/-- No document begins with white space or with a character that comes after a value. -/
theorem Spells.ne {c : Char} (h : Spells j t) (hc : c ∈ [' ', '\t', '\n', '\r', ',', ']', '\x7d'])
    (r r' : Text) : t ++ r ≠ c :: r' := by
  have hothers : ∀ d ∈ [' ', '\t', '\n', '\r', ',', ']', '\x7d'],
      (Kind.ofChar? d).isNone = true := List.all_eq_true.mp (by decide)
  obtain ⟨d, rest, rfl, -, hsome⟩ := h.kind
  intro heq
  obtain rfl := (List.cons.inj heq).1
  rw [Option.isNone_iff_eq_none.mp (hothers d hc)] at hsome
  exact Bool.false_ne_true hsome

/-- After white space there may be a document. -/
theorem Spells.endsSpace (h : Spells j t) (r : Text) : EndsSpace (t ++ r) := by
  intro c hc hspace
  obtain ⟨rest, hrest⟩ := List.head?_eq_some_iff.mp hc
  exact h.ne (by rcases hspace with rfl | rfl | rfl | rfl <;> decide) r rest hrest

/-- A text that begins with a comma or a closing bracket. -/
def Delimits (r : Text) : Prop :=
  ∃ c ∈ [',', ']', '\x7d'], r.head? = some c

theorem Delimits.endsSpace (h : Delimits r) : EndsSpace r := by
  obtain ⟨c, hc, hr⟩ := h
  simp only [List.mem_cons, List.not_mem_nil, or_false] at hc
  intro d hd
  obtain rfl : c = d := Option.some.inj (hr.symm.trans hd)
  rcases hc with rfl | rfl | rfl <;> decide

/-- A number ends before white space and a delimiter. -/
theorem Delimits.endsNumber (h : Delimits r) (hw : IsSpace w) : EndsNumber (w ++ r) := by
  intro d hd
  cases w with
  | nil =>
    obtain ⟨c, hc, hr⟩ := h
    simp only [List.mem_cons, List.not_mem_nil, or_false] at hc
    obtain rfl : c = d := Option.some.inj (hr.symm.trans hd)
    rcases hc with rfl | rfl | rfl <;> decide
  | cons c w =>
    obtain rfl : c = d := Option.some.inj hd
    rcases hw c List.mem_cons_self with rfl | rfl | rfl | rfl <;> decide

/-! ## Items and fields -/

/-- Where a document for the value begins, no other value has one, and it is determined where the
document ends, unless it is a number that goes on. -/
def Unambiguous (j : Json) : Prop :=
  ∀ {j' : Json} {t t' r r' : Text}, Spells j t → Spells j' t' → EndsNumber r → EndsNumber r' →
    t ++ r = t' ++ r' → j = j' ∧ t = t'

/-- What stands after an item of an array. -/
inductive AfterItem : List Json → Text → Prop where
  | last : AfterItem [] []
  | more {next items rest} (h : SpellsItems (next :: items) rest) :
    AfterItem (next :: items) (',' :: rest)

/-- What stands after a field of an object. -/
inductive AfterField : List (Text × Json) → Text → Prop where
  | last : AfterField [] []
  | more {next fields rest} (h : SpellsFields (next :: fields) rest) :
    AfterField (next :: fields) (',' :: rest)

theorem SpellsItems.of_nil (h : SpellsItems [] t) : IsSpace t := by
  cases h
  assumption

theorem SpellsItems.of_cons {items : List Json} (h : SpellsItems (j :: items) t) :
    ∃ w document w' after, IsSpace w ∧ Spells j document ∧ IsSpace w' ∧ AfterItem items after ∧
      t = w ++ (document ++ (w' ++ after)) := by
  cases h with
  | last hw h hw' => exact ⟨_, _, _, _, hw, h, hw', .last, by simp⟩
  | more hw h hw' hrest => exact ⟨_, _, _, _, hw, h, hw', .more hrest, by simp⟩

theorem SpellsFields.of_nil (h : SpellsFields [] t) : IsSpace t := by
  cases h
  assumption

theorem SpellsFields.of_cons {name : Text} {fields : List (Text × Json)}
    (h : SpellsFields ((name, j) :: fields) t) :
    ∃ field after, SpellsField name j field ∧ AfterField fields after ∧ t = field ++ after := by
  cases h with
  | last h => exact ⟨_, _, h, .last, by simp⟩
  | more h hrest => exact ⟨_, _, h, .more hrest, by simp⟩

theorem AfterItem.delimits {items : List Json} (h : AfterItem items t) (r : Text) :
    Delimits (t ++ ']' :: r) := by
  cases h <;> exact ⟨_, by decide, rfl⟩

theorem AfterField.delimits {fields : List (Text × Json)} (h : AfterField fields t) (r : Text) :
    Delimits (t ++ '\x7d' :: r) := by
  cases h <;> exact ⟨_, by decide, rfl⟩

/-- Items in front of a closing bracket are determined. -/
theorem SpellsItems.unique {items items' : List Json} (hitems : ∀ j ∈ items, Unambiguous j)
    (h : SpellsItems items t) (h' : SpellsItems items' t') (heq : t ++ ']' :: r = t' ++ ']' :: r') :
    items = items' ∧ t = t' := by
  have hclose (r : Text) : EndsSpace (']' :: r) := (AfterItem.last.delimits r).endsSpace
  -- Where items follow white space, there is no closing bracket.
  have hopen {j : Json} {items : List Json} {w t r r' : Text} (hw : IsSpace w)
      (h : SpellsItems (j :: items) t) : w ++ ']' :: r ≠ t ++ r' := by
    obtain ⟨w', document, w'', after, hw', hdocument, -, -, rfl⟩ := h.of_cons
    intro heq
    rw [List.append_assoc, List.append_assoc] at heq
    obtain ⟨-, hrest⟩ := hw.unique hw' (hclose r) (hdocument.endsSpace _) heq
    exact hdocument.ne (by decide) _ _ hrest.symm
  induction items generalizing items' t t' with
  | nil =>
    cases items' with
    | nil =>
      exact ⟨rfl, (h.of_nil.unique h'.of_nil (hclose r) (hclose r') heq).1⟩
    | cons j' items' => exact absurd heq (hopen h.of_nil h')
  | cons j items ih =>
    cases items' with
    | nil => exact absurd heq.symm (hopen h'.of_nil h)
    | cons j' items' =>
      obtain ⟨w, document, v, after, hw, hdocument, hv, hafter, rfl⟩ := h.of_cons
      obtain ⟨w', document', v', after', hw', hdocument', hv', hafter', rfl⟩ := h'.of_cons
      simp only [List.append_assoc] at heq
      have hdelimits := hafter.delimits r
      have hdelimits' := hafter'.delimits r'
      obtain ⟨rfl, hvalue⟩ := hw.unique hw' (hdocument.endsSpace _) (hdocument'.endsSpace _) heq
      obtain ⟨rfl, rfl⟩ := hitems j List.mem_cons_self hdocument hdocument'
        (hdelimits.endsNumber hv) (hdelimits'.endsNumber hv') hvalue
      obtain ⟨rfl, hend⟩ := hv.unique hv' hdelimits.endsSpace hdelimits'.endsSpace
        (List.append_cancel_left hvalue)
      cases hafter with
      | last =>
        cases hafter' with
        | last => exact ⟨rfl, rfl⟩
        | more => exact absurd (List.cons.inj hend).1 (by decide)
      | more hrest =>
        cases hafter' with
        | last => exact absurd (List.cons.inj hend).1 (by decide)
        | more hrest' =>
          obtain ⟨hsame, rfl⟩ := ih (fun j hj => hitems j (List.mem_cons_of_mem _ hj)) hrest hrest'
            (List.cons.inj hend).2
          rw [hsame]
          exact ⟨rfl, rfl⟩

/-- A string begins with a quote. -/
theorem IsString.endsSpace {value : Text} (h : IsString value t) (r : Text) :
    EndsSpace (t ++ r) := by
  obtain ⟨body, -, rfl⟩ := h
  intro c hc
  obtain rfl : '"' = c := Option.some.inj hc
  decide

/-- A field in front of a delimiter is determined. -/
theorem SpellsField.unique {name name' : Text} (hj : Unambiguous j) (h : SpellsField name j t)
    (h' : SpellsField name' j' t') (hr : Delimits r) (hr' : Delimits r')
    (heq : t ++ r = t' ++ r') : name = name' ∧ j = j' ∧ t = t' := by
  have hcolon (r : Text) : EndsSpace (':' :: r) := by
    intro c hc
    obtain rfl : ':' = c := Option.some.inj hc
    decide
  obtain ⟨hw₁, hname, hw₂, hw₃, hdocument, hw₄⟩ := h
  obtain ⟨hw₁', hname', hw₂', hw₃', hdocument', hw₄'⟩ := h'
  simp only [List.append_assoc, List.cons_append] at heq
  obtain ⟨rfl, hstring⟩ := hw₁.unique hw₁' (hname.endsSpace _) (hname'.endsSpace _) heq
  obtain ⟨rfl, rfl⟩ := hname.unique hname' hstring
  obtain ⟨rfl, hafter⟩ := hw₂.unique hw₂' (hcolon _) (hcolon _) (List.append_cancel_left hstring)
  obtain ⟨rfl, hvalue⟩ := hw₃.unique hw₃' (hdocument.endsSpace _) (hdocument'.endsSpace _)
    (List.cons.inj hafter).2
  obtain ⟨rfl, rfl⟩ := hj hdocument hdocument' (hr.endsNumber hw₄) (hr'.endsNumber hw₄') hvalue
  obtain ⟨rfl, -⟩ := hw₄.unique hw₄' hr.endsSpace hr'.endsSpace (List.append_cancel_left hvalue)
  exact ⟨rfl, rfl, rfl⟩

/-- Fields in front of a closing brace are determined. -/
theorem SpellsFields.unique {fields fields' : List (Text × Json)}
    (hfields : ∀ field ∈ fields, Unambiguous field.2) (h : SpellsFields fields t)
    (h' : SpellsFields fields' t') (heq : t ++ '\x7d' :: r = t' ++ '\x7d' :: r') :
    fields = fields' ∧ t = t' := by
  have hclose (r : Text) : EndsSpace ('\x7d' :: r) := (AfterField.last.delimits r).endsSpace
  -- Where fields follow white space, there is no closing brace.
  have hopen {field : Text × Json} {fields : List (Text × Json)} {w t r r' : Text} (hw : IsSpace w)
      (h : SpellsFields (field :: fields) t) : w ++ '\x7d' :: r ≠ t ++ r' := by
    obtain ⟨_, after, ⟨hw', hname, -, -, -, -⟩, -, rfl⟩ := h.of_cons
    intro heq
    simp only [List.append_assoc] at heq
    obtain ⟨-, hrest⟩ := hw.unique hw' (hclose r) (hname.endsSpace _) heq
    obtain ⟨body, -, rfl⟩ := hname
    exact absurd (List.cons.inj hrest).1 (by decide)
  induction fields generalizing fields' t t' with
  | nil =>
    cases fields' with
    | nil => exact ⟨rfl, (h.of_nil.unique h'.of_nil (hclose r) (hclose r') heq).1⟩
    | cons field' fields' => exact absurd heq (hopen h.of_nil h')
  | cons field fields ih =>
    cases fields' with
    | nil => exact absurd heq.symm (hopen h'.of_nil h)
    | cons field' fields' =>
      obtain ⟨first, after, hfirst, hafter, rfl⟩ := h.of_cons
      obtain ⟨first', after', hfirst', hafter', rfl⟩ := h'.of_cons
      rw [List.append_assoc, List.append_assoc] at heq
      obtain ⟨hname, hvalue, rfl⟩ := hfirst.unique (hfields field List.mem_cons_self) hfirst'
        (hafter.delimits r) (hafter'.delimits r') heq
      have hend := List.append_cancel_left heq
      rw [Prod.ext hname hvalue]
      cases hafter with
      | last =>
        cases hafter' with
        | last => exact ⟨rfl, rfl⟩
        | more => exact absurd (List.cons.inj hend).1 (by decide)
      | more hrest =>
        cases hafter' with
        | last => exact absurd (List.cons.inj hend).1 (by decide)
        | more hrest' =>
          obtain ⟨hsame, rfl⟩ := ih (fun j hj => hfields j (List.mem_cons_of_mem _ hj)) hrest
            hrest' (List.cons.inj hend).2
          rw [hsame]
          exact ⟨rfl, rfl⟩

/-! ## Values -/

mutual

/-- No two values have documents that begin in the same place. -/
theorem unambiguous (j : Json) : Unambiguous j := by
  intro j' t t' r r' h h' hr hr' heq
  have hkind := h.kind_eq h' heq
  match j with
  | .bool b =>
    cases h
    cases h' with
    | bool b' =>
      obtain rfl : b = b' := by simpa [kind?] using hkind
      exact ⟨rfl, rfl⟩
    | _ => simp [kind?] at hkind
  | .number n =>
    cases h with
    | number h =>
      cases h' with
      | number h' =>
        obtain ⟨rfl, rfl⟩ := h.unique h' hr hr' heq
        exact ⟨rfl, rfl⟩
      | _ => simp [kind?] at hkind
  | .text value =>
    cases h with
    | text h =>
      cases h' with
      | text h' =>
        obtain ⟨rfl, rfl⟩ := h.unique h' heq
        exact ⟨rfl, rfl⟩
      | _ => simp [kind?] at hkind
  | .unreadable => cases h
  | .array items =>
    cases h with
    | array h =>
      cases h' with
      | array h' =>
        rw [List.cons_append, List.cons_append, List.append_assoc, List.append_assoc] at heq
        obtain ⟨rfl, rfl⟩ := h.unique (unambiguousItems items) h' (List.cons.inj heq).2
        exact ⟨rfl, rfl⟩
      | _ => simp [kind?] at hkind
  | .object fields =>
    cases h with
    | object h =>
      cases h' with
      | object h' =>
        rw [List.cons_append, List.cons_append, List.append_assoc, List.append_assoc] at heq
        obtain ⟨rfl, rfl⟩ := h.unique (unambiguousFields fields) h' (List.cons.inj heq).2
        exact ⟨rfl, rfl⟩
      | _ => simp [kind?] at hkind

theorem unambiguousItems (items : List Json) : ∀ j ∈ items, Unambiguous j := by
  match items with
  | [] => simp
  | j :: rest => exact List.forall_mem_cons.mpr ⟨unambiguous j, unambiguousItems rest⟩

theorem unambiguousFields (fields : List (Text × Json)) :
    ∀ field ∈ fields, Unambiguous field.2 := by
  match fields with
  | [] => simp
  | (_, j) :: rest => exact List.forall_mem_cons.mpr ⟨unambiguous j, unambiguousFields rest⟩

end

/-- A text is a document for one value at most. -/
theorem Spells.unique (h : Spells j t) (h' : Spells j' t) : j = j' := by
  have hend : EndsNumber [] := fun c hc => by simp at hc
  exact (unambiguous j h h' hend hend rfl).1

end LogGuard.Json
