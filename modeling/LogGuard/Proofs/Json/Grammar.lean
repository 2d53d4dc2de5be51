import LogGuard.Json.Value

/-!
# The grammar of JSON

`Json.Spells` says which texts are JSON documents for a value, rule by rule and without regard to
how documents are written here: any white space may stand between tokens, and any escape may stand
for a character inside a string. Numbers are those of the values, without sign, fraction and
exponent.
-/

namespace LogGuard.Json

/-- White space between tokens. -/
def IsSpace (w : Text) : Prop :=
  ∀ c ∈ w, c = ' ' ∨ c = '\t' ∨ c = '\n' ∨ c = '\r'

/-- The value of a hexadecimal digit. -/
def hexValue? (c : Char) : Option Nat :=
  if '0' ≤ c ∧ c ≤ '9' then some (c.toNat - 0x30)
  else if 'a' ≤ c ∧ c ≤ 'f' then some (c.toNat - 0x57)
  else if 'A' ≤ c ∧ c ≤ 'F' then some (c.toNat - 0x37)
  else none

/-- The number that four hexadecimal digits spell. -/
def unit? : Text → Option Nat
  | [a, b, c, d] => do
    pure (((← hexValue? a) * 16 + (← hexValue? b)) * 256 + (← hexValue? c) * 16 + (← hexValue? d))
  | _ => none

/-- The escapes of one character, with the characters that they stand for. -/
def shortEscapes : List (Char × Char) :=
  [('"', '"'), ('\\', '\\'), ('/', '/'), ('b', '\x08'), ('f', '\x0c'), ('n', '\n'), ('r', '\r'),
    ('t', '\t')]

/-- The text `form` stands for the character `c` inside a string. -/
inductive StandsFor : Text → Char → Prop where
  /-- A character other than quotes, backslashes and controls stands for itself. -/
  | itself {c} (hcontrol : 0x20 ≤ c.toNat) (hquote : c ≠ '"') (hbackslash : c ≠ '\\') :
    StandsFor [c] c
  /-- An escape of one character. -/
  | short {e c} (h : (e, c) ∈ shortEscapes) : StandsFor ['\\', e] c
  /-- An escape by the code point. -/
  | code {digits : Text} {c : Char} (h : unit? digits = some c.toNat) :
    StandsFor ('\\' :: 'u' :: digits) c
  /-- Two escapes for a code point beyond those with four digits. -/
  | pair {first second : Text} {high low : Nat} {c : Char}
    (hfirst : unit? first = some (0xD800 + high)) (hsecond : unit? second = some (0xDC00 + low))
    (hlow : low < 0x400)
    (hc : c.toNat = 0x10000 + high * 0x400 + low) :
    StandsFor ('\\' :: 'u' :: first ++ '\\' :: 'u' :: second) c

/-- What stands between the quotes of a string. -/
inductive SpellsBody : Text → Text → Prop where
  /-- Nothing. -/
  | nil : SpellsBody [] []
  /-- A form of the first character and those of the others. -/
  | cons {c value form rest} (hform : StandsFor form c) (hrest : SpellsBody value rest) :
    SpellsBody (c :: value) (form ++ rest)

/-- A string, with the text that it stands for. -/
def IsString (value t : Text) : Prop :=
  ∃ body, SpellsBody value body ∧ t = '"' :: body ++ ['"']

/-- A number in decimal digits, the first of which is zero only if it is the only one. -/
structure IsNumber (n : Nat) (t : Text) : Prop where
  nonempty : t ≠ []
  digits : ∀ c ∈ t, c.isDigit = true
  leading : t.head? = some '0' → t = ['0']
  value : Nat.ofDigitChars 10 t 0 = n

mutual

/-- The text is a JSON document for the value. -/
inductive Spells : Json → Text → Prop where
  /-- The literals of truth values. -/
  | bool (b : Bool) : Spells (.bool b) (if b then "true".toList else "false".toList)
  /-- A number. -/
  | number {n t} (h : IsNumber n t) : Spells (.number n) t
  /-- A string. -/
  | text {value t} (h : IsString value t) : Spells (.text value) t
  /-- Items between brackets. -/
  | array {items t} (h : SpellsItems items t) : Spells (.array items) ('[' :: t ++ [']'])
  /-- Fields between braces. -/
  | object {fields t} (h : SpellsFields fields t) :
    Spells (.object fields) ('\x7b' :: t ++ ['\x7d'])

/-- What stands between the brackets of an array. -/
inductive SpellsItems : List Json → Text → Prop where
  /-- No item. -/
  | none {w} (hw : IsSpace w) : SpellsItems [] w
  /-- The last item. -/
  | last {j w t w'} (hw : IsSpace w) (h : Spells j t) (hw' : IsSpace w') :
    SpellsItems [j] (w ++ t ++ w')
  /-- An item with others after it. -/
  | more {j next items w t w' rest} (hw : IsSpace w) (h : Spells j t) (hw' : IsSpace w')
    (hrest : SpellsItems (next :: items) rest) :
    SpellsItems (j :: next :: items) (w ++ t ++ w' ++ ',' :: rest)

/-- What stands between the braces of an object. -/
inductive SpellsFields : List (Text × Json) → Text → Prop where
  /-- No field. -/
  | none {w} (hw : IsSpace w) : SpellsFields [] w
  /-- The last field. -/
  | last {name j t} (h : SpellsField name j t) : SpellsFields [(name, j)] t
  /-- A field with others after it. -/
  | more {name j next fields t rest} (h : SpellsField name j t)
    (hrest : SpellsFields (next :: fields) rest) :
    SpellsFields ((name, j) :: next :: fields) (t ++ ',' :: rest)

/-- A name and a value with a colon between them. -/
inductive SpellsField : Text → Json → Text → Prop where
  /-- White space may stand before and after each of them. -/
  | intro {name j w₁ quoted w₂ w₃ t w₄} (hw₁ : IsSpace w₁) (hname : IsString name quoted)
    (hw₂ : IsSpace w₂) (hw₃ : IsSpace w₃) (h : Spells j t) (hw₄ : IsSpace w₄) :
    SpellsField name j (w₁ ++ quoted ++ w₂ ++ ':' :: w₃ ++ t ++ w₄)

end

end LogGuard.Json
