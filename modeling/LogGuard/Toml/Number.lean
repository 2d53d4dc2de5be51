import LogGuard.Toml.Value
import LogGuard.Toml.Lexical

/-!
# TOML numbers and dates

Recognisers for the scalars that begin with a digit or a sign. An integer has to fit into 64 bits
and a float must not exceed the largest double; a day has to exist in its month.
-/

namespace LogGuard.Toml

/-- Digits after the first of a number. A single low line may stand between two digits. -/
def moreDigits (isDigit : Char → Bool) : Text → Text × Text
  | '_' :: c :: rest =>
    if isDigit c then
      let (digits, after) := moreDigits isDigit rest
      (c :: digits, after)
    else ([], '_' :: c :: rest)
  | c :: rest =>
    if isDigit c then
      let (digits, after) := moreDigits isDigit rest
      (c :: digits, after)
    else ([], c :: rest)
  | [] => ([], [])

/-- The digits of a number, of which there is at least one. -/
def digits? (isDigit : Char → Bool) : Text → Option (Text × Text)
  | [] => none
  | c :: rest =>
    if isDigit c then
      let (digits, after) := moreDigits isDigit rest
      some (c :: digits, after)
    else none

/-- Whether a text begins with a minus, and what follows the sign. -/
def sign : Text → Bool × Text
  | '-' :: rest => (true, rest)
  | '+' :: rest => (false, rest)
  | t => (false, t)

/-- The digits of a decimal number. A zero at the front is the only digit. -/
def decimalDigits? : Text → Option (Text × Text)
  | '0' :: rest => some (['0'], rest)
  | t => digits? isDigit t

/-- A number that 64 bits can hold. -/
def fits (n : Int) : Bool :=
  decide (-0x8000000000000000 ≤ n) && decide (n < 0x8000000000000000)

/-- The digits of an integer without a sign in a base other than ten. -/
def based? (base : Nat) (isDigit : Char → Bool) (t : Text) : Option (Value × Text) := do
  let (digits, rest) ← digits? isDigit t
  guard (fits (numeral base digits))
  some (.integer (numeral base digits), rest)

/-- Reads an integer. -/
def integer? : Text → Option (Value × Text)
  | '0' :: 'x' :: rest => based? 16 isHexDigit rest
  | '0' :: 'o' :: rest => based? 8 (fun c => '0' ≤ c && c ≤ '7') rest
  | '0' :: 'b' :: rest => based? 2 (fun c => c == '0' || c == '1') rest
  | t => do
    let (negative, t) := sign t
    let (digits, rest) ← decimalDigits? t
    let n : Int := if negative then -numeral 10 digits else numeral 10 digits
    guard (fits n)
    some (.integer n, rest)

/-- The smallest number that no double is nearest to: half a unit above the largest double. -/
def doubleBound : Nat :=
  Nat.pow 2 1024 - Nat.pow 2 970

/-- Whether the number `digits * 10 ^ exponent` exceeds the doubles. Numbers far from the bound are
told by their count of digits. -/
def exceedsDouble (digits : Text) (exponent : Int) : Bool :=
  let significant := digits.dropWhile (· == '0')
  let size : Int := significant.length + exponent
  if significant.isEmpty then false
  else if 309 < size then true
  else if size < 309 then false
  else
    let n := numeral 10 significant
    if 0 ≤ exponent then decide (doubleBound ≤ n * Nat.pow 10 exponent.toNat)
    else decide (doubleBound * Nat.pow 10 (-exponent).toNat ≤ n)

/-- The exponent at the front of a text. -/
def exponent? : Text → Option (Int × Text)
  | c :: rest =>
    if c == 'e' || c == 'E' then do
      let (negative, t) := sign rest
      let (digits, after) ← digits? isDigit t
      some (if negative then -numeral 10 digits else numeral 10 digits, after)
    else none
  | [] => none

/-- The digits after a decimal point at the front of a text. -/
def fraction? : Text → Option (Text × Text)
  | '.' :: rest => digits? isDigit rest
  | _ => none

/-- Reads a float that has a fraction or an exponent. -/
def decimalFloat? (t : Text) : Option (Value × Text) := do
  let (negative, t) := sign t
  let (whole, t) ← decimalDigits? t
  let (digits, shift, t) ←
    match fraction? t with
    | some (fraction, t) =>
      let (exponent, t) := (exponent? t).getD (0, t)
      some (whole ++ fraction, exponent - fraction.length, t)
    | none => (exponent? t).map fun (exponent, t) => (whole, exponent, t)
  guard (negative || !exceedsDouble digits shift)
  some (.float, t)

/-- Reads an infinity or the mark of a value that is no number. -/
def specialFloat? (t : Text) : Option (Value × Text) :=
  match (sign t).2 with
  | 'i' :: 'n' :: 'f' :: rest => some (.float, rest)
  | 'n' :: 'a' :: 'n' :: rest => some (.float, rest)
  | _ => none

/-- Reads a boolean. -/
def boolean? : Text → Option (Value × Text)
  | 't' :: 'r' :: 'u' :: 'e' :: rest => some (.boolean true, rest)
  | 'f' :: 'a' :: 'l' :: 's' :: 'e' :: rest => some (.boolean false, rest)
  | _ => none

/-- A number of exactly `count` digits between `low` and `high`. -/
def field? (count low high : Nat) (t : Text) : Option (Nat × Text) := do
  let digits := t.take count
  guard (digits.length = count && digits.all isDigit)
  let n := numeral 10 digits
  guard (low ≤ n && n ≤ high)
  some (n, t.drop count)

/-- The text after the character `c`. -/
def after? (c : Char) : Text → Option Text
  | d :: rest => if c == d then some rest else none
  | [] => none

/-- The number of days of a month. -/
def daysIn (year month : Nat) : Nat :=
  if month = 2 then
    if year % 4 = 0 && (year % 100 != 0 || year % 400 = 0) then 29 else 28
  else if month = 4 || month = 6 || month = 9 || month = 11 then 30
  else 31

/-- The text after a date. -/
def date? (t : Text) : Option Text := do
  let (year, t) ← field? 4 0 9999 t
  let (month, t) ← field? 2 1 12 (← after? '-' t)
  let (day, t) ← field? 2 1 31 (← after? '-' t)
  guard (day ≤ daysIn year month)
  some t

/-- The text after a time of day, which may have a fraction of a second. -/
def time? (t : Text) : Option Text := do
  let (_, t) ← field? 2 0 23 t
  let (_, t) ← field? 2 0 59 (← after? ':' t)
  let (_, t) ← field? 2 0 60 (← after? ':' t)
  match t with
  | '.' :: c :: rest => some (if isDigit c then rest.dropWhile isDigit else t)
  | _ => some t

/-- The text after an offset from universal time. -/
def offset? (t : Text) : Option Text :=
  match t with
  | [] => none
  | c :: rest =>
    if c == 'Z' || c == 'z' then some rest
    else if c == '+' || c == '-' then do
      let (_, t) ← field? 2 0 23 rest
      let (_, t) ← field? 2 0 59 (← after? ':' t)
      some t
    else none

/-- The text after a time of day with its offset, if a delimiter and a time follow a date. -/
def timeAfterDate? : Text → Option Text
  | c :: rest =>
    if c == 'T' || c == 't' || c == ' ' then (time? rest).map fun t => (offset? t).getD t else none
  | [] => none

/-- Reads a date, a time of day or both. -/
def dateTime? (t : Text) : Option (Value × Text) :=
  let rest? :=
    match date? t with
    | some t => some ((timeAfterDate? t).getD t)
    | none => time? t
  rest?.map (.dateTime, ·)

/-- Reads a scalar that is no string. -/
def scalar? (t : Text) : Option (Value × Text) :=
  dateTime? t <|> decimalFloat? t <|> specialFloat? t <|> integer? t <|> boolean? t

end LogGuard.Toml
