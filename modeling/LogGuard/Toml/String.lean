import LogGuard.Toml.Lexical

/-!
# TOML strings

The four kinds of strings. Basic strings stand between double quotes and know escapes, literal
strings stand between single quotes and do not; three quotes open a string that may span lines and
drop a line end right after them. Each recogniser returns the characters of the string and the text
after it.
-/

namespace LogGuard.Toml

/-- A single character that stands for another after a backslash. -/
def simpleEscape? : Char → Option Char
  | 'b' => some '\x08'
  | 'f' => some '\x0c'
  | 'n' => some '\n'
  | 'r' => some '\r'
  | 't' => some '\t'
  | '\\' => some '\\'
  | '"' => some '"'
  | _ => none

/-- The character with a code point given by `count` hexadecimal digits at the front of a text. -/
def codePoint? (count : Nat) (t : Text) : Option Char :=
  let digits := t.take count
  let code := numeral 16 digits
  if digits.length = count && digits.all isHexDigit && code.isValidChar then
    some (Char.ofNat code)
  else none

/-- The character that an escape stands for, and the number of characters that it has after the
backslash. -/
def escape? : Text → Option (Char × Nat)
  | 'u' :: rest => (codePoint? 4 rest).map (·, 5)
  | 'U' :: rest => (codePoint? 8 rest).map (·, 9)
  | c :: _ => (simpleEscape? c).map (·, 1)
  | [] => none

/-- Reads a basic string up to its closing quote, after skipping `skip` characters. -/
def basicBody? (skip : Nat) : Text → Option (Text × Text)
  | [] => none
  | c :: rest =>
    match skip with
    | n + 1 => basicBody? n rest
    | 0 =>
      if c == '"' then some ([], rest)
      else if c == '\\' then
        match escape? rest with
        | none => none
        | some (d, length) => (basicBody? length rest).map fun (t, after) => (d :: t, after)
      else if isPlain c then (basicBody? 0 rest).map fun (t, after) => (c :: t, after)
      else none

/-- Reads a literal string up to its closing quote. -/
def literalBody? : Text → Option (Text × Text)
  | [] => none
  | c :: rest =>
    if c == '\'' then some ([], rest)
    else if isPlain c then (literalBody? rest).map fun (t, after) => (c :: t, after)
    else none

/-- Divides a text that begins with at least three quotes, which close a string. Up to two more
quotes before them belong to the string. -/
def closingQuotes? (quote : Char) (t : Text) : Option (Text × Text) :=
  let quotes := (t.take 5).takeWhile (· == quote)
  if 3 ≤ quotes.length then some (quotes.drop 3, t.drop quotes.length) else none

/-- What is being read inside a basic string that may span lines. -/
inductive LineState where
  /-- Characters of the string. -/
  | reading
  /-- The rest of an escape. -/
  | skipping (count : Nat)
  /-- Blanks and line ends after a backslash that ends a line. -/
  | joining

/-- Reads a basic string that may span lines up to its closing quotes. -/
def multilineBasicBody? (state : LineState) : Text → Option (Text × Text)
  | [] => none
  | c :: rest =>
    match state with
    | .skipping (n + 2) => multilineBasicBody? (.skipping (n + 1)) rest
    | .skipping _ => multilineBasicBody? .reading rest
    | _ =>
      match state, c == '\n' || isBlank c || (c == '\r' && rest.head? == some '\n') with
      | .joining, true => multilineBasicBody? .joining rest
      | _, _ =>
        if c == '"' then
          match closingQuotes? '"' (c :: rest) with
          | some closed => some closed
          | none => (multilineBasicBody? .reading rest).map fun (t, after) => (c :: t, after)
        else if c == '\\' then
          if (newline? (dropBlanks rest)).isSome then multilineBasicBody? .joining rest
          else
            match escape? rest with
            | none => none
            | some (d, length) =>
              (multilineBasicBody? (.skipping length) rest).map fun (t, after) => (d :: t, after)
        else if c == '\r' && rest.head? == some '\n' then multilineBasicBody? .reading rest
        else if c == '\n' || isPlain c then
          (multilineBasicBody? .reading rest).map fun (t, after) => (c :: t, after)
        else none

/-- Reads a literal string that may span lines up to its closing quotes. -/
def multilineLiteralBody? : Text → Option (Text × Text)
  | [] => none
  | c :: rest =>
    match closingQuotes? '\'' (c :: rest) with
    | some closed => some closed
    | none =>
      if c == '\r' && rest.head? == some '\n' then multilineLiteralBody? rest
      else if c == '\n' || isPlain c then
        (multilineLiteralBody? rest).map fun (t, after) => (c :: t, after)
      else none

/-- Drops a line end at the front of a text. -/
def dropNewline (t : Text) : Text :=
  (newline? t).getD t

/-- Reads a string that stays on its line. -/
def lineString? : Text → Option (Text × Text)
  | '"' :: rest => basicBody? 0 rest
  | '\'' :: rest => literalBody? rest
  | _ => none

/-- Reads a string of any kind. -/
def string? : Text → Option (Text × Text)
  | '"' :: '"' :: '"' :: rest => multilineBasicBody? .reading (dropNewline rest)
  | '\'' :: '\'' :: '\'' :: rest => multilineLiteralBody? (dropNewline rest)
  | t => lineString? t

end LogGuard.Toml
