import CanonTree.Text.Digit

/-!
# Quoted texts of TOML

Basic texts stand between double quotes and know escapes; literal texts stand
between single quotes and know none.  Between three quotes a text may run over
several lines.  Readers start after the opening quotes, take a bound on their steps,
and give back the text with the rest.
-/

namespace CanonTree.Toml

/-- The character may stand in a text or comment: a tab, or no control. -/
def isTextChar (c : Char) : Bool :=
  c = '\t' || (0x20 ≤ c.toNat && c.toNat ≠ 0x7F)

def isSpace (c : Char) : Bool :=
  c = ' ' || c = '\t'

def skipSpace (source : List Char) : List Char :=
  source.dropWhile isSpace

def afterNewline? : List Char → Option (List Char)
  | '\n' :: rest => some rest
  | '\r' :: '\n' :: rest => some rest
  | _ => none

/-- The character whose code point is given by exactly `count` hexadecimal digits. -/
def readCodePoint? (count : Nat) (source : List Char) : Option (Char × List Char) :=
  let digits := source.take count
  if digits.length < count then none
  else
    match Text.hexValue? digits with
    | none => none
    | some code => if code.isValidChar then some (Char.ofNat code, source.drop count) else none

def readEscape? : List Char → Option (Char × List Char)
  | 'b' :: rest => some ('\x08', rest)
  | 't' :: rest => some ('\t', rest)
  | 'n' :: rest => some ('\n', rest)
  | 'f' :: rest => some ('\x0c', rest)
  | 'r' :: rest => some ('\r', rest)
  | 'e' :: rest => some ('\x1b', rest)
  | '"' :: rest => some ('"', rest)
  | '\\' :: rest => some ('\\', rest)
  | 'x' :: rest => readCodePoint? 2 rest
  | 'u' :: rest => readCodePoint? 4 rest
  | 'U' :: rest => readCodePoint? 8 rest
  | _ => none

def readBasic? : Nat → List Char → Option (List Char × List Char)
  | 0, _ => none
  | _, [] => none
  | fuel + 1, c :: rest =>
      if c = '"' then some ([], rest)
      else if c = '\\' then
        match readEscape? rest with
        | none => none
        | some (c, rest) => (readBasic? fuel rest).map fun (text, rest) => (c :: text, rest)
      else if isTextChar c then
        (readBasic? fuel rest).map fun (text, rest) => (c :: text, rest)
      else none

def readLiteral? (source : List Char) : Option (List Char × List Char) :=
  match source.span fun c => isTextChar c && c ≠ '\'' with
  | (text, '\'' :: rest) => some (text, rest)
  | _ => none

def skipLines : Nat → List Char → List Char
  | 0, source => source
  | fuel + 1, source =>
      match afterNewline? (skipSpace source) with
      | some rest => skipLines fuel rest
      | none => skipSpace source

/-- A text over several lines up to three quotes.  One or two more quotes before them belong to
the text.  In basic texts a backslash at the end of a line takes all blanks and line ends after
it away. -/
def readLines? (quote : Char) : Nat → List Char → Option (List Char × List Char)
  | 0, _ => none
  | _, [] => none
  | fuel + 1, c :: rest =>
      if c = quote then
        let (more, rest) := rest.span (· = quote)
        match more.length with
        | 0 | 1 =>
            (readLines? quote fuel rest).map fun (text, rest) => (c :: more ++ text, rest)
        | 2 => some ([], rest)
        | 3 => some ([quote], rest)
        | 4 => some ([quote, quote], rest)
        | _ => none
      else if c = '\\' && quote = '"' then
        match afterNewline? (skipSpace rest) with
        | some next => readLines? quote fuel (skipLines next.length next)
        | none =>
            match readEscape? rest with
            | none => none
            | some (c, rest) =>
                (readLines? quote fuel rest).map fun (text, rest) => (c :: text, rest)
      else
        match afterNewline? (c :: rest) with
        | some next => (readLines? quote fuel next).map fun (text, rest) => ('\n' :: text, rest)
        | none =>
            if isTextChar c then
              (readLines? quote fuel rest).map fun (text, rest) => (c :: text, rest)
            else none

/-- A text over several lines; a line end right after the opening quotes is not part of it. -/
def readMultiline? (quote : Char) (source : List Char) : Option (List Char × List Char) :=
  let body := (afterNewline? source).getD source
  readLines? quote (body.length + 1) body

end CanonTree.Toml
