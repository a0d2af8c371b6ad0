import BrokerCluster.Config.Json

/-!
# The words of TOML

Blanks, comments, keys, strings, numbers and dates. Each reader takes the text
from where it stands and gives the text after what it read, or nothing if the
text does not begin that way.
-/
namespace BrokerCluster.Config.Toml

def skipBlank (text : List Char) : List Char := text.dropWhile fun c => c == ' ' || c == '\t'

def newline? : List Char → Option (List Char)
  | '\n' :: rest => some rest
  | '\r' :: '\n' :: rest => some rest
  | _ => none

/-- A character that may stand in a comment or a literal string. -/
def isPrintable (c : Char) : Bool := c == '\t' || (0x20 ≤ c.toNat && c.toNat ≠ 0x7F)

def skipComment : List Char → List Char
  | '#' :: rest => rest.dropWhile isPrintable
  | text => text

/-- The text after the rest of a line: blanks, a comment, and a line end or the end of the text. -/
def lineEnd? (text : List Char) : Option (List Char) :=
  match skipComment (skipBlank text) with
  | [] => some []
  | rest => newline? rest

/-- The text after blanks, line ends and comments, each comment with its line end. -/
def skipLines : Nat → List Char → Option (List Char)
  | 0, _ => none
  | fuel + 1, text =>
    match skipBlank text with
    | '#' :: rest => (newline? (rest.dropWhile isPrintable)).bind (skipLines fuel)
    | rest =>
      match newline? rest with
      | some rest => skipLines fuel rest
      | none => some rest

/-- The character that an escape after a backslash stands for. -/
def escape? : List Char → Option (Char × List Char)
  | 'b' :: rest => some ('\x08', rest)
  | 't' :: rest => some ('\t', rest)
  | 'n' :: rest => some ('\n', rest)
  | 'f' :: rest => some ('\x0c', rest)
  | 'r' :: rest => some ('\r', rest)
  | '"' :: rest => some ('"', rest)
  | '\\' :: rest => some ('\\', rest)
  | 'u' :: rest => do
    let (n, rest) ← Text.fixedNumber? 16 4 rest
    return (← Text.scalar? n, rest)
  | 'U' :: rest => do
    let (n, rest) ← Text.fixedNumber? 16 8 rest
    return (← Text.scalar? n, rest)
  | _ => none

/-- A one-line string with escapes, after its opening quote. -/
def basicString? : Nat → List Char → Option (List Char × List Char)
  | 0, _ => none
  | _, [] => none
  | _, '"' :: rest => some ([], rest)
  | fuel + 1, '\\' :: rest => do
    let (c, rest) ← escape? rest
    let (cs, rest) ← basicString? fuel rest
    return (c :: cs, rest)
  | fuel + 1, c :: rest => do
    guard (isPrintable c)
    let (cs, rest) ← basicString? fuel rest
    return (c :: cs, rest)

/-- A one-line string without escapes, after its opening quote. -/
def literalString? (text : List Char) : Option (List Char × List Char) :=
  match text.span fun c => isPrintable c && c != '\'' with
  | (cs, '\'' :: rest) => some (cs, rest)
  | _ => none

def skipSpace : List Char → List Char
  | [] => []
  | '\r' :: '\n' :: rest => skipSpace rest
  | c :: rest => if c == ' ' || c == '\t' || c == '\n' then skipSpace rest else c :: rest

/-- The text after a line break that a backslash takes out of a string, with the blanks that follow
it. -/
def joinedLine? (text : List Char) : Option (List Char) :=
  (newline? (skipBlank text)).map skipSpace

/-- Closing quotes of a string of several lines: the quotes that belong to it, and the text after
them. -/
def closing? (quote : Char) (text : List Char) : Option (List Char × List Char) :=
  match text.span (· == quote) with
  | (quotes, rest) =>
    if 3 ≤ quotes.length ∧ quotes.length ≤ 5 then some (quotes.drop 3, rest) else none

/-- A string of several lines, after its opening quotes. Only basic strings have escapes. -/
def longString? (quote : Char) : Nat → List Char → Option (List Char × List Char)
  | 0, _ => none
  | _, [] => none
  | fuel + 1, c :: rest =>
    if c = quote then
      match closing? quote (c :: rest) with
      | some closed => some closed
      | none => do
        guard (((c :: rest).takeWhile (· == quote)).length < 3)
        let (cs, rest) ← longString? quote fuel rest
        return (c :: cs, rest)
    else if c = '\\' ∧ quote = '"' then
      match joinedLine? rest with
      | some rest => longString? quote fuel rest
      | none => do
        let (e, rest) ← escape? rest
        let (cs, rest) ← longString? quote fuel rest
        return (e :: cs, rest)
    else
      match newline? (c :: rest) with
      | some rest => do
        let (cs, rest) ← longString? quote fuel rest
        return ('\n' :: cs, rest)
      | none => do
        guard (isPrintable c)
        let (cs, rest) ← longString? quote fuel rest
        return (c :: cs, rest)

def dropNewline (text : List Char) : List Char := (newline? text).getD text

/-- A string of any of the four forms. -/
def string? (text : List Char) : Option (List Char × List Char) :=
  match text with
  | '"' :: '"' :: '"' :: rest => longString? '"' (rest.length + 1) (dropNewline rest)
  | '\'' :: '\'' :: '\'' :: rest => longString? '\'' (rest.length + 1) (dropNewline rest)
  | '"' :: rest => basicString? (rest.length + 1) rest
  | '\'' :: rest => literalString? rest
  | _ => none

def isBareKey (c : Char) : Bool := c.isAlphanum || c == '_' || c == '-'

def keyPart? (text : List Char) : Option (String × List Char) :=
  match text with
  | '"' :: rest => (basicString? (rest.length + 1) rest).map fun (cs, rest) => (String.ofList cs, rest)
  | '\'' :: rest => (literalString? rest).map fun (cs, rest) => (String.ofList cs, rest)
  | _ =>
    match text.span isBareKey with
    | ([], _) => none
    | (cs, rest) => some (String.ofList cs, rest)

/-- The parts of a key between its dots, blanks around them left out. -/
def keyParts? : Nat → List Char → Option (List String × List Char)
  | 0, _ => none
  | fuel + 1, text => do
    let (part, rest) ← keyPart? (skipBlank text)
    match skipBlank rest with
    | '.' :: rest =>
      let (parts, rest) ← keyParts? fuel rest
      return (part :: parts, rest)
    | rest => return ([part], rest)

/-- How deep keys and values may nest. -/
def depthLimit : Nat := 80

/-- A key: fewer parts than the depth limit. -/
def key? (text : List Char) : Option (List String × List Char) :=
  (keyParts? (text.length + 1) text).filter fun (parts, _) => parts.length < depthLimit

/-- Digits of a base with single underscores between them, which are left out. -/
def spacedDigits? (base : Nat) : Nat → List Char → Option (List Char × List Char)
  | 0, _ => none
  | fuel + 1, c :: rest => do
    guard (Text.baseDigit? base c).isSome
    match rest with
    | '_' :: more =>
      let (cs, rest) ← spacedDigits? base fuel more
      return (c :: cs, rest)
    | d :: _ =>
      if (Text.baseDigit? base d).isSome then
        let (cs, rest) ← spacedDigits? base fuel rest
        return (c :: cs, rest)
      else return ([c], rest)
    | [] => return ([c], [])
  | _, [] => none

/-- The digits of a whole number in base ten: no leading zero. -/
def wholeDigits? (text : List Char) : Option (List Char × List Char) :=
  match text with
  | '0' :: rest => some (['0'], rest)
  | text => spacedDigits? 10 (text.length + 1) text

/-- Whether a number is below zero, and the text after its sign. -/
def sign : List Char → Bool × List Char
  | '+' :: rest => (false, rest)
  | '-' :: rest => (true, rest)
  | rest => (false, rest)

/-- The digits of a fraction; empty if there is none. -/
def fraction? : List Char → Option (List Char × List Char)
  | '.' :: rest => spacedDigits? 10 (rest.length + 1) rest
  | rest => some ([], rest)

/-- The exponent of a number; `none` inside if there is none. -/
def exponent? (text : List Char) : Option (Option Int × List Char) :=
  match text with
  | c :: rest =>
    if c = 'e' ∨ c = 'E' then do
      let (negative, rest) := sign rest
      let (digits, rest) ← spacedDigits? 10 (rest.length + 1) rest
      let n : Int := (Text.natural? digits).getD 0
      return (some (if negative then -n else n), rest)
    else some (none, text)
  | [] => some (none, [])

/-- Whether digits, the last `places` of them a fraction, times a power of ten stay below the limit
at which a number rounds to infinity. -/
def isFinite (digits : List Char) (places : Nat) (exponent : Int) : Bool :=
  let n := (Text.natural? digits).getD 0
  let shift := exponent - places
  if n = 0 then true
  else if shift + digits.length < 300 then true
  else if shift > 400 then false
  else
    let limit := Nat.pow 2 1024 - Nat.pow 2 970
    let scale := Nat.pow 10 shift.natAbs
    if 0 ≤ shift then n * scale < limit else n < limit * scale

/-- A number in base ten; a number too large to be finite is refused unless it is negative. -/
def decimal? (text : List Char) : Option (Setting × List Char) := do
  let (negative, rest) := sign text
  let (digits, rest) ← wholeDigits? rest
  let (places, rest) ← fraction? rest
  let (power, rest) ← exponent? rest
  if places = [] ∧ power = none then
    let n : Int := (Text.natural? digits).getD 0
    let value ← Text.int64OfInt? (if negative then -n else n)
    return (.whole value.toInt, rest)
  else
    guard (negative ∨ isFinite (digits ++ places) places.length (power.getD 0))
    return (.fraction, rest)

/-- A number without sign in the base that its second character names. -/
def based? (base : Nat) (text : List Char) : Option (Setting × List Char) := do
  let (digits, rest) ← spacedDigits? base (text.length + 1) text
  let n ← Text.baseNumber? base digits
  let value ← Text.int64OfInt? n
  return (.whole value.toInt, rest)

def after? (word : String) (text : List Char) : Option (List Char) := Json.word? word text

/-- A number, an infinity or no number at all. -/
def number? (text : List Char) : Option (Setting × List Char) :=
  match text with
  | '0' :: 'x' :: rest => based? 16 rest
  | '0' :: 'o' :: rest => based? 8 rest
  | '0' :: 'b' :: rest => based? 2 rest
  | _ =>
    let special := (after? "inf" (sign text).2).or (after? "nan" (sign text).2)
    match special with
    | some rest => some (.fraction, rest)
    | none => decimal? text

/-- The text after one character. -/
def char? (c : Char) : List Char → Option (List Char)
  | d :: rest => if d = c then some rest else none
  | [] => none

def daysIn (year month : Nat) : Nat :=
  if month = 2 then
    if year % 4 = 0 ∧ (year % 100 ≠ 0 ∨ year % 400 = 0) then 29 else 28
  else if month = 4 ∨ month = 6 ∨ month = 9 ∨ month = 11 then 30
  else 31

def date? (text : List Char) : Option (List Char) := do
  let (year, rest) ← Text.fixedNumber? 10 4 text
  let rest ← char? '-' rest
  let (month, rest) ← Text.fixedNumber? 10 2 rest
  let rest ← char? '-' rest
  let (day, rest) ← Text.fixedNumber? 10 2 rest
  guard (1 ≤ month ∧ month ≤ 12 ∧ 1 ≤ day ∧ day ≤ daysIn year month)
  return rest

def hourMinute? (text : List Char) : Option (List Char) := do
  let (hour, rest) ← Text.fixedNumber? 10 2 text
  let rest ← char? ':' rest
  let (minute, rest) ← Text.fixedNumber? 10 2 rest
  guard (hour ≤ 23 ∧ minute ≤ 59)
  return rest

def time? (text : List Char) : Option (List Char) := do
  let rest ← hourMinute? text
  let rest ← char? ':' rest
  let (second, rest) ← Text.fixedNumber? 10 2 rest
  guard (second ≤ 60)
  match rest with
  | '.' :: rest => (Json.digits? rest).map (·.2)
  | rest => return rest

/-- The text after the offset of a time, if there is one. -/
def skipOffset (text : List Char) : List Char :=
  match text with
  | 'Z' :: rest => rest
  | 'z' :: rest => rest
  | '+' :: rest => (hourMinute? rest).getD text
  | '-' :: rest => (hourMinute? rest).getD text
  | _ => text

def dateTime? (text : List Char) : Option (Setting × List Char) :=
  match date? text with
  | some rest =>
    let time :=
      match rest with
      | c :: more => if c = 'T' ∨ c = 't' ∨ c = ' ' then time? more else none
      | [] => none
    match time with
    | some rest => some (.date, skipOffset rest)
    | none => some (.date, rest)
  | none => (time? text).map fun rest => (.date, rest)

end BrokerCluster.Config.Toml
