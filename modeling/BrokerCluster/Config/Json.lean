import BrokerCluster.Config.Setting

/-!
# JSON documents

A strict reader of JSON into settings. A string may name characters by UTF-16
units; a surrogate without its partner makes the string improper, which matters
only where the string is used. A number with a fraction or an exponent is not
whole, and neither is `-0`.
-/
namespace BrokerCluster.Config.Json

def skipBlank (text : List Char) : List Char :=
  text.dropWhile fun c => c == ' ' || c == '\t' || c == '\n' || c == '\r'

/-- The character that a letter after a backslash stands for. -/
def escaped? : Char → Option Char
  | '"' => some '"'
  | '\\' => some '\\'
  | '/' => some '/'
  | 'b' => some '\x08'
  | 'f' => some '\x0c'
  | 'n' => some '\n'
  | 'r' => some '\r'
  | 't' => some '\t'
  | _ => none

/-- The code points and UTF-16 units of a string up to its closing quote, and the text after that. -/
def stringUnits? : Nat → List Char → Option (List Nat × List Char)
  | 0, _ => none
  | _, [] => none
  | _, '"' :: rest => some ([], rest)
  | fuel + 1, '\\' :: 'u' :: rest => do
    let (n, rest) ← Text.fixedNumber? 16 4 rest
    let (units, rest) ← stringUnits? fuel rest
    return (n :: units, rest)
  | fuel + 1, '\\' :: c :: rest => do
    let e ← escaped? c
    let (units, rest) ← stringUnits? fuel rest
    return (e.toNat :: units, rest)
  | fuel + 1, c :: rest => do
    guard (c.toNat ≥ 0x20 ∧ c ≠ '\\')
    let (units, rest) ← stringUnits? fuel rest
    return (c.toNat :: units, rest)

/-- Joins surrogate pairs; `none` if a surrogate is alone. -/
def joinUnits? : List Nat → Option (List Char)
  | [] => some []
  | n :: rest =>
    if 0xD800 ≤ n ∧ n < 0xDC00 then
      match rest with
      | [] => none
      | m :: rest =>
        if 0xDC00 ≤ m ∧ m < 0xE000 then
          (joinUnits? rest).map
            (Char.ofNat (0x10000 + (n - 0xD800) * 0x400 + (m - 0xDC00)) :: ·)
        else none
    else if 0xDC00 ≤ n ∧ n < 0xE000 then none
    else (joinUnits? rest).map (Char.ofNat n :: ·)

/-- The string whose opening quote was just read; the inner `none` says that it is improper. -/
def string? (text : List Char) : Option (Option String × List Char) := do
  let (units, rest) ← stringUnits? (text.length + 1) text
  return ((joinUnits? units).map String.ofList, rest)

/-- One or more digits, and the text after them. -/
def digits? (text : List Char) : Option (List Char × List Char) :=
  match text.span Char.isDigit with
  | ([], _) => none
  | (digits, rest) => some (digits, rest)

def fraction? : List Char → Option (Bool × List Char)
  | '.' :: rest => (digits? rest).map fun (_, rest) => (true, rest)
  | rest => some (false, rest)

def exponent? (text : List Char) : Option (Bool × List Char) :=
  match text with
  | c :: rest =>
    if c = 'e' ∨ c = 'E' then
      let unsigned :=
        match rest with
        | '+' :: rest => rest
        | '-' :: rest => rest
        | rest => rest
      (digits? unsigned).map fun (_, rest) => (true, rest)
    else some (false, text)
  | [] => some (false, text)

/-- A number without its sign: the value if it is whole, and the text after it. -/
def magnitude? (text : List Char) : Option (Option Nat × List Char) := do
  let (digits, rest) ← digits? text
  guard (digits.head? ≠ some '0' ∨ digits.length = 1)
  let (hasFraction, rest) ← fraction? rest
  let (hasExponent, rest) ← exponent? rest
  return (if hasFraction || hasExponent then none else Text.natural? digits, rest)

def number? : List Char → Option (Setting × List Char)
  | '-' :: text => do
    let (value, rest) ← magnitude? text
    match value with
    | none | some 0 => return (.fraction, rest)
    | some n => return (.whole (-Int.ofNat n), rest)
  | text => do
    let (value, rest) ← magnitude? text
    match value with
    | none => return (.fraction, rest)
    | some n => return (.whole n, rest)

/-- The text after a word that must stand there. -/
def word? (word : String) (text : List Char) : Option (List Char) :=
  if word.toList.isPrefixOf text then some (text.drop word.length) else none

mutual

def value? : Nat → List Char → Option (Setting × List Char)
  | 0, _ => none
  | fuel + 1, text =>
    match skipBlank text with
    | [] => none
    | '"' :: rest => do
      let (string, rest) ← string? rest
      return (.text string, rest)
    | '[' :: rest =>
      match skipBlank rest with
      | ']' :: rest => some (.list [], rest)
      | rest => do
        let (items, rest) ← items? fuel rest
        return (.list items, rest)
    | '\x7b' :: rest =>
      match skipBlank rest with
      | '\x7d' :: rest => some (.table [], rest)
      | rest => do
        let (entries, rest) ← entries? fuel rest
        return (.table entries, rest)
    | 't' :: rest => (word? "rue" rest).map fun rest => (.truth true, rest)
    | 'f' :: rest => (word? "alse" rest).map fun rest => (.truth false, rest)
    | 'n' :: rest => (word? "ull" rest).map fun rest => (.nothing, rest)
    | text => number? text

/-- The items of a list, of which there is at least one, up to its end. -/
def items? : Nat → List Char → Option (List Setting × List Char)
  | 0, _ => none
  | fuel + 1, text => do
    let (item, rest) ← value? fuel text
    match skipBlank rest with
    | ',' :: rest =>
      let (items, rest) ← items? fuel rest
      return (item :: items, rest)
    | ']' :: rest => return ([item], rest)
    | _ => none

/-- The entries of an object, of which there is at least one, up to its end. -/
def entries? : Nat → List Char → Option (List (Option String × Setting) × List Char)
  | 0, _ => none
  | fuel + 1, text =>
    match skipBlank text with
    | '"' :: rest => do
      let (name, rest) ← string? rest
      match skipBlank rest with
      | ':' :: rest =>
        let (setting, rest) ← value? fuel rest
        match skipBlank rest with
        | ',' :: rest =>
          let (entries, rest) ← entries? fuel rest
          return ((name, setting) :: entries, rest)
        | '\x7d' :: rest => return ([(name, setting)], rest)
        | _ => none
      | _ => none
    | _ => none

end

def document? (text : String) : Option Setting := do
  let text := text.toList
  let (setting, rest) ← value? (2 * text.length + 2) text
  guard (skipBlank rest = [])
  return setting

end BrokerCluster.Config.Json
