import BrokerCluster.Config.Toml.Lexical
import BrokerCluster.Config.Toml.Table

/-!
# TOML documents

A document is a run of sections. A section has a header, except the first, and
gives values to keys; its values are strings, numbers, truth values, dates,
lists and inline tables.
-/
namespace BrokerCluster.Config.Toml

mutual

/-- A value, with the number of lists and tables that may still be nested in it. -/
def value? : (fuel depth : Nat) → List Char → Option (Setting × List Char)
  | 0, _, _ => none
  | fuel + 1, depth, text =>
    match text with
    | '[' :: rest =>
      match depth with
      | 0 => none
      | depth + 1 => do
        let (settings, rest) ← items? fuel depth rest
        return (.list settings, rest)
    | '\x7b' :: rest =>
      match depth with
      | 0 => none
      | depth + 1 =>
        match skipBlank rest with
        | '\x7d' :: rest => some (.table [], rest)
        | rest => do
          let (pairs, rest) ← pairs? fuel depth rest
          let entries ← Entries.assignAll [] pairs
          return (.table (entrySettings entries), rest)
    | 't' :: _ => (after? "true" text).map fun rest => (.truth true, rest)
    | 'f' :: _ => (after? "false" text).map fun rest => (.truth false, rest)
    | '"' :: _ | '\'' :: _ =>
      (string? text).map fun (cs, rest) => (.text (String.ofList cs), rest)
    | _ => (dateTime? text).or (number? text)

/-- The items of a list up to its end; a comma may follow the last. -/
def items? : (fuel depth : Nat) → List Char → Option (List Setting × List Char)
  | 0, _, _ => none
  | fuel + 1, depth, text => do
    match ← skipLines (text.length + 1) text with
    | ']' :: rest => return ([], rest)
    | rest =>
      let (setting, rest) ← value? fuel depth rest
      match ← skipLines (rest.length + 1) rest with
      | ',' :: rest =>
        let (settings, rest) ← items? fuel depth rest
        return (setting :: settings, rest)
      | ']' :: rest => return ([setting], rest)
      | _ => none

/-- The keys and values of an inline table up to its end. -/
def pairs? : (fuel depth : Nat) → List Char → Option (List (List String × Setting) × List Char)
  | 0, _, _ => none
  | fuel + 1, depth, text => do
    let (key, rest) ← key? text
    match rest with
    | '=' :: rest =>
      let (setting, rest) ← value? fuel depth (skipBlank rest)
      match skipBlank rest with
      | ',' :: rest =>
        let (pairs, rest) ← pairs? fuel depth rest
        return ((key, setting) :: pairs, rest)
      | '\x7d' :: rest => return ([(key, setting)], rest)
      | _ => none
    | _ => none

end

/-- A line of a document that says something. -/
inductive Line where
  | table (key : List String)
  /-- The header of one more table in a list. -/
  | row (key : List String)
  /-- A key and its value. -/
  | pair (key : List String) (setting : Setting)

/-- The key of a header after its opening brackets, and the text after its line. -/
def header? (closing text : List Char) : Option (List String × List Char) := do
  let (key, rest) ← key? text
  guard (closing.isPrefixOf rest)
  let rest ← lineEnd? (rest.drop closing.length)
  return (key, rest)

/-- The next line that says something; `none` inside at the end of the text. -/
def line? (text : List Char) : Option (Option Line × List Char) :=
  match skipBlank text with
  | [] => some (none, [])
  | '#' :: rest => (lineEnd? ('#' :: rest)).map fun rest => (none, rest)
  | '[' :: '[' :: rest => (header? [']', ']'] rest).map fun (key, rest) => (some (.row key), rest)
  | '[' :: rest => (header? [']'] rest).map fun (key, rest) => (some (.table key), rest)
  | '\n' :: rest => some (none, rest)
  | '\r' :: rest => (newline? ('\r' :: rest)).map fun rest => (none, rest)
  | rest => do
    let (key, rest) ← key? rest
    let rest ← char? '=' rest
    let (setting, rest) ← value? (2 * rest.length + 2) (depthLimit - 1) (skipBlank rest)
    let rest ← lineEnd? rest
    return (some (.pair key setting), rest)

def lines? : Nat → List Char → Option (List Line)
  | 0, _ => none
  | fuel + 1, text => do
    let (line, rest) ← line? text
    let lines ← if rest = [] then pure [] else lines? fuel rest
    return line.toList ++ lines

/-- A header, which the first section lacks, and the pairs below it. -/
structure Section where
  header : Option Line
  pairs : List (List String × Setting)

def sections : List Line → List Section
  | [] => [⟨none, []⟩]
  | .pair key setting :: rest =>
    match sections rest with
    | ⟨none, pairs⟩ :: others => ⟨none, (key, setting) :: pairs⟩ :: others
    | others => others
  | header :: rest =>
    match sections rest with
    | ⟨none, pairs⟩ :: others => ⟨none, []⟩ :: ⟨some header, pairs⟩ :: others
    | others => others

def Section.add? (entries : Entries) (part : Section) : Option Entries :=
  let fill (inner : Entries) := inner.assignAll part.pairs
  match part.header with
  | some (.table key) => do entries.underHeader key.dropLast (← key.getLast?) (openTable fill)
  | some (.row key) => do entries.underHeader key.dropLast (← key.getLast?) (openRow fill)
  | _ => fill entries

def document? (text : String) : Option Setting := do
  let text :=
    match text.toList with
    | '\ufeff' :: rest => rest
    | rest => rest
  let lines ← lines? (text.length + 1) text
  let entries ← (sections lines).foldlM Section.add? []
  return .table (entrySettings entries)

end BrokerCluster.Config.Toml
