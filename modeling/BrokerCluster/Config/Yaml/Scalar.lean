import BrokerCluster.Config.Yaml.Cursor
import BrokerCluster.Text.Digits

/-!
# Scalars in YAML

Plain, quoted and block scalars. White space inside a plain or quoted scalar is
kept within a line and folded over lines: a single line break becomes a space,
and of several the first is dropped. Every reader starts at the scalar's first
character and gives the text and the place after it, or nothing if the scalar is
malformed.
-/
namespace BrokerCluster.Config.Yaml

/-- The text that line breaks between two words become. -/
def foldBreaks : List Char → List Char
  | [] => []
  | first :: others =>
    if first = '\n' then if others = [] then [' '] else others else first :: others

/-- The line breaks from here on, with blanks about them, and the place after; refuses a tab that stands
after a break and before column `indent`. -/
def breaks? (indent : Nat) : Nat → Cursor → Option (List Char × Cursor)
  | 0, _ => none
  | fuel + 1, c =>
    match c.nextLine? with
    | none => some ([], c)
    | some (b, c) => do
      let margin := c.skip (· == ' ')
      guard (!(margin.stands '\t' && margin.column < indent))
      let (others, c) ← breaks? indent fuel (c.skip isBlank)
      return (b :: others, c)

/-- The white space between two words of a scalar, whether it has line breaks, and the place after
it. -/
def gap? (indent : Nat) (c : Cursor) : Option (List Char × Bool × Cursor) := do
  let (blanks, after) := c.span isBlank
  let (breaks, c) ← breaks? indent (after.rest.length + 1) after
  return (if breaks = [] then blanks else foldBreaks breaks, !breaks.isEmpty, c)

/-- The characters of a plain scalar up to white space or its end. Within brackets it also ends at a
bracket or a comma, and a colon right before one is refused. -/
def plainRun? (inFlow : Bool) : List Char → Option (List Char)
  | [] => some []
  | c :: rest =>
    if isSpace c then some []
    else if inFlow && c == ':' && rest.head?.any (",?[]\x7b\x7d".contains ·) then none
    else if c == ':' && endsWord rest.head? then some []
    else if inFlow && ",[]\x7b\x7d".contains c then some []
    else (plainRun? inFlow rest).map (c :: ·)

/-- A plain scalar from the start of a word on, whether a line break was passed after its last word, and
the place after it. Outside brackets it ends before a line that starts left of column `indent`. -/
def plainWords? (inFlow : Bool) (indent : Nat) : Nat → Cursor → Option (List Char × Bool × Cursor)
  | 0, _ => none
  | fuel + 1, c =>
    if c.atMarker || c.stands '#' then some ([], false, c)
    else do
      let run ← plainRun? inFlow c.rest
      let c := c.advance run.length
      if run = [] ∨ !c.endsAt 0 ∨ c.rest = [] then return (run, false, c)
      let (space, broken, c) ← gap? indent c
      if !inFlow && c.column < indent then return (run, broken, c)
      let (more, brokenLater, c) ← plainWords? inFlow indent fuel c
      if more = [] then return (run, broken, c)
      return (run ++ space ++ more, brokenLater, c)

/-- A plain scalar, whether a line break was passed after it, and the place after it. -/
def plain? (inFlow : Bool) (indent : Nat) (c : Cursor) : Option (List Char × Bool × Cursor) :=
  plainWords? inFlow indent (c.rest.length + 1) c

/-- The character that an escape stands for, after its backslash, and the length of the escape. -/
def escape? : List Char → Option (Char × Nat)
  | '0' :: _ => some ('\x00', 1)
  | 'a' :: _ => some ('\x07', 1)
  | 'b' :: _ => some ('\x08', 1)
  | 't' :: _ => some ('\t', 1)
  | '\t' :: _ => some ('\t', 1)
  | 'n' :: _ => some ('\n', 1)
  | 'v' :: _ => some ('\x0b', 1)
  | 'f' :: _ => some ('\x0c', 1)
  | 'r' :: _ => some ('\r', 1)
  | 'e' :: _ => some ('\x1b', 1)
  | ' ' :: _ => some (' ', 1)
  | '"' :: _ => some ('"', 1)
  | '/' :: _ => some ('/', 1)
  | '\\' :: _ => some ('\\', 1)
  | 'N' :: _ => some ('\u0085', 1)
  | '_' :: _ => some ('\u00a0', 1)
  | 'L' :: _ => some ('\u2028', 1)
  | 'P' :: _ => some ('\u2029', 1)
  | 'x' :: rest => (hex? 2 rest).map fun c => (c, 3)
  | 'u' :: rest => (hex? 4 rest).map fun c => (c, 5)
  | 'U' :: rest => (hex? 8 rest).map fun c => (c, 9)
  | _ => none
where
  /-- The character with a code point of `n` hexadecimal digits. -/
  hex? (n : Nat) (text : List Char) : Option Char := do
    let (value, _) ← Text.fixedNumber? 16 n text
    Text.scalar? value

/-- The characters of a quoted scalar up to white space or its closing quote, and whether they end in a
line break that is escaped. -/
def quotedRun? (quote : Char) : Nat → Cursor → Option (List Char × Bool × Cursor)
  | 0, _ => none
  | fuel + 1, c =>
    match c.rest with
    | [] => some ([], false, c)
    | x :: rest =>
      if isSpace x then some ([], false, c)
      else if x = quote then
        if quote = '\'' ∧ rest.head? = some '\'' then do
          let (run, joined, c) ← quotedRun? quote fuel (c.advance 2)
          return (x :: run, joined, c)
        else some ([], false, c)
      else if x = '\\' ∧ quote = '"' then
        match (c.advance 1).nextLine? with
        | some (_, c) => some ([], true, c)
        | none => do
          let (e, length) ← escape? rest
          let (run, joined, c) ← quotedRun? quote fuel (c.advance (length + 1))
          return (e :: run, joined, c)
      else do
        let (run, joined, c) ← quotedRun? quote fuel (c.advance 1)
        return (x :: run, joined, c)

/-- A quoted scalar up to its closing quote. It runs over the marks of documents only inside a line. -/
def quotedWords? (quote : Char) : Nat → Cursor → Option (List Char × Cursor)
  | 0, _ => none
  | fuel + 1, c => do
    guard (!c.atMarker && !c.rest.isEmpty)
    let (run, joined, c) ← quotedRun? quote (c.rest.length + 1) c
    if c.stands quote then return (run, c.advance 1)
    let (space, c) ←
      if joined then
        let c := c.skip isBlank
        breaks? 0 (c.rest.length + 1) c
      else (gap? 0 c).map fun (space, _, c) => (space, c)
    let (more, c) ← quotedWords? quote fuel c
    return (run ++ space ++ more, c)

/-- A quoted scalar from its opening quote on. -/
def quoted? (quote : Char) (c : Cursor) : Option (List Char × Cursor) :=
  quotedWords? quote (c.rest.length + 1) (c.advance 1)

/-- Which of the line breaks at its end a block scalar keeps. -/
inductive Chomping where
  | none
  | first
  | all
  deriving DecidableEq, Repr

/-- The sign for chomping at the start of a text. -/
def chomping? : Option Char → Option Chomping
  | some '+' => some .all
  | some '-' => some .none
  | _ => none

/-- The digit for indentation at the start of a text; zero is refused. -/
def indentation? : Option Char → Option (Option Nat)
  | some '0' => none
  | some d => some (if d.isDigit then some (d.toNat - '0'.toNat) else none)
  | none => some none

/-- The header of a block scalar after its indicator: a sign and a digit, in any order, either of which
may be missing. -/
def blockHeader? (c : Cursor) : Option (Chomping × Option Nat × Cursor) := do
  match chomping? (c.at? 0) with
  | some chomping =>
    match ← indentation? (c.at? 1) with
    | some n => return (chomping, some n, ← (c.advance 2).lineEnd?)
    | none => return (chomping, none, ← (c.advance 1).lineEnd?)
  | none =>
    match ← indentation? (c.at? 0) with
    | some n =>
      match chomping? (c.at? 1) with
      | some chomping => return (chomping, some n, ← (c.advance 2).lineEnd?)
      | none => return (.first, some n, ← (c.advance 1).lineEnd?)
    | none => return (.first, none, ← c.lineEnd?)

/-- The empty lines from here on: their breaks, the largest column up to which spaces reach, and the
place of the next line's first character. Spaces are passed up to the indentation, or all if it is
not known yet, and no tab may stand before it. -/
def emptyLines? (indent : Option Nat) : Nat → Cursor → Option (List Char × Nat × Cursor)
  | 0, _ => none
  | fuel + 1, c => do
    let spaces := (c.span (· == ' ')).1.length
    let c := c.advance (match indent with | none => spaces | some n => min spaces (n - c.column))
    guard (!(c.stands '\t' && indent.all (c.column < ·)))
    match c.nextLine? with
    | none => return ([], c.column, c)
    | some (b, next) =>
      let (breaks, width, place) ← emptyLines? indent fuel next
      return (b :: breaks, max c.column width, place)

/-- The lines of a block scalar from the first character of one on, with the break before it, the
empty lines before it, and whether the line before began with a blank. A folded scalar folds a break
between two lines that both begin with no blank. -/
def blockLines? (folded : Bool) (chomping : Chomping) (indent : Nat) :
    Nat → (lead empty : List Char) → (leadBlank : Bool) → Cursor → Option (List Char × Cursor)
  | 0, _, _, _, _ => none
  | fuel + 1, lead, empty, leadBlank, c =>
    if c.column = indent ∧ c.rest ≠ [] then do
      let startsBlank := c.rest.head?.any isBlank
      let lead :=
        if folded ∧ lead.head? = some '\n' ∧ !leadBlank ∧ !startsBlank then
          if empty = [] then [' '] else []
        else lead
      let (line, c) := c.span fun _ => true
      let (ending, c) :=
        match c.nextLine? with
        | some (b, c) => ([b], c)
        | none => ([], c)
      let (laterEmpty, _, c) ← emptyLines? indent (c.rest.length + 1) c
      let (more, c) ← blockLines? folded chomping indent fuel ending laterEmpty startsBlank c
      return (lead ++ empty ++ line ++ more, c)
    else
      match chomping with
      | .none => some ([], c)
      | .first => some (lead, c)
      | .all => some (lead ++ empty, c)

/-- A block scalar from its indicator on. Without a digit its indentation is that of its first line, but
at least one column more than `parent`, the indentation of what it stands in. -/
def block? (folded : Bool) (parent : Int) (c : Cursor) : Option (List Char × Cursor) := do
  let (chomping, increment, c) ← blockHeader? (c.advance 1)
  let known := increment.map fun n => n + parent.toNat
  let (empty, width, c) ← emptyLines? known (c.rest.length + 1) c
  let indent := known.getD (max width (max (parent + 1).toNat 1))
  blockLines? folded chomping indent (c.rest.length + 1) [] empty false c

end BrokerCluster.Config.Yaml
