/-!
# Places in a YAML text

A cursor is the rest of a text with the line and the column where it starts;
indentation is measured in columns. Lines end in any of five breaks, and most of
them are read as a line feed.
-/
namespace BrokerCluster.Config.Yaml

def isBreak (c : Char) : Bool :=
  c == '\n' || c == '\r' || c == '\u0085' || c == '\u2028' || c == '\u2029'

/-- A space or a tab. -/
def isBlank (c : Char) : Bool := c == ' ' || c == '\t'

def isSpace (c : Char) : Bool := isBlank c || isBreak c

/-- Whether a word ends where this character, or the end of the text, stands. -/
def endsWord : Option Char → Bool
  | none => true
  | some c => isSpace c

/-- What a line break is read as: the separators of lines and paragraphs stand for themselves. -/
def readBreak (c : Char) : Char := if c == '\u2028' || c == '\u2029' then c else '\n'

/-- A letter, digit, hyphen or underscore. -/
def isNameChar (c : Char) : Bool := c.isAlphanum || c == '-' || c == '_'

/-- The characters that a YAML text may hold. -/
def isAllowed (c : Char) : Bool :=
  c == '\t' || c == '\n' || c == '\r' || c == '\u0085' || ('\x20' ≤ c && c ≤ '\x7e') ||
    ('\u00a0' ≤ c && c ≤ '\ufffd') || 0x10000 ≤ c.toNat

structure Cursor where
  /-- The text from here on. -/
  rest : List Char
  /-- The number of characters before it. -/
  index : Nat := 0
  line : Nat := 0
  column : Nat := 0
  deriving Repr

namespace Cursor

/-- The character at a distance from here. -/
def at? (c : Cursor) (distance : Nat) : Option Char := c.rest[distance]?

def stands (c : Cursor) (char : Char) : Bool := c.at? 0 == some char

/-- Whether a word ends at a distance from here. -/
def endsAt (c : Cursor) (distance : Nat) : Bool := endsWord (c.at? distance)

/-- The place `n` characters of the same line further on. -/
def advance (c : Cursor) (n : Nat) : Cursor :=
  { c with rest := c.rest.drop n, index := c.index + n, column := c.column + n }

/-- The start of the next line and what the break before it is read as, if a break stands here. -/
def nextLine? (c : Cursor) : Option (Char × Cursor) :=
  match c.rest with
  | '\r' :: '\n' :: rest => some ('\n', ⟨rest, c.index + 2, c.line + 1, 0⟩)
  | b :: rest => if isBreak b then some (readBreak b, ⟨rest, c.index + 1, c.line + 1, 0⟩) else none
  | [] => none

/-- The characters of this line that satisfy `p`, and the place after them. -/
def span (p : Char → Bool) (c : Cursor) : List Char × Cursor :=
  let run := c.rest.takeWhile fun x => !isBreak x && p x
  (run, c.advance run.length)

/-- The place after the characters of this line that satisfy `p`. -/
def skip (p : Char → Bool) (c : Cursor) : Cursor := (c.span p).2

/-- The place after this line's comment, if one stands here. -/
def skipComment (c : Cursor) : Cursor := if c.stands '#' then c.skip fun _ => true else c

/-- Whether the line consists of three times this character, as a word of its own. -/
def standsThrice (c : Cursor) (char : Char) : Bool :=
  c.column == 0 && c.rest.take 3 == [char, char, char] && c.endsAt 3

/-- Whether the start or the end of a document is marked here. -/
def atMarker (c : Cursor) : Bool := c.standsThrice '-' || c.standsThrice '.'

/-- The start of the next line, after nothing but blanks and a comment; the place itself at the end. -/
def lineEnd? (c : Cursor) : Option Cursor :=
  let c := (c.skip isBlank).skipComment
  if c.rest.isEmpty then some c else c.nextLine?.map (·.2)

end Cursor

end BrokerCluster.Config.Yaml
