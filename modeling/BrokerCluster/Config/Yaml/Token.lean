import BrokerCluster.Config.Yaml.Scalar
import BrokerCluster.Text.Utf8

/-!
# Tokens of YAML

A token stands for an indicator, a name, a scalar, or the start or the end of an
indented block. Blocks are seen from the columns: an indicator right of the
current indentation opens one, and anything left of it closes one. That a scalar
or a bracket is a key is known only at the colon after it, so the place of every
possible key is kept until then, and the tokens that announce the key are put in
there.
-/
namespace BrokerCluster.Config.Yaml

inductive Token where
  /-- A version, of which each document may state one; whether it is supported. -/
  | version (supported : Bool)
  | shorthand (handle tagPrefix : String)
  | documentStart
  | documentEnd
  | sequenceStart
  | mappingStart
  | blockEnd
  | listOpen
  | listClose
  | braceOpen
  | braceClose
  | item
  | comma
  | key
  | value
  | alias (name : String)
  | anchor (name : String)
  | tag (handle suffix : String)
  | plain (text : String)
  /-- A quoted or folded scalar. -/
  | quoted (text : String)
  | literal (text : String)
  deriving DecidableEq, Repr

/-- A place where a key may have begun. -/
structure PossibleKey where
  /-- The number of tokens before it. -/
  number : Nat
  place : Cursor
  /-- The block ends here unless this is a key. -/
  required : Bool

/-- How much of a text has been cut into tokens. -/
structure Lexing where
  cursor : Cursor
  /-- The column of the current block, -1 outside all. -/
  indent : Int := -1
  /-- The columns of the blocks around it. -/
  outerIndents : List Int := []
  /-- Whether a key may begin here. -/
  keyAllowed : Bool := true
  /-- The place of the possible key, if any, within the current bracket. -/
  possibleKey : Option PossibleKey := none
  /-- The same for each bracket around it and for what is around all brackets. -/
  outerKeys : List (Option PossibleKey) := []
  /-- The tokens found, the latest first. -/
  found : List Token := []
  /-- Their number. -/
  count : Nat := 0

namespace Lexing

/-- Whether the place is within brackets, where columns mean nothing. -/
def inFlow (s : Lexing) : Bool := !s.outerKeys.isEmpty

def push (s : Lexing) (token : Token) : Lexing :=
  { s with found := token :: s.found, count := s.count + 1 }

/-- One more token, put in so that `number` tokens are before it. -/
def insert (s : Lexing) (number : Nat) (token : Token) : Lexing :=
  let later := s.count - number
  { s with found := s.found.take later ++ token :: s.found.drop later, count := s.count + 1 }

/-- Opens a block at a column right of the current one; `number` tokens are before it. -/
def openBlock (s : Lexing) (column number : Nat) (token : Token) : Lexing :=
  if !s.inFlow && s.indent < column then
    { s.insert number token with indent := column, outerIndents := s.indent :: s.outerIndents }
  else s

/-- Closes blocks until the current one is not right of a column. -/
def closeBlocks (column : Int) (s : Lexing) : Lexing :=
  if s.inFlow then s else close s.outerIndents s
where
  /-- Closes blocks, given the columns of those around the current one. -/
  close : List Int → Lexing → Lexing
    | [], s => s
    | outer :: rest, s =>
      if column < s.indent then
        close rest { s.push .blockEnd with indent := outer, outerIndents := rest }
      else s

/-- Whether a possible key is too far back: it must be on this line and at most 1024 characters away. -/
def isStale (c : Cursor) (key : PossibleKey) : Bool :=
  key.place.line < c.line || key.place.index + 1024 < c.index

/-- A possible key unless it is too far back; a required one must not be. -/
def fresh? (c : Cursor) : Option PossibleKey → Option (Option PossibleKey)
  | some key => if isStale c key then if key.required then none else some none else some (some key)
  | none => some none

/-- Gives up possible keys that are too far back. -/
def dropStale? (s : Lexing) : Option Lexing := do
  let possibleKey ← fresh? s.cursor s.possibleKey
  let outerKeys ← s.outerKeys.mapM (fresh? s.cursor)
  return { s with possibleKey, outerKeys }

/-- Gives up the possible key; a required one must not be. -/
def dropKey? (s : Lexing) : Option Lexing :=
  if s.possibleKey.any (·.required) then none else some { s with possibleKey := none }

/-- Keeps this place as one where a key may have begun. -/
def markKey? (s : Lexing) : Option Lexing :=
  if s.keyAllowed then do
    let required := !s.inFlow && s.indent == s.cursor.column
    let s ← s.dropKey?
    return { s with possibleKey := some ⟨s.count, s.cursor, required⟩ }
  else some s

/-- Adds a token of `n` characters. -/
def take (s : Lexing) (n : Nat) (token : Token) : Lexing :=
  { s.push token with cursor := s.cursor.advance n }

def documentMark? (s : Lexing) (token : Token) : Option Lexing := do
  let s ← (s.closeBlocks (-1)).dropKey?
  return { s.take 3 token with keyAllowed := false }

def openFlow? (s : Lexing) (token : Token) : Option Lexing := do
  let s ← s.markKey?
  return { s.take 1 token with
    keyAllowed := true, possibleKey := none, outerKeys := s.possibleKey :: s.outerKeys }

def closeFlow? (s : Lexing) (token : Token) : Option Lexing := do
  let s ← s.dropKey?
  let s := { s.take 1 token with keyAllowed := false }
  match s.outerKeys with
  | [] => return s
  | possibleKey :: outerKeys => return { s with possibleKey, outerKeys }

def comma? (s : Lexing) : Option Lexing := do
  let s ← s.dropKey?
  return { s.take 1 .comma with keyAllowed := true }

def item? (s : Lexing) : Option Lexing := do
  guard (s.inFlow || s.keyAllowed)
  let s ← (s.openBlock s.cursor.column s.count .sequenceStart).dropKey?
  return { s.take 1 .item with keyAllowed := true }

def key? (s : Lexing) : Option Lexing := do
  guard (s.inFlow || s.keyAllowed)
  let s ← (s.openBlock s.cursor.column s.count .mappingStart).dropKey?
  return { s.take 1 .key with keyAllowed := !s.inFlow }

def value? (s : Lexing) : Option Lexing :=
  match s.possibleKey with
  | some key =>
    let s := (s.insert key.number .key).openBlock key.place.column key.number .mappingStart
    some { s.take 1 .value with possibleKey := none, keyAllowed := false }
  | none => do
    guard (s.inFlow || s.keyAllowed)
    let s := s.openBlock s.cursor.column s.count .mappingStart
    return { s.take 1 .value with keyAllowed := !s.inFlow }

/-- The name of an anchor or an alias, after its indicator. -/
def name? (s : Lexing) (token : String → Token) : Option Lexing := do
  let s ← s.markKey?
  let (name, c) := (s.cursor.advance 1).span isNameChar
  guard (!name.isEmpty && (c.endsAt 0 || "?:,]\x7d%@\x60".toList.any c.stands))
  return { s.push (token (String.ofList name)) with cursor := c, keyAllowed := false }

def block? (s : Lexing) (folded : Bool) : Option Lexing := do
  let s ← s.dropKey?
  let (text, c) ← Yaml.block? folded s.indent s.cursor
  let text := String.ofList text
  return { s.push (if folded then .quoted text else .literal text) with cursor := c, keyAllowed := true }

def quoted? (s : Lexing) (quote : Char) : Option Lexing := do
  let s ← s.markKey?
  let (text, c) ← Yaml.quoted? quote s.cursor
  return { s.push (.quoted (String.ofList text)) with cursor := c, keyAllowed := false }

/-- A plain scalar. A key may begin after it if a line ended there. -/
def plain? (s : Lexing) : Option Lexing := do
  let s ← s.markKey?
  let (text, broken, c) ← Yaml.plain? s.inFlow (s.indent + 1).toNat s.cursor
  return { s.push (.plain (String.ofList text)) with cursor := c, keyAllowed := broken }

/-- Whether a character may stand in a tag; brackets and commas only where a tag is complete. -/
def isTagChar (complete : Bool) (c : Char) : Bool :=
  isNameChar c || ";/?:@&=+$.!~*'()".contains c || (complete && ",[]".contains c)

/-- The byte that a percent sign and two digits stand for. -/
def tagByte? (c : Cursor) : Option (UInt8 × Cursor) := do
  guard (c.stands '%')
  let (n, _) ← Text.fixedNumber? 16 2 (c.advance 1).rest
  return (n.toUInt8, c.advance 3)

/-- The length of the encoding that begins with a byte. -/
def encodingLength? (b : UInt8) : Option Nat :=
  if b &&& 0x80 = 0 then some 1
  else if b &&& 0xE0 = 0xC0 then some 2
  else if b &&& 0xF0 = 0xE0 then some 3
  else if b &&& 0xF8 = 0xF0 then some 4
  else none

/-- A character written as bytes with percent signs. -/
def tagEscape? (c : Cursor) : Option (List UInt8 × Cursor) := do
  let (first, c) ← tagByte? c
  more (← encodingLength? first) [first] c
where
  /-- The rest of `n` bytes, the first of which are known. -/
  more : Nat → List UInt8 → Cursor → Option (List UInt8 × Cursor)
    | n + 2, bytes, c => do
      let (b, c) ← tagByte? c
      guard (b &&& 0xC0 = 0x80)
      more (n + 1) (bytes ++ [b]) c
    | _, bytes, c => some (bytes, c)

def tagText? (complete : Bool) : Nat → Cursor → Option (List UInt8 × Cursor)
  | 0, _ => none
  | fuel + 1, c =>
    match c.rest with
    | [] => some ([], c)
    | x :: _ =>
      if x = '%' then do
        let (bytes, c) ← tagEscape? c
        let (more, c) ← tagText? complete fuel c
        return (bytes ++ more, c)
      else if isTagChar complete x then do
        let (more, c) ← tagText? complete fuel (c.advance 1)
        return (Text.encode (String.singleton x) ++ more, c)
      else some ([], c)

def tagString? (complete : Bool) (c : Cursor) : Option (String × Cursor) :=
  (tagText? complete (c.rest.length + 1) c).map fun (bytes, c) => (Text.decodeLossy bytes, c)

/-- An exclamation mark and the name after it, with a second mark if one follows. -/
def handle? (c : Cursor) : Option (String × Cursor) := do
  guard (c.stands '!')
  let (name, c) := (c.advance 1).span isNameChar
  let closed := c.stands '!'
  return (String.ofList ('!' :: name ++ if closed then ['!'] else []), if closed then c.advance 1 else c)

/-- A tag: complete between angle brackets, or a handle and the rest. -/
def tagToken? (c : Cursor) : Option (Token × Cursor) := do
  if c.at? 1 = some '<' then
    let (text, c) ← tagString? true (c.advance 2)
    guard (text ≠ "" ∧ c.stands '>')
    return (.tag "" text, c.advance 1)
  else
    let (handle, c) ← handle? c
    let (text, c) ← tagString? false c
    if handle.length > 1 ∧ handle.endsWith "!" then
      guard (text ≠ "")
      return (.tag handle text, c)
    else
      let suffix := (handle.drop 1).toString ++ text
      return (if suffix = "" then .tag "" "!" else .tag "!" suffix, c)

/-- A tag and the end of its word. -/
def tag? (s : Lexing) : Option Lexing := do
  let s ← s.markKey?
  let (token, c) ← tagToken? s.cursor
  guard ((s.inFlow && c.stands ',') || c.endsAt 0)
  return { s.push token with cursor := c, keyAllowed := false }

def versionPart? (c : Cursor) : Option (Nat × Cursor) := do
  let (digits, c) := c.span Char.isDigit
  guard (digits.length ≤ 9)
  return (← Text.baseNumber? 10 digits, c)

def directiveToken? (c : Cursor) : Option (Token × Cursor) := do
  let (name, c) := c.span isNameChar
  guard (c.endsAt 0)
  let c := c.skip isBlank
  match String.ofList name with
  | "YAML" =>
    let (major, c) ← versionPart? c
    guard (c.stands '.')
    let (minor, c) ← versionPart? (c.advance 1)
    return (.version (major = 1 ∧ (minor = 1 ∨ minor = 2)), c)
  | "TAG" =>
    let (handle, c) ← handle? c
    guard (handle.endsWith "!" ∧ c.endsAt 0 ∧ ¬ c.rest.isEmpty ∧ (c.nextLine?).isNone)
    let (text, c) ← tagString? true (c.skip isBlank)
    guard (text ≠ "" ∧ c.endsAt 0)
    return (.shorthand handle text, c)
  | _ => none

/-- A directive, which takes a whole line. -/
def directive? (s : Lexing) : Option Lexing := do
  let s ← (s.closeBlocks (-1)).dropKey?
  let (token, c) ← directiveToken? (s.cursor.advance 1)
  return { s.push token with cursor := ← c.lineEnd?, keyAllowed := false }

/-- Passes blanks, comments and line ends before a token. Outside brackets a key may begin on a new
line, and no tab may stand where one may begin. -/
def skipGap : Nat → Lexing → Lexing
  | 0, s => s
  | fuel + 1, s =>
    let c := s.cursor.skip fun x => x == ' ' || (x == '\t' && (s.inFlow || !s.keyAllowed))
    let c := c.skipComment
    match c.nextLine? with
    | some (_, c) => skipGap fuel { s with cursor := c, keyAllowed := s.keyAllowed || !s.inFlow }
    | none => { s with cursor := c }

/-- The next token, and those that it implies. There is at least one more character. -/
def token? (s : Lexing) : Option Lexing :=
  let c := s.cursor
  let plainStart :=
    !(c.endsAt 0 || "-?:,[]\x7b\x7d#&*!|>'\"%@\x60".toList.any c.stands) ||
      (c.stands '-' && !(c.at? 1).any isBlank) ||
      (!s.inFlow && (c.stands '?' || c.stands ':') && !c.endsAt 1)
  if c.column = 0 ∧ c.stands '%' then s.directive?
  else if c.standsThrice '-' then s.documentMark? .documentStart
  else if c.standsThrice '.' then s.documentMark? .documentEnd
  else if c.stands '[' then s.openFlow? .listOpen
  else if c.stands '\x7b' then s.openFlow? .braceOpen
  else if c.stands ']' then s.closeFlow? .listClose
  else if c.stands '\x7d' then s.closeFlow? .braceClose
  else if c.stands ',' then s.comma?
  else if c.stands '-' ∧ c.endsAt 1 then s.item?
  else if c.stands '?' ∧ (s.inFlow ∨ c.endsAt 1) then s.key?
  else if c.stands ':' ∧ (s.inFlow ∨ c.endsAt 1) then s.value?
  else if c.stands '*' then s.name? .alias
  else if c.stands '&' then s.name? .anchor
  else if c.stands '!' then s.tag?
  else if c.stands '|' ∧ !s.inFlow then s.block? false
  else if c.stands '>' ∧ !s.inFlow then s.block? true
  else if c.stands '\'' then s.quoted? '\''
  else if c.stands '"' then s.quoted? '"'
  else if plainStart then s.plain?
  else none

/-- The tokens of the rest of a text, latest first. -/
def run? : Nat → Lexing → Option (List Token)
  | 0, _ => none
  | fuel + 1, s => do
    let s := skipGap (s.cursor.rest.length + 1) s
    let s ← s.dropStale?
    if s.cursor.rest.isEmpty then
      return (← (s.closeBlocks (-1)).dropKey?).found
    let s := s.closeBlocks s.cursor.column
    run? fuel (← s.token?)

end Lexing

/-- The tokens of a text. Byte order marks at its start are passed over, at most two. -/
def tokens? (text : String) : Option (List Token) := do
  let chars := text.toList
  guard (chars.all isAllowed)
  let start : Cursor := { rest := if chars.head? = some '\ufeff' then chars.tail else chars }
  let start := if start.stands '\ufeff' then start.advance 1 else start
  let found ← Lexing.run? (chars.length + 2) { cursor := start }
  return found.reverse

end BrokerCluster.Config.Yaml
