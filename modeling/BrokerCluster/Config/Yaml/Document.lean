import BrokerCluster.Config.Setting
import BrokerCluster.Config.Yaml.Token

/-!
# YAML documents

The tokens of a text are read into one setting. A plain scalar is a bare word,
and any other scalar is text. A name that an anchor gives to a setting can be
used after the anchor in place of the setting. A text holds one document at most;
a text without any stands for nothing given.
-/
namespace BrokerCluster.Config.Yaml

/-- What is left of the tokens, and the settings with a name, the latest first. -/
structure Reading where
  tokens : List Token
  named : List (String × Setting) := []
  /-- The prefixes that handles of tags stand for. -/
  shorthands : List (String × String) := []

abbrev Reader := StateT Reading Option

namespace Reader

def peek? : Reader (Option Token) := return (← get).tokens.head?

def pass : Reader Unit := modify fun r => { r with tokens := r.tokens.tail }

/-- Passes the next token if it is this one, and whether it is. -/
def passIf (token : Token) : Reader Bool := do
  if (← peek?) = some token then
    pass
    return true
  return false

/-- Whether the next token is one of these. -/
def isNext (tokens : List Token) : Reader Bool := return (← peek?).any (tokens.contains ·)

/-- Names the setting that begins here, and tells its number among the named ones. -/
def name? : Option String → Reader (Option Nat)
  | none => return none
  | some name => do
    let r ← get
    set { r with named := (name, .fraction) :: r.named }
    return some r.named.length

/-- Stores a setting that is complete under its number. -/
def store (number : Option Nat) (setting : Setting) : Reader Setting := do
  if let some n := number then
    modify fun r =>
      { r with named := r.named.modify (r.named.length - 1 - n) fun (name, _) => (name, setting) }
  return setting

end Reader

open Reader

/-- The anchor and the tag, in any order, either of which may be missing. -/
def properties? : Reader (Option String × Option (String × String)) := do
  match ← peek? with
  | some (.anchor name) =>
    pass
    match ← peek? with
    | some (.tag handle suffix) =>
      pass
      return (some name, some (handle, suffix))
    | _ => return (some name, none)
  | some (.tag handle suffix) =>
    pass
    match ← peek? with
    | some (.anchor name) =>
      pass
      return (some name, some (handle, suffix))
    | _ => return (none, some (handle, suffix))
  | _ => return (none, none)

/-- What the tags of the core schema begin with. -/
def corePrefix : String := "tag:yaml.org,2002:"

/-- A tag in full. Its handle must be known. -/
def tagText? : Option (String × String) → Reader (Option String)
  | none => return none
  | some ("", suffix) => return some suffix
  | some (handle, suffix) => do
    match (← get).shorthands.lookup handle with
    | some tagPrefix => return some (tagPrefix ++ suffix)
    | none => failure

/-- The mark of a bare word with a tag. -/
def Mark.ofTag : Option String → Mark
  | none => .unmarked
  | some tag => if tag = corePrefix ++ "null" then .nothing else .something

/-- The setting of an unfolded block. Where a tag says so it is read as a number or as a truth value. -/
def literalSetting (tag : Option String) (text : String) : Setting :=
  if (tag = some (corePrefix ++ "int") ∧ (wordSigned? text).isSome) ∨
      (tag = some (corePrefix ++ "bool") ∧ (wordTruth? text).isSome) then
    .word text .something
  else .text text

/-- The name that a setting gives to an entry of a table. -/
def entryName? : Setting → Option String
  | .text text => text
  | .word text _ => some text
  | _ => none

def missing : Setting := .word "" .unmarked

mutual

/-- A setting. Blocks may begin here if `inBlock`, and items without a block of their own if
`bareItems`. -/
def setting? : (fuel : Nat) → (inBlock bareItems : Bool) → Reader Setting
  | 0, _, _ => failure
  | fuel + 1, inBlock, bareItems => do
    if let some (.alias name) ← peek? then
      pass
      match (← get).named.lookup name with
      | some setting => return setting
      | none => failure
    else
      let (anchor, shortTag) ← properties?
      let tag ← tagText? shortTag
      let number ← name? anchor
      match ← peek? with
      | some (.plain text) =>
        pass
        store number (.word text (Mark.ofTag (tag.filter (· ≠ "!"))))
      | some (.quoted text) =>
        pass
        store number (.text text)
      | some (.literal text) =>
        pass
        store number (literalSetting tag text)
      | some .listOpen =>
        pass
        store number (.list (← listItems? fuel true))
      | some .braceOpen =>
        pass
        store number (.table (← braceEntries? fuel true))
      | some .sequenceStart =>
        guard inBlock
        pass
        store number (.list (← blockItems? fuel))
      | some .mappingStart =>
        guard inBlock
        pass
        store number (.table (← blockEntries? fuel))
      | next =>
        if bareItems ∧ next = some .item then store number (.list (← bareItems? fuel))
        else if anchor.isSome ∨ tag.isSome then store number (.word "" (Mark.ofTag tag))
        else failure

/-- A setting, or a missing one before any of these tokens. -/
def settingUnless? : (fuel : Nat) → (inBlock bareItems : Bool) → List Token → Reader Setting
  | 0, _, _, _ => failure
  | fuel + 1, inBlock, bareItems, tokens => do
    if ← isNext tokens then return missing
    setting? fuel inBlock bareItems

/-- The items of an indented list up to its end. -/
def blockItems? : Nat → Reader (List Setting)
  | 0 => failure
  | fuel + 1 => do
    if ← passIf .blockEnd then return []
    if ← passIf .item then
      let item ← settingUnless? fuel true false [.item, .blockEnd]
      return item :: (← blockItems? fuel)
    failure

/-- The items of a list that is not indented more than the table around it. -/
def bareItems? : Nat → Reader (List Setting)
  | 0 => failure
  | fuel + 1 => do
    if ← passIf .item then
      let item ← settingUnless? fuel true false [.item, .key, .value, .blockEnd]
      return item :: (← bareItems? fuel)
    return []

/-- The entries of an indented table up to its end. -/
def blockEntries? : Nat → Reader (List (Option String × Setting))
  | 0 => failure
  | fuel + 1 => do
    if ← passIf .blockEnd then return []
    if ← passIf .key then
      let key ← settingUnless? fuel true true [.key, .value, .blockEnd]
      let value ←
        if ← passIf .value then settingUnless? fuel true true [.key, .value, .blockEnd]
        else pure missing
      return (entryName? key, value) :: (← blockEntries? fuel)
    failure

/-- The items of a list in brackets up to its end. An item may be one entry of a table. -/
def listItems? : Nat → (first : Bool) → Reader (List Setting)
  | 0, _ => failure
  | fuel + 1, first => do
    if ← passIf .listClose then return []
    unless first do guard (← passIf .comma)
    if ← passIf .key then
      let key ←
        if ← isNext [.value, .comma, .listClose] then
          pass
          pure missing
        else setting? fuel false false
      let value ←
        if ← passIf .value then settingUnless? fuel false false [.comma, .listClose]
        else pure missing
      return .table [(entryName? key, value)] :: (← listItems? fuel false)
    if ← passIf .listClose then return []
    let item ← setting? fuel false false
    return item :: (← listItems? fuel false)

/-- The entries of a table in braces up to its end. -/
def braceEntries? : Nat → (first : Bool) → Reader (List (Option String × Setting))
  | 0, _ => failure
  | fuel + 1, first => do
    if ← passIf .braceClose then return []
    unless first do guard (← passIf .comma)
    if ← passIf .key then
      let key ← settingUnless? fuel false false [.value, .comma, .braceClose]
      let value ←
        if ← passIf .value then settingUnless? fuel false false [.comma, .braceClose]
        else pure missing
      return (entryName? key, value) :: (← braceEntries? fuel false)
    if ← passIf .braceClose then return []
    let key ← setting? fuel false false
    return (entryName? key, missing) :: (← braceEntries? fuel false)

end

def isDirective : Token → Bool
  | .version _ | .shorthand _ _ => true
  | _ => false

/-- The directives before a document, given whether a version was stated: no version and no handle
twice. -/
def directives? : Nat → (versionSeen : Bool) → Reader Unit
  | 0, _ => failure
  | fuel + 1, versionSeen => do
    match ← peek? with
    | some (.version supported) =>
      guard (supported ∧ !versionSeen)
      pass
      directives? fuel true
    | some (.shorthand handle tagPrefix) =>
      pass
      let r ← get
      guard ((r.shorthands.lookup handle).isNone)
      set { r with shorthands := (handle, tagPrefix) :: r.shorthands }
      directives? fuel versionSeen
    | _ => return ()

/-- The handles that every document has, unless it gives them another meaning. -/
def commonShorthands : List (String × String) := [("!", "!"), ("!!", corePrefix)]

/-- The content of a document that may be empty. -/
def content? (fuel : Nat) : Reader Setting := do
  match ← peek? with
  | none | some .documentStart | some .documentEnd => return missing
  | some token => if isDirective token then return missing else setting? fuel true false

def passEnds : Nat → Reader Unit
  | 0 => failure
  | fuel + 1 => do if ← passIf .documentEnd then passEnds fuel

/-- The only document of the tokens. -/
def only? (fuel : Nat) : Reader Setting := do
  if (← peek?).isNone then return missing
  let directed := (← peek?).any isDirective
  directives? fuel false
  modify fun r => { r with shorthands := r.shorthands ++ commonShorthands }
  let started ← passIf .documentStart
  guard (started ∨ !directed)
  let setting ← if started then content? fuel else setting? fuel true false
  passEnds fuel
  guard (← peek?).isNone
  return setting

def document? (text : String) : Option Setting := do
  let tokens ← tokens? text
  let (setting, _) ← (only? (3 * tokens.length + 3)).run { tokens }
  return setting

end BrokerCluster.Config.Yaml
