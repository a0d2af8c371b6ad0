import BrokerCluster.Config.Basic
import BrokerCluster.Text.Digits
import BrokerCluster.Text.Number

/-!
# Settings in a document

A configuration document, whatever its format, is a tree of settings. Some
formats fix the type of a value; in others a bare word is text, a number, a
truth value or nothing, as the reader asks for it. A section is a table of named
settings, of which unknown ones are passed over, known ones may occur only once,
and missing ones keep their default. Some formats also allow a section as a list
of its settings in their order.
-/
namespace BrokerCluster.Config

/-- How the type of a bare word is marked. -/
inductive Mark where
  /-- The reader decides. -/
  | unmarked
  /-- It is marked as nothing. -/
  | nothing
  /-- It is marked as something else. -/
  | something
  deriving DecidableEq, Repr

inductive Setting where
  | nothing
  | truth (value : Bool)
  | whole (value : Int)
  /-- A number that is not whole. -/
  | fraction
  /-- A date or a time. It has no settings of its own. -/
  | date
  /-- Text that is certainly text; `none` if it has no proper characters. -/
  | text (value : Option String)
  /-- A bare word, which the reader takes for what it needs. -/
  | word (value : String) (mark : Mark)
  | list (items : List Setting)
  /-- Named values; a name is `none` if it is no text. -/
  | table (entries : List (Option String × Setting))
  deriving Repr

/-- How a list may stand for a section. -/
inductive ListSections where
  | refused
  /-- A list may be shorter than the section, and not longer. -/
  | bounded
  /-- What a list has beyond the section is passed over. -/
  | unbounded
  deriving DecidableEq, Repr

/-- Whether text has a leading zero that makes it no number. -/
def hasLeadingZero (text : List Char) : Bool :=
  let digits :=
    match text with
    | '+' :: rest => rest
    | '-' :: rest => rest
    | rest => rest
  match digits with
  | '0' :: next :: rest => (next :: rest).all Char.isDigit
  | _ => false

/-- Digits in base ten, or in the base that `0x`, `0o` or `0b` names. -/
def wordNatural? (text : List Char) : Option Nat :=
  match text with
  | '0' :: 'x' :: digits => Text.baseNumber? 16 digits
  | '0' :: 'o' :: digits => Text.baseNumber? 8 digits
  | '0' :: 'b' :: digits => Text.baseNumber? 2 digits
  | digits => if hasLeadingZero digits then none else Text.baseNumber? 10 digits

/-- The natural number that a bare word stands for; a plus sign is allowed. -/
def wordUnsigned? (text : String) : Option Nat :=
  match text.toList with
  | '+' :: rest => wordNatural? rest
  | rest => wordNatural? rest

def wordSigned? (text : String) : Option Int :=
  match text.toList with
  | '+' :: rest => (wordNatural? rest).map Int.ofNat
  | '-' :: rest => (wordNatural? rest).map fun n => -Int.ofNat n
  | rest => (wordNatural? rest).map Int.ofNat

def wordTruth? (text : String) : Option Bool :=
  if text ∈ ["true", "True", "TRUE"] then some true
  else if text ∈ ["false", "False", "FALSE"] then some false
  else none

/-- The bare words that stand for nothing. -/
def nothingWords : List String := ["~", "null", "Null", "NULL"]

namespace Setting

/-- Text. A bare word is taken as it stands. -/
def text? : Setting → Option String
  | text value => value
  | word value _ => some value
  | _ => none

def truth? : Setting → Option Bool
  | truth value => some value
  | word value _ => wordTruth? value
  | _ => none

def int64? : Setting → Option Int64
  | whole value => Text.int64OfInt? value
  | word value _ => (wordSigned? value).bind Text.int64OfInt?
  | _ => none

def uint16? : Setting → Option UInt16
  | whole value => Text.uint16OfInt? value
  | word value _ => (wordUnsigned? value).bind fun n => Text.uint16OfInt? n
  | _ => none

def uint64? : Setting → Option UInt64
  | whole value => Text.uint64OfInt? value
  | word value _ => (wordUnsigned? value).bind fun n => Text.uint64OfInt? n
  | _ => none

def optional? {α : Type} (read : Setting → Option α) : Setting → Option (Option α)
  | nothing => some none
  | word value .unmarked =>
    if value = "" ∨ value ∈ nothingWords then some none else some <$> read (word value .unmarked)
  | word value .nothing => if value ∈ nothingWords then some none else none
  | other => some <$> read other

/-- A list of values. Nothing at all stands for the empty list. -/
def list? {α : Type} (read : Setting → Option α) : Setting → Option (List α)
  | list items => items.mapM read
  | word "" _ => some []
  | _ => none

end Setting

/-- A named setting of a section and how it changes the section. -/
structure Entry (σ : Type) where
  name : String
  set : Setting → σ → Option σ

namespace Entry

/-- A setting read by `read` and stored by `store`. -/
def of {σ α : Type} (name : String) (read : Setting → Option α) (store : α → σ → σ) : Entry σ :=
  ⟨name, fun setting section_ => (read setting).map fun value => store value section_⟩

variable {σ : Type}

/-- Reads the entries of a table, given the names already used. -/
def readTable (known : List (Entry σ)) (seen : List String) (section_ : σ) :
    List (Option String × Setting) → Option σ
  | [] => some section_
  | (none, _) :: _ => none
  | (some name, setting) :: rest =>
    match known.find? fun entry => entry.name == name with
    | none => readTable known seen section_ rest
    | some entry =>
      if name ∈ seen then none
      else do
        let section_ ← entry.set setting section_
        readTable known (name :: seen) section_ rest

/-- Reads a list as the settings of a section in their order. -/
def readList (style : ListSections) (section_ : σ) : List (Entry σ) → List Setting → Option σ
  | _, [] => some section_
  | [], _ :: _ => if style = .unbounded then some section_ else none
  | entry :: known, setting :: rest => do
    let section_ ← entry.set setting section_
    readList style section_ known rest

/-- Reads a section, starting from its defaults. -/
def readSection (style : ListSections) (known : List (Entry σ)) (defaults : σ) :
    Setting → Option σ
  | .table entries => readTable known [] defaults entries
  | .list items => if style = .refused then none else readList style defaults known items
  | .word "" _ => some defaults
  | .date => some defaults
  | _ => none

end Entry

def brokerEntries : List (Entry BrokerSettings) := [
  .of "component_id" Setting.text? fun v s => { s with componentId := v },
  .of "host" Setting.text? fun v s => { s with host := v },
  .of "port" Setting.uint16? fun v s => { s with port := v },
  .of "domain" Setting.text? fun v s => { s with domain := v }]

def electionEntries : List (Entry ElectionSettings) := [
  .of "mode" (fun s => s.text?.map Election.Mode.ofText) fun v s => { s with mode := v },
  .of "id" Setting.int64? fun v s => { s with id := v },
  .of "port" Setting.uint16? fun v s => { s with port := v },
  .of "domain" Setting.text? fun v s => { s with domain := v },
  .of "peer_hosts" (Setting.list? Setting.text?) fun v s => { s with peerHosts := v },
  .of "peer_ports" (Setting.list? Setting.uint16?) fun v s => { s with peerPorts := v },
  .of "peer_ids" (Setting.list? Setting.int64?) fun v s => { s with peerIds := v },
  .of "heartbeat_timeout_ms" Setting.uint64? fun v s => { s with heartbeatTimeout := v },
  .of "ping_interval_ms" (Setting.optional? Setting.uint64?) fun v s => { s with pingInterval := v },
  .of "poll_interval_ms" Setting.uint64? fun v s => { s with pollInterval := v },
  .of "peer_timeout_ms" Setting.uint64? fun v s => { s with peerTimeout := v }]

def namingEntries : List (Entry NamingSettings) := [
  .of "enabled" Setting.truth? fun v s => { s with enabled := v },
  .of "host" Setting.text? fun v s => { s with host := v },
  .of "port" Setting.uint16? fun v s => { s with port := v }]

def monitoringEntries : List (Entry MonitoringSettings) := [
  .of "host" (Setting.optional? Setting.text?) fun v s => { s with host := v },
  .of "port" (Setting.optional? Setting.uint16?) fun v s => { s with port := v }]

def loggingEntries : List (Entry LoggingSettings) := [
  .of "level" Setting.text? fun v s => { s with level := v }]

def sections (style : ListSections) : List (Entry Configuration) := [
  .of "broker" (Entry.readSection style brokerEntries {}) fun v s => { s with broker := v },
  .of "election" (Entry.readSection style electionEntries {}) fun v s => { s with election := v },
  .of "name_service" (Entry.readSection style namingEntries {}) fun v s => { s with naming := v },
  .of "monitoring" (Entry.readSection style monitoringEntries {}) fun v s => { s with monitoring := v },
  .of "logging" (Entry.readSection style loggingEntries {}) fun v s => { s with logging := v }]

def Configuration.ofSetting? (style : ListSections) (document : Setting) : Option Configuration :=
  Entry.readSection style (sections style) {} document

end BrokerCluster.Config
