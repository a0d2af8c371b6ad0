import BrokerCluster.Config.Json
import BrokerCluster.Config.Override
import BrokerCluster.Config.Toml.Document
import BrokerCluster.Config.Validation
import BrokerCluster.Config.Yaml.Document
import BrokerCluster.Text.Lower
import BrokerCluster.Text.Utf8

/-!
# Configuration files

The extension of a file's name says in which format it is written. A file that
is loaded is read, overridden from the environment and then checked, so a
problem may come from either.
-/
namespace BrokerCluster.Config

inductive Format where
  | toml
  | yaml
  | json
  deriving DecidableEq, Repr

def Format.ofExtension? : String → Option Format
  | "toml" => some toml
  | "yaml" | "yml" => some yaml
  | "json" => some json
  | _ => none

def Configuration.ofText? : Format → String → Option Configuration
  | .toml, text => (Toml.document? text).bind (Configuration.ofSetting? .unbounded)
  | .yaml, text => (Yaml.document? text).bind (Configuration.ofSetting? .refused)
  | .json, text => (Json.document? text).bind (Configuration.ofSetting? .bounded)

/-- The last part of a path, unless the path ends in a step up. Steps that stay in place do not
count. -/
def fileName? (path : List Char) : Option (List Char) :=
  ((path.splitOn '/').filter fun part => part ≠ [] ∧ part ≠ ['.']).getLast?.filter (· ≠ ['.', '.'])

/-- What follows the last dot of a file's name, unless that dot begins the name; empty without one. -/
def extension (path : String) : String :=
  match fileName? path.toList with
  | none => ""
  | some name =>
    let after := (name.reverse.takeWhile (· ≠ '.')).reverse
    if name.length ≤ after.length + 1 then "" else String.ofList after

/-- Why a file cannot be read. -/
inductive ReadFault where
  | missing
  | directory
  | nameTooLong
  | nameHasNul
  | notUtf8
  /-- Any other reason, in the words of the system. -/
  | system (reason : String)
  deriving DecidableEq, Repr

/-- Why nothing can be read at a path where there is no file. -/
def ReadFault.ofPath (path : String) : ReadFault :=
  let parts := path.toList.splitOn '/'
  if path.toList.contains '\x00' then nameHasNul
  else if parts.any fun part => 255 < (String.ofList part).utf8ByteSize then nameTooLong
  else if path ≠ "" ∧ parts.all fun part => part ∈ [[], ['.'], ['.', '.']] then directory
  else missing

def ReadFault.message : ReadFault → String
  | missing => "No such file or directory (os error 2)"
  | directory => "Is a directory (os error 21)"
  | nameTooLong => "File name too long (os error 36)"
  | nameHasNul => "file name contained an unexpected NUL byte"
  | notUtf8 => "stream did not contain valid UTF-8"
  | system reason => reason

inductive LoadError where
  | read (path : String) (fault : ReadFault)
  | unsupportedFormat (extension : String)
  | malformed
  | invalid (problems : List Problem)
  deriving DecidableEq, Repr

/-- The text that reports a load error. What is malformed in a file is not told. -/
def LoadError.message : LoadError → String
  | read path fault => "Failed to read config file " ++ path ++ ": " ++ fault.message
  | unsupportedFormat extension => "Unsupported config extension: " ++ extension
  | malformed => "Failed to parse config:"
  | invalid problems => "Invalid configuration: " ++ problemLine problems

namespace Configuration

/-- The configuration in a file, given the file's bytes or why there are none. -/
def read (path : String) (file : Except ReadFault (List UInt8)) : Except LoadError Configuration := do
  let bytes ← file.mapError (.read path)
  let some text := Text.decode? bytes | throw (.read path .notUtf8)
  let extension := Text.lower (extension path)
  let some format := Format.ofExtension? extension | throw (.unsupportedFormat extension)
  let some config := ofText? format text | throw .malformed
  return config

/-- A configuration that has no problems. -/
def checked (config : Configuration) : Except LoadError Configuration :=
  if config.isValid then .ok config else .error (.invalid config.problems)

/-- The configuration in a file, overridden from the environment and without problems. -/
def load (path : String) (file : Except ReadFault (List UInt8))
    (environment : String → Option String) : Except LoadError Configuration := do
  let config ← read path file
  checked (config.override environment)

end Configuration

end BrokerCluster.Config
