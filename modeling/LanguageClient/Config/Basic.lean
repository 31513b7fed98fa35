import LanguageClient.Fault
import LanguageClient.Protocol.Payload
import LanguageClient.Surroundings
import LanguageClient.Yaml.Value

/-!
# Configurations

A configuration says which language servers there are, which files they are for, and
how patiently they are waited for.  It is read from a value of YAML or JSON: what is
missing has a standard, and what has the wrong form is refused with the place.

The ids of languages are whatever the value has for keys; `Config.named?` gives the
configuration with texts for ids, where all of them are texts.
-/

namespace LanguageClient

/-- How the server of a language is started, and the extensions of the files that it is for. -/
structure LanguageServer where
  command : Text
  extensions : List Text

/-- A configuration whose languages have ids of type `ι`, in the order of their definition. -/
structure Config (ι : Type) where
  /-- Servers may be started at all. -/
  enable : Bool
  languages : List (ι × LanguageServer)
  /-- The longest wait of one poll cycle, in seconds. -/
  pollTimeout : Binary64
  /-- Poll cycles made for one response. -/
  cycles : Int
  trace : Verbosity
  /-- Where traces go; `null`, or another value that counts as false, stands for the standard. -/
  traceDirectory : Yaml.Value

/-- Why a setting is no number. -/
inductive SettingFlaw where
  | noDouble (kind : Text)
  | noInteger (kind : Text)
  | text (error : Reading.Error)
  | doubleBytes (bytes : Bytes)
  | integerBytes (bytes : Bytes)
  | nan
deriving DecidableEq

inductive ConfigError where
  | notAMapping (kind : Text)
  | languagesNotAMapping
  | command (language : Text)
  | extensions (language : Text)
  | setting (flaw : SettingFlaw)
  | trace (shown : Text)
  | environmentSetting (error : Reading.Error)
  | environmentTrace (value : Text)
  | unreadable (path : Text) (error : SystemError)
  /-- The file is not YAML. -/
  | malformed (path : Text)
deriving DecidableEq

def SettingFlaw.message : SettingFlaw → Text
  | noDouble kind =>
    "float() argument must be a string or a real number, not '" ++ kind ++ Text.ofString "'"
  | noInteger kind =>
    "int() argument must be a string, a bytes-like object or a real number, not '" ++ kind ++
      Text.ofString "'"
  | text e => e.message
  | doubleBytes b => "could not convert string to float: " ++ Quoted.bytes b
  | integerBytes b =>
    "invalid literal for int() with base 10: " ++
      Reading.excerpt (Quoted.bytes (b.take Reading.excerptLength))
  | nan => "cannot convert float NaN to integer"

def ConfigError.message : ConfigError → Text
  | notAMapping kind => "LSP config must be a mapping, got " ++ kind
  | languagesNotAMapping => "languages must be a mapping of language id to server"
  | command language => "languages." ++ language ++ Text.ofString ".command must be a string"
  | extensions language =>
    "languages." ++ language ++ Text.ofString ".extensions must be a list of strings"
  | setting flaw => "Invalid poll setting: " ++ flaw.message
  | trace shown => "Invalid trace value: " ++ shown
  | environmentSetting e => "Invalid poll setting in environment: " ++ e.message
  | environmentTrace value => "Invalid EDITOR_LSP_TRACE: " ++ value
  | unreadable path e => "Failed to read " ++ path ++ Text.ofString ": " ++ e.message
  | malformed path =>
    "Failed to read " ++ path ++ Text.ofString ": " ++ Yaml.Error.malformed.message

namespace Config

/-- The configuration that holds where nothing is said. -/
def standard (ι : Type) : Config ι where
  enable := false
  languages := []
  pollTimeout := .ofRatio false 1 10
  cycles := 50
  trace := .off
  traceDirectory := .null

variable {ι : Type}

/-- The first language whose server is for files with the path's extension. -/
def languageFor? (c : Config ι) (path : Text) : Option ι :=
  let extension := Path.extension path
  if extension.isEmpty then none
  else (c.languages.find? fun l => l.2.extensions.contains extension).map (·.1)

def resolvedTraceDirectory (s : Surroundings) (c : Config ι) : Yaml.Value :=
  if c.traceDirectory.isTruthy then c.traceDirectory
  else .str (Path.join s.home (Text.ofString "traces"))

/-- The configuration with texts for ids, if all ids are texts. -/
def named? (c : Config Yaml.Value) : Option (Config Text) := do
  let languages ← c.languages.mapM fun l => match l.1 with
    | .str id => some (id, l.2)
    | _ => none
  return { c with languages := languages }

/-! ## Settings -/

/-- Takes the double nearest to an integer, unless the integer is out of range. -/
def inRange (nearest : Binary64) : Except (Stop SettingFlaw) Binary64 :=
  match nearest with
  | .infinite _ => .error (.faulted (.overflow "int too large to convert to float"))
  | x => .ok x

def double : Yaml.Value → Except (Stop SettingFlaw) Binary64
  | .bool b => .ok (.ofInt (if b then 1 else 0))
  | .int n => inRange (.ofInt n)
  | .float x => .ok x
  | .str t => (Reading.float t).mapError fun e => .failed (.text e)
  | .bytes b => (Reading.float (Utf8.decodeAscii b)).mapError fun _ => .failed (.doubleBytes b)
  | v => .error (.failed (.noDouble v.fullKindName))

/-- A setting as an integer; a double loses its fraction. -/
def integer : Yaml.Value → Except (Stop SettingFlaw) Int
  | .bool b => .ok (if b then 1 else 0)
  | .int n => .ok n
  | .float x =>
    match x with
    | .nan => .error (.failed .nan)
    | x =>
      match x.truncate? with
      | some n => .ok n
      | none => .error (.faulted (.overflow "cannot convert float infinity to integer"))
  | .str t => (Reading.int t).mapError fun e => .failed (.text e)
  | .bytes b =>
    (Reading.int (Utf8.decodeAscii b)).mapError fun e => .failed (match e with
      | .notAnInteger _ => .integerBytes b
      | e => .text e)
  | v => .error (.failed (.noInteger v.fullKindName))

/-- A flaw of a setting is one of the configuration; a fault stays one. -/
def settingStop : Stop SettingFlaw → Stop ConfigError
  | .failed flaw => .failed (.setting flaw)
  | .faulted f => .faulted f

/-- The error that shows a value, if the value can be shown. -/
def showing (error : Text → ConfigError) (v : Yaml.Value) : Stop ConfigError :=
  if v.isShowable then .failed (error v.worded) else .faulted .unwritable

/-- The trace that a value asks for.  YAML reads a bare `off` as a truth value. -/
def traceOf (v : Yaml.Value) : Except (Stop ConfigError) Verbosity :=
  match v with
  | .bool false => .ok .off
  | .str name =>
    match Verbosity.ofWireName? name with
    | some trace => .ok trace
    | none => .error (.failed (.trace name))
  | v => .error (showing .trace v)

/-! ## Languages -/

/-- The text of a value that is one. -/
def text? : Yaml.Value → Option Text
  | .str t => some t
  | _ => none

/-- The texts of a list of texts. -/
def texts? : Yaml.Value → Option (List Text)
  | .list items => items.mapM text?
  | .pairs [] => some []
  | _ => none

/-- The server of a language.  Extensions are kept without the dots at their start. -/
def languageServer (id v : Yaml.Value) : Except (Stop ConfigError) LanguageServer := do
  let .map entries := v | throw (showing .command id)
  let some command := (Yaml.Value.get? entries "command").bind text?
    | throw (showing .command id)
  let some extensions := texts? ((Yaml.Value.get? entries "extensions").getD (.list []))
    | throw (showing .extensions id)
  return ⟨command, extensions.map (·.dropWhile (· == Path.dot))⟩

/-- The languages of a configuration.  A value that counts as false holds none. -/
def languagesOf (v : Yaml.Value) :
    Except (Stop ConfigError) (List (Yaml.Value × LanguageServer)) :=
  if !v.isTruthy then .ok []
  else match v with
    | .map entries => entries.mapM fun (id, v) => do return (id, ← languageServer id v)
    | _ => .error (.failed .languagesNotAMapping)

/-- The configuration that a value describes. -/
def ofValue (v : Yaml.Value) : Except (Stop ConfigError) (Config Yaml.Value) := do
  let .map entries := v | throw (.failed (.notAMapping v.kindName))
  let member (name : String) : Option Yaml.Value := Yaml.Value.get? entries name
  let languages ← languagesOf ((member "languages").getD .null)
  let pollTimeout ← match member "pollTimeout" with
    | some v => (double v).mapError settingStop
    | none => pure (standard Unit).pollTimeout
  let cycles ← match member "responsePollCycles" with
    | some v => (integer v).mapError settingStop
    | none => pure (standard Unit).cycles
  let trace ← match member "trace" with
    | some v => traceOf v
    | none => pure (standard Unit).trace
  return {
    enable := ((member "enable").getD (.bool false)).isTruthy
    languages := languages
    pollTimeout := pollTimeout
    cycles := max 1 cycles
    trace := trace
    traceDirectory := (member "traceDir").getD .null }

end Config

end LanguageClient
