import LanguageClient.Config.Basic
import LanguageClient.Text.Lines
import LanguageClient.Yaml.Document

/-!
# Loading a configuration

A configuration is loaded from a YAML file; without one the standard holds.  After that
three environment variables may change how servers are waited for and traced.

The variables are taken one after another, so where one of them is refused those
before it have had their effect.
-/

namespace LanguageClient.Config

variable {ι : Type}

/-- Takes a variable over into the configuration, read as `read` says; one that is not set changes
nothing. -/
def takeOver {α : Type} (s : Surroundings) (name : Text) (read : Text → Except ConfigError α)
    (change : α → Config ι → Config ι) : Attempt ConfigError (Config ι) Unit :=
  match s.lookup? name with
  | none => return
  | some t => do modify (change (← Attempt.ofExcept .failed (read t)))

def readTimeout (t : Text) : Except ConfigError Binary64 :=
  (Reading.float t).mapError .environmentSetting

def readCycles (t : Text) : Except ConfigError Int := (Reading.int t).mapError .environmentSetting

def readTrace (t : Text) : Except ConfigError Verbosity :=
  match Verbosity.ofWireName? t with
  | some trace => .ok trace
  | none => .error (.environmentTrace t)

/-- Takes the variables over into the configuration. -/
def applyEnvironment (s : Surroundings) : Attempt ConfigError (Config ι) Unit := do
  takeOver s "EDITOR_LSP_POLL_TIMEOUT" readTimeout fun x c => { c with pollTimeout := x }
  takeOver s "EDITOR_LSP_POLL_CYCLES" readCycles fun n c => { c with cycles := max 1 n }
  takeOver s "EDITOR_LSP_TRACE" readTrace fun trace c => { c with trace := trace }

/-- The configuration with the variables taken over. -/
def withEnvironment (s : Surroundings) (c : Config ι) : Except (Stop ConfigError) (Config ι) :=
  match applyEnvironment s c with
  | (.ok (), c) => .ok c
  | (.error stop, _) => .error stop

/-- The file that is meant when none is named. -/
def defaultPath (s : Surroundings) : Text :=
  (s.lookup? "EDITOR_LSP_CONFIG").getD (Path.join s.home (Text.ofString "lsp.yaml"))

def pathOf (s : Surroundings) (path : Option Text) : Text :=
  match path with
  | none | some [] => Path.tidy (defaultPath s)
  | some path => Path.tidy path

/-- The value that the bytes of a configuration file hold. -/
def valueOf (path : Text) (bytes : Bytes) : Except (Stop ConfigError) Yaml.Value := do
  let chars ← (Utf8.decodeStream bytes).mapError fun e => .faulted (.notDecodable e)
  let v ← (Yaml.read (Lines.normalize chars)).mapError fun e => match e with
    | .malformed => .failed (.malformed path)
    | e => .faulted (.badYaml e)
  return if v.isTruthy then v else .map []

/-- Loads the configuration at a path, or at the standard place. -/
def load (s : Surroundings) (files : Files) (path : Option Text) :
    Except (Stop ConfigError) (Config Text) := do
  let path := pathOf s path
  let present ← (files.exists? s.workingDirectory path).mapError fun e => .faulted (.ofFile path e)
  if !present then return ← withEnvironment s (standard Text)
  let bytes ← (files.read s.workingDirectory path).mapError fun e => match e with
    | .system code => .failed (.unreadable path ⟨code, some path⟩)
    | e => .faulted (.ofFile path e)
  let config ← withEnvironment s (← ofValue (← valueOf path bytes))
  match config.named? with
  | some config => return config
  | none => throw (.faulted .wrongKind)

end LanguageClient.Config
