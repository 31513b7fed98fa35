import LanguageClient.Surroundings
import LanguageClient.Text.Quoted

/-!
# The log

Remarks go to two files, one for everything from a threshold on and one for warnings
and worse, and to the console where that is asked for.  The threshold is named by an
environment variable.

The names of levels share their space with other names of the log.  A name that nobody
uses stands for the standard threshold; a switch counts as the threshold that its truth
value is; whatever else a name belongs to is refused.  The old outlets are gone by then.
-/

namespace LanguageClient

/-- From where on remarks are kept. -/
inductive Threshold where
  | level (number : Nat)
  /-- A switch that is on. -/
  | switch
deriving DecidableEq

inductive Destination where
  | file (name : Text)
  | console
deriving DecidableEq

structure Outlet where
  destination : Destination
  threshold : Threshold
  format : Text
deriving DecidableEq

/-- The log: its threshold and its outlets. -/
structure Log where
  threshold : Threshold
  outlets : List Outlet
deriving DecidableEq

/-- Why a name cannot be used for a level. -/
inductive LevelError where
  /-- The name belongs to something that is no level. -/
  | notALevel
  /-- The name belongs to a text, which names no level either. -/
  | unknown (text : Text)
  /-- The name belongs to a text about the log itself, which is not kept here. -/
  | particular
deriving DecidableEq

def LevelError.message : LevelError → Text
  | notALevel => []
  | unknown text => "Unknown level: " ++ Quoted.text text
  | particular => "Unknown level"

namespace Log

def format : Text := "%(asctime)s - %(name)s - %(levelname)s - %(message)s"

def informative : Nat := 20

def alarming : Nat := 30

def levels : List (String × Nat) :=
  [("CRITICAL", 50), ("FATAL", 50), ("ERROR", 40), ("WARNING", alarming), ("WARN", alarming),
    ("INFO", informative), ("DEBUG", 10), ("NOTSET", 0)]

/-- The names of switches that are on. -/
def switches : List String :=
  ["raiseExceptions", "logThreads", "logMultiprocessing", "logProcesses"]

/-- The names of texts, and the texts. -/
def texts : List (String × String) :=
  [("BASIC_FORMAT", "%(levelname)s:%(name)s:%(message)s"), ("__name__", "logging"),
    ("__package__", "logging"), ("__status__", "production"), ("__version__", "0.5.1.2"),
    ("__date__", "07 February 2010")]

/-- The names of texts about the log itself: what it is for, whose it is, and where it is installed. -/
def particulars : List String := ["__author__", "__cached__", "__doc__", "__file__", "_srcfile"]

/-- The names of all else that the log has. -/
def reserved : List String :=
  ["BufferingFormatter", "FileHandler", "Filter", "Filterer", "Formatter", "GenericAlias",
    "Handler", "LogRecord", "Logger", "LoggerAdapter", "Manager", "NullHandler", "PercentStyle",
    "PlaceHolder", "RootLogger", "StrFormatStyle", "StreamHandler", "StringTemplateStyle",
    "Template", "_STYLES", "_StderrHandler", "__all__", "__annotations__", "__builtins__",
    "__class__", "__delattr__", "__dict__", "__dir__", "__eq__", "__format__", "__ge__",
    "__getattribute__", "__getstate__", "__gt__", "__hash__", "__init__", "__init_subclass__",
    "__le__", "__loader__", "__lt__", "__ne__", "__new__", "__path__", "__reduce__",
    "__reduce_ex__", "__repr__", "__setattr__", "__sizeof__", "__spec__", "__str__",
    "__subclasshook__", "_acquireLock", "_addHandlerRef", "_after_at_fork_child_reinit_locks",
    "_at_fork_reinit_lock_weakset", "_checkLevel", "_defaultFormatter", "_defaultLastResort",
    "_handlerList", "_handlers", "_is_internal_frame", "_levelToName", "_lock", "_logRecordFactory",
    "_loggerClass", "_nameToLevel", "_register_at_fork_reinit_lock", "_releaseLock",
    "_removeHandlerRef", "_showwarning", "_startTime", "_str_formatter", "_warnings_showwarning",
    "addLevelName", "atexit", "basicConfig", "captureWarnings", "collections", "critical",
    "currentframe", "debug", "disable", "error", "exception", "fatal", "getLevelName",
    "getLevelNamesMapping", "getLogRecordFactory", "getLogger", "getLoggerClass", "handlers",
    "info", "io", "lastResort", "log", "makeLogRecord", "os", "re", "root", "setLogRecordFactory",
    "setLoggerClass", "shutdown", "sys", "threading", "time", "traceback", "warn", "warning",
    "warnings", "weakref"]

/-- The threshold that a name stands for. -/
def thresholdOf (name : Text) : Except LevelError Threshold :=
  let isName (s : String) : Bool := Text.ofString s = name
  match levels.find? (isName ·.1) with
  | some (_, number) => .ok (.level number)
  | none =>
    if switches.any isName then .ok .switch
    else match texts.find? (isName ·.1) with
      | some (_, text) => .error (.unknown text)
      | none =>
        if particulars.any isName then .error .particular
        else if reserved.any isName then .error .notALevel
        else .ok (.level informative)

/-- The log that the environment asks for, in the place of another one. -/
def setUp (s : Surroundings) (old : Log) : Except LevelError Unit × Log :=
  match thresholdOf ((s.lookup? "LOG_LEVEL").getD "INFO") with
  | .error e => (.error e, { old with outlets := [] })
  | .ok threshold =>
    let files : List Outlet := [⟨.file "stdout.log", threshold, format⟩,
      ⟨.file "stderr.log", .level alarming, format⟩]
    let console : List Outlet :=
      if s.lookup? "LOG_TO_CONSOLE" = some (Text.ofString "1") then [⟨.console, threshold, format⟩]
      else []
    (.ok (), ⟨threshold, files ++ console⟩)

end Log

end LanguageClient
