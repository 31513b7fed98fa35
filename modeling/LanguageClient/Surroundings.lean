import LanguageClient.Path

/-!
# Surroundings

What a run of the client finds around it and does not change: directories, the
process id, the time, and the environment variables.
-/

namespace LanguageClient

structure Surroundings where
  /-- Relative paths are seen from here. -/
  workingDirectory : Text
  /-- Configuration and traces are kept here unless something else is said. -/
  home : Text
  processId : Nat
  /-- The date and the time of day that entries and messages are stamped with. -/
  date : Text
  timeOfDay : Text
  environment : List (Text × Text)

namespace Surroundings

/-- The value of an environment variable. -/
def lookup? (s : Surroundings) (name : Text) : Option Text :=
  (s.environment.find? (·.1 = name)).map (·.2)

/-- The normalized absolute form of a path. -/
def absolute (s : Surroundings) (path : Text) : Text := Path.absolute s.workingDirectory path

/-- The stamp of a trace entry. -/
def timestamp (s : Surroundings) : Text := s.date ++ Text.ofString "T" ++ s.timeOfDay

end Surroundings

end LanguageClient
