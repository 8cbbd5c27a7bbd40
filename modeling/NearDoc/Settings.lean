import NearDoc.Text.LetterCase
import NearDoc.Text.Blank

/-!
Settings, read from named variables each time they are asked for.
-/

namespace NearDoc

open Text

/-- The variables that are set, the latest first. -/
structure Settings where
  assignments : List (String × String) := []

namespace Settings

def valueOf (s : Settings) (name otherwise : String) : String :=
  (s.assignments.lookup name).getD otherwise

/-- Sets variables; an earlier value of the same name no longer counts. -/
def setAll (s : Settings) (assignments : List (String × String)) : Settings :=
  ⟨assignments.reverse ++ s.assignments⟩

/-- A switch is on when its variable reads `true` in any case. -/
def switch (s : Settings) (name : String) (otherwise : Bool) : Bool :=
  lower (s.valueOf name (if otherwise then "true" else "false")) = "true"

def databasePath (s : Settings) : String := s.valueOf "DOCVEC_DB_PATH" "./data/docvec.db"

def debug (s : Settings) : Bool := s.switch "DOCVEC_DEBUG" false

/-- The metric of queries that name none, in lower case but otherwise as it was set. -/
def defaultMetric (s : Settings) : String := lower (s.valueOf "DOCVEC_DEFAULT_METRIC" "cosine")

def strict (s : Settings) : Bool := s.switch "DOCVEC_SCHEMA_VALIDATION_STRICT" false

def queryLogging (s : Settings) : Bool := s.switch "DOCVEC_QUERY_LOGGING" true

/-- What is wrong with the settings, given the names of the known metrics. -/
def issues (s : Settings) (metrics : List String) : List String :=
  (if metrics.contains s.defaultMetric then []
    else ["Invalid DOCVEC_DEFAULT_METRIC: " ++ s.defaultMetric]) ++
  (if isAllBlank s.databasePath then ["DOCVEC_DB_PATH must not be empty"] else [])

end Settings

end NearDoc
