import IslandPlots.Disk
import IslandPlots.Yaml.Problem

/-!
# Problems with the configuration

Why the configuration cannot be read.
-/

namespace IslandPlots

/-- The name of the configuration file. -/
def configFileName : String := "config.yml"

/-- What is wrong with the content of the configuration file. -/
inductive ConfigDefect where
  | yaml (problem : Yaml.Problem)
  | notAMapping
  | keyNotAScalar
  | duplicateField (name : String)
  | notAnInteger (name : String)
  | notAScalar (name : String)
deriving DecidableEq

/-- The wording of a defect. -/
def ConfigDefect.message : ConfigDefect → String
  | .yaml problem => problem.message
  | .notAMapping => "expected a mapping"
  | .keyNotAScalar => "expected a field name"
  | .duplicateField name => s!"duplicate field {name}"
  | .notAnInteger name => s!"{name}: expected a 32-bit integer"
  | .notAScalar name => s!"{name}: expected a path"

/-- Why the configuration cannot be read. -/
inductive ConfigProblem where
  /-- The disk refuses to give the content of the file. -/
  | unreadable (path : String) (cause : DiskError)
  /-- The content of the file is not a text. -/
  | notText (path : String)
  | invalid (defect : ConfigDefect)
  /-- An environment variable is not the number that it should be. -/
  | variable (name value : String)
deriving DecidableEq

/-- The wording of a problem. -/
def ConfigProblem.message : ConfigProblem → String
  | .unreadable path cause => s!"read failed for {path}: {cause}"
  | .notText path => s!"read failed for {path}: stream did not contain valid UTF-8"
  | .invalid defect => s!"{configFileName} is invalid: {defect.message}"
  | .variable name value => s!"{name} '{value}' is not an integer"

end IslandPlots
