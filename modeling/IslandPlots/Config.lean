import IslandPlots.Exclusion
import IslandPlots.Failure
import IslandPlots.Text.Blank
import IslandPlots.Text.Numeral
import IslandPlots.Yaml.Integer

/-!
# The configuration

The allocator is configured by a YAML file in the root directory and by environment
variables, which win over the file.  A `Config` is what they say; `Config.validate` turns
it into `Settings` if plots can be handed out under it.
-/

namespace IslandPlots

/-- What the configuration says. -/
structure Config where
  /-- The distance between neighbouring plots, in blocks. -/
  spacing : Blocks
  /-- The Chebyshev radius of the spawn exclusion, in blocks. -/
  radius : Blocks
  /-- The directory of the log, which may be relative to the root directory. -/
  storageDir : String
deriving DecidableEq

/-- A configuration under which plots can be handed out. -/
structure Settings where
  spacing : Spacing
  exclusion : Exclusion
  storageDir : String
deriving DecidableEq, Inhabited

/-- The environment of a program: the values of its variables. -/
abbrev Environment := List (String × String)

namespace Config

/-- The spacing when nothing is set is representable. -/
theorem fits_spacing :
  Fits 128
  := by
  decide

/-- The configuration when nothing is set. -/
def unset : Config where
  spacing := ⟨128, fits_spacing⟩
  radius := ⟨0, fits_zero⟩
  storageDir := "data"

instance : Inhabited Config := ⟨unset⟩

/-! ### The file -/

/-- The fields of a configuration that were found. -/
structure Found where
  spacing : Option Blocks := none
  radius : Option Blocks := none
  storageDir : Option String := none

/-- The configuration in which the fields that were found have replaced those of
`config`. -/
def update (config : Config) (found : Found) : Config where
  spacing := found.spacing.getD config.spacing
  radius := found.radius.getD config.radius
  storageDir := found.storageDir.getD config.storageDir

/-- Reads a number of the file. -/
def readNumber (document : Yaml.Document) (name : String) (node : Yaml.Node) :
    Except ConfigDefect Blocks :=
  match (document.scalar? node).bind (·.integer?) with
  | some n => if h : Fits n then .ok ⟨n, h⟩ else .error (.notAnInteger name)
  | none => .error (.notAnInteger name)

/-- Reads a text of the file. -/
def readText (document : Yaml.Document) (name : String) (node : Yaml.Node) :
    Except ConfigDefect String :=
  match document.scalar? node with
  | some scalar => .ok (String.ofList scalar.text)
  | none => .error (.notAScalar name)

/-- Takes one more pair of the file into account.  Fields with unknown names are
ignored. -/
def Found.add (document : Yaml.Document) (found : Found) (pair : Yaml.Node × Yaml.Node) :
    Except ConfigDefect Found :=
  match document.scalar? pair.1 with
  | none => .error .keyNotAScalar
  | some key =>
    let name := String.ofList key.text
    if name = "island_spacing" then
      if found.spacing.isSome then .error (.duplicateField name)
      else (readNumber document name pair.2).map fun n => { found with spacing := some n }
    else if name = "spawn_exclusion_radius" then
      if found.radius.isSome then .error (.duplicateField name)
      else (readNumber document name pair.2).map fun n => { found with radius := some n }
    else if name = "storage_dir" then
      if found.storageDir.isSome then .error (.duplicateField name)
      else (readText document name pair.2).map fun t => { found with storageDir := some t }
    else .ok found

/-- The configuration that a document describes.  An empty document sets nothing. -/
def ofDocument (document : Yaml.Document) : Except ConfigDefect Config :=
  match document.root with
  | none => .ok unset
  | some (.mapping _ pairs) => (pairs.foldlM (Found.add document) {}).map unset.update
  | some (.scalar _ scalar) =>
    if scalar.text = [] ∧ scalar.style = .plain then .ok unset else .error .notAMapping
  | some _ => .error .notAMapping

/-- The configuration that the text of a file describes.  A blank text sets nothing. -/
def ofText (text : List Char) : Except ConfigDefect Config :=
  if Text.trim text = [] then .ok unset
  else
    match Yaml.Document.ofText text with
    | .error problem => .error (.yaml problem)
    | .ok document => ofDocument document

/-- The configuration that the file in the root directory describes.  A missing file sets
nothing. -/
def ofFile (disk : Disk) (root : String) : Except ConfigProblem Config :=
  let path := Path.join root configFileName
  match (disk.locate path).bind disk.read with
  | .error .notFound => .ok unset
  | .error cause => .error (.unreadable path cause)
  | .ok bytes =>
    match Text.decodeStrict? bytes with
    | none => .error (.notText path)
    | some text => (ofText text).mapError .invalid

/-! ### The environment -/

/-- The variable that gives the spacing. -/
def spacingVariable : String := "SKYPLOT_ISLAND_SPACING"

/-- The variable that gives the radius. -/
def radiusVariable : String := "SKYPLOT_SPAWN_RADIUS"

/-- The variable that gives the storage directory. -/
def storageVariable : String := "SKYPLOT_STORAGE_DIR"

/-- The value of a variable without blanks around it, unless nothing remains. -/
def setting? (environment : Environment) (name : String) : Option String :=
  ((environment.lookup name).map Text.trimString).filter (· ≠ "")

/-- The number that a variable gives, if it gives a value. -/
def numberSetting? (environment : Environment) (name : String) :
    Except ConfigProblem (Option Blocks) :=
  match setting? environment name with
  | none => .ok none
  | some value =>
    match Text.readBlocks? value.toList with
    | some n => .ok (some n)
    | none => .error (.variable name value)

/-- The configuration in which the variables of the environment have replaced the
fields. -/
def override (environment : Environment) (config : Config) : Except ConfigProblem Config := do
  let spacing ← numberSetting? environment spacingVariable
  let radius ← numberSetting? environment radiusVariable
  let storageDir := setting? environment storageVariable
  return config.update { spacing, radius, storageDir }

/-- The configuration with a storage directory that does not depend on the root
directory. -/
def resolve (root : String) (config : Config) : Config :=
  { config with storageDir := Path.join root config.storageDir }

/-- The configuration of the allocator with a given root directory. -/
def load (disk : Disk) (environment : Environment) (root : String) : Except Failure Config :=
  match (ofFile disk root).bind (override environment) with
  | .ok config => .ok (config.resolve root)
  | .error problem => .error (.config problem)

/-! ### Validation -/

/-- The settings of a configuration under which plots can be handed out. -/
def validate (config : Config) : Except Failure Settings :=
  if h : 1 ≤ config.spacing.1 then
    if config.radius.1 < 0 then .error (.exhausted (.badRadius config.radius))
    else
      let spacing : Spacing := ⟨config.spacing, h, config.spacing.2.2⟩
      let exclusion : Exclusion := ⟨config.radius.1.toNat⟩
      let rings := exclusion.rings spacing
      if maxExclusionRings < rings then
        .error (.exhausted (.tooManyRings config.radius rings config.spacing))
      else .ok { spacing, exclusion, storageDir := config.storageDir }
  else .error (.exhausted (.badSpacing config.spacing))

end Config

end IslandPlots
