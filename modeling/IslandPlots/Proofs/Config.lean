import IslandPlots.Config
import Mathlib.Tactic.SplitIfs

/-!
# Settings

What is known of the settings that a configuration gives when it is valid.
-/

namespace IslandPlots

namespace Config

/-- The settings are those that the configuration says. -/
theorem of_validate
    {config : Config} {settings : Settings} (h : config.validate = .ok settings) :
  settings.spacing.val = config.spacing.1
    ∧ settings.exclusion.radius = config.radius.1.toNat
    ∧ settings.storageDir = config.storageDir
  := by
  unfold validate at h
  dsimp only at h
  split_ifs at h
  cases h
  exact ⟨rfl, rfl, rfl⟩

/-- Settings keep the spacing of their configuration. -/
theorem spacing_of_validate
    {config : Config} {settings : Settings} (h : config.validate = .ok settings) :
  settings.spacing.val = config.spacing.1
  := (of_validate h).1

/-- Settings keep the storage directory of their configuration. -/
theorem storageDir_of_validate
    {config : Config} {settings : Settings} (h : config.validate = .ok settings) :
  settings.storageDir = config.storageDir
  := (of_validate h).2.2

/-- A radius can be used only if it is a 32-bit number. -/
theorem radius_le_of_validate
    {config : Config} {settings : Settings} (h : config.validate = .ok settings) :
  settings.exclusion.radius ≤ 2147483647
  := by
  have hfits := config.radius.2.2
  rw [(of_validate h).2.1]
  omega

/-- The exclusion covers as many rings as the spacing goes into the radius. -/
theorem rings_of_validate
    {config : Config} {settings : Settings} (h : config.validate = .ok settings) :
  (settings.exclusion.rings settings.spacing : Int) = config.radius.1 / config.spacing.1
  := by
  unfold validate at h
  dsimp only at h
  split_ifs at h with hspacing hradius
  cases h
  have hspacing' : ((config.spacing.1.toNat : Nat) : Int) = config.spacing.1 :=
    Int.toNat_of_nonneg (by omega)
  have hradius' : ((config.radius.1.toNat : Nat) : Int) = config.radius.1 :=
    Int.toNat_of_nonneg (by omega)
  rw [Exclusion.rings, Int.natCast_ediv, hspacing', hradius']

/-- Without an exclusion every positive spacing can be used. -/
theorem validate_of_no_exclusion
    {spacing : Blocks} (h : 1 ≤ spacing.1) (storageDir : String) :
  validate { spacing, radius := ⟨0, fits_zero⟩, storageDir }
    = .ok { spacing := ⟨spacing.1, h, spacing.2.2⟩, exclusion := ⟨0⟩, storageDir }
  := by
  unfold validate
  rw [dif_pos h, if_neg (Int.lt_irrefl 0)]
  apply if_neg
  simp [Exclusion.rings]

end Config

end IslandPlots
