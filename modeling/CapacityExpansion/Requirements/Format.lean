import CapacityExpansion.Requirements.Reading
import CapacityExpansion.Toml.Reading

/-!
# The format of requirements

Requirements are a table with the categories every scenario must select and a
table of rules, one for each feature.
-/

namespace CapacityExpansion.Requirements

open Toml (Format field)

/-- A list of names. -/
def names : Toml.Decoder (List String) := Toml.list Toml.string

/-- The rule of a feature. -/
def ruleFormat : Format NamedRule where
  title := "CategoryRuleRaw"
  fields := [
    field "required" names fun required rule => { rule with required },
    field "exclusive" names fun exclusive rule => { rule with exclusive }]
  initial := {}

/-- What every scenario must select. -/
def alwaysFormat : Format (List String) where
  title := "AlwaysRuleRaw"
  fields := [field "required" names fun required _ => required]
  initial := []

/-- Requirements by name. -/
def format : Format Named where
  title := "FeatureRequirementsRaw"
  fields := [
    field "always" alwaysFormat.decoder fun always named => { named with always },
    field "features" (Toml.mapping ruleFormat.decoder) fun features named => { named with features }]
  initial := { always := [], features := [] }
  needed := ["always"]

end CapacityExpansion.Requirements
