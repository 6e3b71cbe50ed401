import CapacityExpansion.Data.Checking
import CapacityExpansion.Requirements.Table

/-!
# Reading requirements

Requirements are given by the names of categories and features. The names are
looked up in the order they are given, every feature must have a rule, and the
whole must be coherent; the first thing wrong is reported.

* `ofNames`: the requirements given by names.
-/

namespace CapacityExpansion.Requirements

/-- What a feature means for the categories, by name. -/
structure NamedRule where
  /-- The categories required with the feature. -/
  required : List String := []
  /-- The categories exclusive to the feature. -/
  exclusive : List String := []
  deriving DecidableEq, Repr

/-- Requirements by name. -/
structure Named where
  /-- The categories every scenario must select. -/
  always : List String
  /-- The rules of features, in the order they are given. -/
  features : List (String × NamedRule)
  deriving DecidableEq, Repr

/-- What is wrong with requirements. -/
inductive Problem where
  /-- There is no such category. -/
  | unknownCategory (name : String)
  /-- There is no such feature. -/
  | unknownFeature (name : String)
  /-- A rule names a category which does not exist. -/
  | inRule (feature : Feature) (name : String)
  /-- A feature has two rules. -/
  | repeatedFeature (feature : Feature)
  /-- A feature has no rule. -/
  | missingFeature (feature : Feature)
  /-- A category is exclusive to two features, or twice to one. -/
  | sharedExclusive (category : Category) (first second : Feature)
  /-- A category required of every scenario is exclusive to a feature. -/
  | alwaysExclusive (category : Category) (owner : Feature)
  /-- A category required by a feature is exclusive to another one. -/
  | requiredExclusive (category : Category) (feature owner : Feature)
  deriving DecidableEq, Repr

/-- The messages of a problem, the outermost first. -/
def Problem.messages : Problem → List String
  | .unknownCategory name => ["Unknown subscenario category: " ++ name]
  | .unknownFeature name => ["Unknown feature: " ++ name]
  | .inRule feature name =>
    ["Invalid requirements for feature " ++ feature.name, "Unknown subscenario category: " ++ name]
  | .repeatedFeature feature => ["Feature " ++ feature.name ++ " is listed more than once"]
  | .missingFeature feature => ["No requirements given for feature " ++ feature.name]
  | .sharedExclusive category first second =>
    ["Category " ++ category.name ++ " cannot be exclusive to both " ++ first.name ++ " and " ++
      second.name]
  | .alwaysExclusive category owner =>
    ["Category " ++ category.name ++ " is always required, so cannot be exclusive to " ++ owner.name]
  | .requiredExclusive category feature owner =>
    ["Category " ++ category.name ++ " is required by " ++ feature.name ++
      ", so cannot be exclusive to " ++ owner.name]

/-- The categories with the names given. -/
def lookUpCategories (problem : String → Problem) (names : List String) :
    Except Problem (List Category) :=
  names.mapM fun name =>
    match Category.ofName? name with
    | some category => .ok category
    | none => .error (problem name)

/-- A rule and its feature, looked up by their names. -/
def lookUpRule (entry : String × NamedRule) : Except Problem (Feature × FeatureRule) :=
  match Feature.ofName? entry.1 with
  | none => .error (.unknownFeature entry.1)
  | some feature => do
    let required ← lookUpCategories (.inRule feature) entry.2.required
    let exclusive ← lookUpCategories (.inRule feature) entry.2.exclusive
    return (feature, { required, exclusive })

/-- The rules with a further one, whose feature has none yet. -/
def addRule (rules : List (Feature × FeatureRule)) (entry : String × NamedRule) :
    Except Problem (List (Feature × FeatureRule)) := do
  let (feature, rule) ← lookUpRule entry
  require (feature ∉ rules.map Prod.fst) (.repeatedFeature feature)
  return rules ++ [(feature, rule)]

/-- The rule of a feature among some rules. -/
def ruleAmong (rules : List (Feature × FeatureRule)) (feature : Feature) : Option FeatureRule :=
  (rules.find? (·.1 == feature)).map Prod.snd

/-- A category exclusive to a feature is not exclusive to one before, nor listed before. -/
def checkExclusive (earlier : List (Category × Feature)) (p : Category × Feature) :
    Except Problem Unit :=
  match earlier.find? (·.1 == p.1) with
  | some first => .error (.sharedExclusive p.1 first.2 p.2)
  | none => .ok ()

variable (r : Requirements)

/-- What every scenario must select is exclusive to no feature. -/
def checkAlways (category : Category) : Except Problem Unit :=
  match r.owner? category with
  | some owner => .error (.alwaysExclusive category owner)
  | none => .ok ()

/-- What a feature requires is exclusive to no other feature. -/
def checkRequired (p : Category × Feature) : Except Problem Unit :=
  match r.owner? p.1 with
  | some owner => require (owner = p.2) (.requiredExclusive p.1 p.2 owner)
  | none => .ok ()

/-- The requirements are coherent. -/
def checkCoherent : Except Problem Unit := do
  checkInOrder checkExclusive [] r.exclusives
  r.always.forM r.checkAlways
  r.requirements.forM r.checkRequired

/-- The requirements given by names. -/
def ofNames (named : Named) : Except Problem Requirements := do
  let always ← lookUpCategories .unknownCategory named.always
  let rules ← named.features.foldlM addRule []
  Feature.all.forM fun feature =>
    require ((ruleAmong rules feature).isSome) (.missingFeature feature)
  let r : Requirements := { always, rule := fun feature => (ruleAmong rules feature).getD {} }
  r.checkCoherent
  return r

end CapacityExpansion.Requirements
