import ProfileConnector.Declaration.CSharp
import ProfileConnector.Declaration.Python
import ProfileConnector.Declaration.TypeScript
import ProfileConnector.Target.Python
import ProfileConnector.Target.TypeScript

/-!
Generation. A run writes one transform for every target and property, targets in the order of the
settings and properties in the order of the schema. The bundle is complete before the first plan is
made, so a transform depends on the schema only through its property, its format and the bundle.
-/

namespace ProfileConnector

def Plan.write (plan : Plan) : Target → Except WriteFault String
  | .typescript => .ok (TypeScript.expression plan)
  | .csharp => CSharp.expression plan
  | .python => .ok (Python.expression plan)

/-- The text of a plan at an indentation level. -/
def Plan.writeAt (level : Nat) (plan : Plan) : Target → Except WriteFault String
  | .typescript => .ok (TypeScript.write level plan)
  | .csharp => CSharp.write level plan
  | .python => .ok ((Python.term plan).write level)

theorem Plan.write_eq (plan : Plan) (target : Target) : plan.write target = plan.writeAt plan.baseLevel target := by
  cases target <;> rfl

def Bundle.declarations (bundle : Bundle) : Target → String
  | .typescript => (TypeScript.Declarations.ofBundle bundle).write
  | .csharp => (CSharp.Declarations.ofBundle bundle).write
  | .python => (Python.Declarations.ofBundle bundle).write

structure UnknownTarget where
  name : String
  deriving DecidableEq, Repr

def UnknownTarget.message (unknown : UnknownTarget) : String :=
  s!"Unsupported target language '{unknown.name}'"

def Target.find (name : String) : Except UnknownTarget Target :=
  match ofName? name with
  | some target => .ok target
  | none => .error ⟨name⟩

inductive GenerationFault where
  | catalog (fault : CatalogFault)
  | number (fault : WriteFault)
  deriving DecidableEq, Repr

structure Transform where
  target : Target
  property : String
  typeName : Option String
  expression : String
  deriving DecidableEq, Repr

structure Generation where
  bundle : Option Bundle
  transforms : List Transform
  declarations : List (Target × String)

structure Generator where
  catalog : Catalog
  settings : Settings
  targets : List Target

namespace Generator

def ofSettings (settings : Settings) (catalog : Catalog) : Except UnknownTarget Generator := do
  pure ⟨catalog, settings, ← settings.targets.mapM Target.find⟩

/-- The bundle of a schema; without people labels and entities there is none. -/
def bundle? (generator : Generator) (schema : Schema) : Except CatalogFault (Option Bundle) :=
  if schema.hasPeople then (Bundle.build generator.catalog schema generator.settings.rootFacet).map some
  else .ok none

def context (generator : Generator) (schema : Schema) (bundle : Option Bundle) : PlanContext :=
  ⟨bundle, generator.settings.inputFormat.getD schema.inputFormat⟩

def transform (context : PlanContext) (target : Target) (property : Property) :
    Except WriteFault Transform := do
  let planned := context.ofProperty property
  pure ⟨target, property.name, planned.typeNames.map (·.on target), ← planned.plan.write target⟩

def generate (generator : Generator) (schema : Schema) : Except GenerationFault Generation := do
  let bundle ← (generator.bundle? schema).mapError .catalog
  let context := generator.context schema bundle
  let transforms ← (generator.targets.mapM fun target =>
    schema.properties.mapM (transform context target)).mapError .number
  pure {
    bundle := bundle
    transforms := transforms.flatten
    declarations := match bundle with
      | none => []
      | some bundle => generator.targets.map fun target => (target, bundle.declarations target) }

end Generator

namespace Generation

def forTarget (generation : Generation) (target : String) : List Transform :=
  generation.transforms.filter fun transform => transform.target.name == target

def expression? (generation : Generation) (target property : String) : Option String :=
  ((generation.forTarget target).find? fun transform => transform.property == property).map (·.expression)

end Generation

end ProfileConnector
