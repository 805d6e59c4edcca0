import ProfileConnector.Plan.Entity
import ProfileConnector.Plan.Principal

/-!
The plan of a property. A people label without a mapping is an error at run time; then come
properties without a source, principals, entities and plain values.
-/

namespace ProfileConnector

/-- The property has limits of its kind: numbers for numeric types, texts for the others. -/
def Property.isLimited (property : Property) : Bool :=
  if property.type.isNumeric then property.constraints.hasNumber else property.constraints.hasString

structure PlanContext where
  bundle : Option Bundle
  format : InputFormat

structure PropertyPlan where
  plan : Plan
  typeNames : Option DisplayNames

namespace Plan

def ofValue (property : Property) : Plan :=
  let parsed := Plan.parsed property.type property.source
  let defaulted := match property.type, property.source.fallback with
    | .string, some fallback => .defaulted false fallback parsed
    | .stringCollection, some fallback => .defaulted true fallback parsed
    | _, _ => parsed
  if property.isLimited then .validated property defaulted else defaulted

end Plan

namespace PlanContext

def infoFor? (context : PlanContext) (entity : String) : Option TypeInfo :=
  context.bundle.bind fun bundle => bundle.infoFor? entity

def typeMap (context : PlanContext) : TypeMap := (context.bundle.map (·.typeMap)).getD []

def ofEntity (context : PlanContext) (property : Property) (mapping : EntityMapping) : PropertyPlan :=
  let info := context.infoFor? mapping.entity
  let entities : EntityContext := ⟨context.typeMap, LeafLimits.ofProperty property⟩
  let plan :=
    if property.type = .stringCollection then entities.entityCollection context.format info mapping.fields
    else entities.entity info mapping.fields
  ⟨plan, info.map (·.names)⟩

def ofProperty (context : PlanContext) (property : Property) : PropertyPlan :=
  if property.isPeopleLabelled && property.entity.isNone then ⟨.missingMapping property.name, none⟩
  else if property.source.unsourced then ⟨.unsourced property.type, none⟩
  else
    let fields := property.entity.map (·.fields)
    match property.type, property.entity with
    | .principal, _ => ⟨.ofPrincipal fields property.source, some Plan.principalElement⟩
    | .principalCollection, _ => ⟨.ofPrincipals fields property.source, some Plan.principalElement⟩
    | _, some mapping => context.ofEntity property mapping
    | _, none => ⟨.ofValue property, none⟩

end PlanContext

end ProfileConnector
