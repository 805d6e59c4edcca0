import ProfileConnector.Generation
import ProfileConnector.Proofs.Catalog.Reach
import ProfileConnector.Proofs.Text.Small
import ProfileConnector.Proofs.Types.Synthesis

/-!
What a generation depends on. A schema shapes its bundle through its mapped properties alone, and what
is written for a target and a property depends on these two, the bundle and the format of the input.
So generations over schemas with the same mapped properties read their expressions, type names and
declarations off the same tables, whatever other properties and targets there are.
-/

namespace ProfileConnector

open Outcome

/-! ## Targets -/

namespace Target

theorem letters_of_mem_name (target : Target) :
    ∀ c ∈ target.name.toList, Text.inRanges Text.letterRanges c.toNat = true := by
  cases target <;> exact List.all_eq_true.mp (by decide)

theorem plainName_of_find {text : String} {target : Target} (found : find (plainName text) = .ok target) :
    plainName text = target.name := by
  have named : target.name = plainName (plainName text) := by
    unfold find at found
    split at found
    · rename_i match_
      cases found
      simpa [ofName?] using List.find?_some match_
    · cases found
  have shown : target.name.toList = Text.smallChars [] (plainName text).toList := by
    simp only [named, plainName, Text.smallString, Text.trimString, String.toList_ofList,
      Text.trimChars_smallChars]
  have plain : Text.smallChars [] (plainName text).toList = (plainName text).toList := by
    refine Text.smallChars_eq_self (fun c member => ?_) (shown ▸ target.letters_of_mem_name)
    simp only [plainName, Text.smallString, String.toList_ofList] at member
    exact Text.not_source_of_mem_smallChars member
  exact String.toList_inj.mp (plain.symm.trans shown.symm)

end Target

theorem Settings.nodup_plainTargets (names : List String) : (plainTargets names).Nodup := by
  have added := Catalog.nodup_foldl_adding List.nodup_nil ((names.map Target.plainName).filter (!·.isEmpty))
  rw [Catalog.foldl_adding_eq] at added
  simpa [plainTargets] using added

namespace Generator

variable {settings : Settings} {names : List String} {catalog : Catalog} {generator : Generator}

theorem ofSettings_ok (configured : settings.targets = Settings.plainTargets names)
    (made : ofSettings settings catalog = .ok generator) :
    generator.catalog = catalog ∧ generator.settings = settings ∧
      generator.targets.map Target.name = settings.targets ∧ generator.targets.Nodup := by
  obtain ⟨targets, found, result⟩ := bind_eq_ok.mp made
  cases result
  have named : targets.map Target.name = settings.targets.map id := by
    refine map_of_mapM found fun text listed target foundHere => ?_
    rw [configured, Settings.plainTargets] at listed
    have plain := (List.mem_filter.mp (List.mem_eraseDups.mp listed)).1
    obtain ⟨name, _, rfl⟩ := List.mem_map.mp plain
    exact (Target.plainName_of_find foundHere).symm
  rw [List.map_id] at named
  refine ⟨rfl, rfl, named, List.Nodup.of_map Target.name ?_⟩
  rw [named, configured]
  exact Settings.nodup_plainTargets names

end Generator

/-! ## What shapes a bundle -/

namespace Schema

def mappedProperties (schema : Schema) : List Property := schema.properties.filter (·.entity.isSome)

variable {schema schema' : Schema}

theorem entityFields_eq (mapped : schema.mappedProperties = schema'.mappedProperties) :
    schema.entityFields = schema'.entityFields := by
  have skipped (schema : Schema) : schema.entityFields = schema.mappedProperties.foldl grouping [] := by
    rw [mappedProperties, List.foldl_filter]
    refine List.foldl_ext _ _ _ fun groups property _ => ?_
    cases mapping : property.entity <;> simp [grouping, mapping]
  rw [skipped, mapped, ← skipped]

end Schema

namespace Catalog

variable {catalog : Catalog} {schema schema' : Schema}

theorem seeds_eq (mapped : schema.mappedProperties = schema'.mappedProperties) (rootFacet : String) :
    catalog.seeds schema rootFacet = catalog.seeds schema' rootFacet := by
  have skipped (schema : Schema) (known : EntityMapping → Option String) :
      schema.properties.filterMap (fun property => property.entity.bind known) =
        schema.mappedProperties.filterMap fun property => property.entity.bind known := by
    rw [Schema.mappedProperties, List.filterMap_filter]
    refine List.filterMap_congr fun property _ => ?_
    cases property.entity <;> rfl
  simp only [seeds, skipped, mapped]

theorem synthesis_eq (mapped : schema.mappedProperties = schema'.mappedProperties) (closure : List String) :
    catalog.synthesis schema closure = catalog.synthesis schema' closure := by
  rw [synthesis, synthesis, Schema.entityFields_eq mapped]

end Catalog

theorem Bundle.build_eq {schema schema' : Schema} (mapped : schema.mappedProperties = schema'.mappedProperties)
    (catalog : Catalog) (rootFacet : String) : build catalog schema rootFacet = build catalog schema' rootFacet := by
  simp only [build, ofClosure, Catalog.seeds_eq mapped, Catalog.synthesis_eq mapped]

/-! ## What a generation writes -/

namespace Generation

/--
The transforms and declarations of a generation are read off tables: a transform for every target and
property, targets in the order of their names and properties in the order given.
-/
def FollowsTables (generation : Generation) (names : List String) (properties : List Property)
    (typeNames : Target → Property → Option String) (expressions : Target → Property → String)
    (declarations : Target → String) : Prop :=
  ∃ targets : List Target, targets.map Target.name = names ∧ targets.Nodup ∧
    generation.transforms = (targets.flatMap fun target => properties.map fun property =>
      ⟨target, property.name, typeNames target property, expressions target property⟩) ∧
    generation.declarations = targets.map fun target => (target, declarations target)

end Generation

namespace Generator

variable {generator : Generator} {schema : Schema} {result : Generation}

def typeName (context : PlanContext) (target : Target) (property : Property) : Option String :=
  (context.ofProperty property).typeNames.map (·.on target)

/-- The expression of a property; one that cannot be written does not count. -/
def expression (context : PlanContext) (target : Target) (property : Property) : String :=
  ((context.ofProperty property).plan.write target).toOption.getD ""

theorem transform_ok {context : PlanContext} {target : Target} {property : Property} {transformed : Transform}
    (done : transform context target property = .ok transformed) :
    transformed =
      ⟨target, property.name, typeName context target property, expression context target property⟩ := by
  obtain ⟨text, written, result⟩ := bind_eq_ok.mp done
  cases result
  simp [typeName, expression, written, Except.toOption]

/-- A generation with a bundle follows the tables that its bundle and format give. -/
theorem generate_ok (people : schema.hasPeople) (distinct : generator.targets.Nodup)
    (done : generator.generate schema = .ok result) :
    ∃ bundle, Bundle.build generator.catalog schema generator.settings.rootFacet = .ok bundle ∧
      let context := generator.context schema (some bundle)
      result.FollowsTables (generator.targets.map Target.name) schema.properties (typeName context)
        (expression context) bundle.declarations := by
  obtain ⟨found, built, remaining⟩ := bind_eq_ok.mp done
  rw [mapError_eq_ok, bundle?, if_pos people, map_eq_ok] at built
  obtain ⟨bundle, built, rfl⟩ := built
  obtain ⟨transforms, written, result⟩ := bind_eq_ok.mp remaining
  cases result
  refine ⟨bundle, built, generator.targets, rfl, distinct, ?_, rfl⟩
  have each : transforms.map id = _ := map_of_mapM (mapError_eq_ok.mp written) fun target _ written inner =>
    (List.map_id written).symm.trans (map_of_mapM inner fun property _ transformed => transform_ok)
  rw [List.flatMap_def, ← each, List.map_id]

/--
Generations over two schemas of the same mapped properties and format, under settings that differ in
their targets only, follow the same tables.
-/
theorem generate_sameTables {settings : Settings} {names names' : List String} {catalog : Catalog}
    {generator generator' : Generator} {schema schema' : Schema} {result result' : Generation}
    (configured : settings.targets = Settings.plainTargets names)
    (made : ofSettings settings catalog = .ok generator)
    (made' : ofSettings { settings with targets := Settings.plainTargets names' } catalog = .ok generator')
    (people : schema.hasPeople) (people' : schema'.hasPeople) (format : schema.inputFormat = schema'.inputFormat)
    (mapped : schema.mappedProperties = schema'.mappedProperties)
    (done : generator.generate schema = .ok result) (done' : generator'.generate schema' = .ok result') :
    ∃ (typeNames : Target → Property → Option String) (expressions : Target → Property → String)
        (declarations : Target → String),
      result.FollowsTables settings.targets schema.properties typeNames expressions declarations ∧
      result'.FollowsTables (Settings.plainTargets names') schema'.properties typeNames expressions declarations := by
  obtain ⟨sameCatalog, sameSettings, named, distinct⟩ := ofSettings_ok configured made
  obtain ⟨sameCatalog', sameSettings', named', distinct'⟩ := ofSettings_ok rfl made'
  obtain ⟨bundle, built, follows⟩ := generate_ok people distinct done
  obtain ⟨bundle', built', follows'⟩ := generate_ok people' distinct' done'
  rw [sameCatalog, sameSettings] at built
  rw [sameCatalog', sameSettings', ← Bundle.build_eq mapped, built] at built'
  cases built'
  -- Besides the bundle only the format of the schema enters the context.
  have sameContext : generator'.context schema' (some bundle) = generator.context schema (some bundle) := by
    simp only [context, sameSettings, sameSettings', format]
  rw [named] at follows
  rw [named', sameContext] at follows'
  exact ⟨_, _, _, follows, follows'⟩

def bareCatalog : Catalog := ⟨{}, List.nodup_nil⟩

def skillProperty : Property where
  name := "skills"
  type := .stringCollection
  entity := some ⟨"skill", [⟨"displayName", { headers := ["skill"] }⟩]⟩

def titleProperty : Property where
  name := "title"
  type := .string
  source := { headers := ["title"] }

def titledSchema : Schema := { contentCategory := some "people", properties := [titleProperty, skillProperty] }

def skillSchema : Schema := { contentCategory := some "people", properties := [skillProperty] }

def scriptSettings : Settings := { targets := Settings.plainTargets ["TypeScript", "python"] }

def classSettings : Settings := { scriptSettings with targets := Settings.plainTargets ["python", "csharp"] }

theorem generate_sameTables_skills : ∃ generator generator' result result',
    ofSettings scriptSettings bareCatalog = .ok generator ∧ ofSettings classSettings bareCatalog = .ok generator' ∧
    generator.generate titledSchema = .ok result ∧ generator'.generate skillSchema = .ok result' ∧
    ∃ typeNames expressions declarations,
      result.FollowsTables ["typescript", "python"] [titleProperty, skillProperty] typeNames expressions declarations ∧
      result'.FollowsTables ["python", "csharp"] [skillProperty] typeNames expressions declarations := by
  have found : scriptSettings.targets.mapM Target.find = .ok [.typescript, .python] := by decide +kernel
  have found' : classSettings.targets.mapM Target.find = .ok [.python, .csharp] := by decide +kernel
  have made : ofSettings scriptSettings bareCatalog = .ok ⟨bareCatalog, scriptSettings, [.typescript, .python]⟩ := by
    rw [ofSettings, found]
    rfl
  have made' : ofSettings { scriptSettings with targets := Settings.plainTargets ["python", "csharp"] } bareCatalog =
      .ok ⟨bareCatalog, classSettings, [.python, .csharp]⟩ := by
    rw [ofSettings, ← classSettings, found']
    rfl
  have view : (generate ⟨bareCatalog, scriptSettings, [.typescript, .python]⟩ titledSchema).map
      (·.transforms.length) = .ok 4 := by decide +kernel
  have view' : (generate ⟨bareCatalog, classSettings, [.python, .csharp]⟩ skillSchema).map
      (·.transforms.length) = .ok 2 := by decide +kernel
  obtain ⟨result, done, _⟩ := map_eq_ok.mp view
  obtain ⟨result', done', _⟩ := map_eq_ok.mp view'
  have names : scriptSettings.targets = ["typescript", "python"] := by decide +kernel
  have names' : Settings.plainTargets ["python", "csharp"] = ["python", "csharp"] := by decide +kernel
  have configured : scriptSettings.targets = Settings.plainTargets ["TypeScript", "python"] := by
    simp only [scriptSettings]
  have mapped : titledSchema.mappedProperties = skillSchema.mappedProperties := by decide +kernel
  have format : titledSchema.inputFormat = skillSchema.inputFormat := rfl
  have shared := generate_sameTables configured made made' (by decide) (by decide) format mapped done done'
  rw [names, names'] at shared
  exact ⟨_, _, result, result', made, made', done, done', shared⟩

end Generator

end ProfileConnector
