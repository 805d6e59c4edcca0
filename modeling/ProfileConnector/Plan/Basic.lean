import ProfileConnector.Types.Bundle

/-!
Plans of transforms. A plan says what a property is made of and leaves the wording to the targets:
leaves are read from the row, from the entry of an array or from the element of a block at hand; a
block makes one result for every raw value, for every position of correlated lists or for every
entry of an array.
-/

namespace ProfileConnector

inductive Origin where
  | row (source : Source)
  | entry (relative : String)
  deriving DecidableEq, Repr

/-- A leaf as it is read: its origin, its default and the limits of the property it belongs to. -/
structure LeafRead where
  origin : Origin
  fallback : Option String
  property : String
  limits : Constraints
  deriving DecidableEq, Repr

structure LeafLimits where
  property : String := ""
  limits : Constraints := {}
  deriving DecidableEq, Repr

namespace LeafLimits

def validates (leaf : LeafLimits) : Bool := leaf.limits.hasString

def read (leaf : LeafLimits) (source : Source) : LeafRead :=
  ⟨.row source, source.fallback, leaf.property, leaf.limits⟩

def readEntry (leaf : LeafLimits) (relative : String) (fallback : Option String) : LeafRead :=
  ⟨.entry relative, fallback, leaf.property, leaf.limits⟩

/-- The limits for the leaves of a property; leaves are texts, so only limits of texts count. -/
def ofProperty (property : Property) : LeafLimits :=
  if property.constraints.hasString then ⟨property.name, property.constraints⟩ else {}

end LeafLimits

inductive Plan where
  | absent
  | single (read : LeafRead)
  | many (read : LeafRead)
  /-- A leaf as a list of texts, absent when it is empty. -/
  | filled (read : LeafRead)
  | element
  /-- The list of the raw value at hand, without it if it is empty. -/
  | elementList
  /-- The text of a slot at the position at hand. -/
  | picked (slot : Nat)
  /-- The list of the text of a slot at the position at hand. -/
  | pickedList (slot : Nat)
  | converted (descriptor : Descriptor) (value : Plan)
  | record (entries : List (String × Plan))
  | typed (names : DisplayNames) (entries : List (PropertyInfo × Plan))
  | serialized (value : Plan)
  /-- One result for every raw value of a leaf. -/
  | mapped (read : LeafRead) (element : DisplayNames) (absentIfEmpty : Bool) (body : Plan)
  /-- One result for every position of the lists in the slots. -/
  | broadcast (reads : List (Nat × LeafRead)) (element : DisplayNames) (absentIfEmpty : Bool) (body : Plan)
  /-- One result for every entry of the array at the root. -/
  | eachEntry (root : String) (body : Plan)
  | principal (members : List (String × Plan))
  | noPrincipals
  | missingMapping (property : String)
  | unsourced (type : PropertyType)
  | parsed (type : PropertyType) (source : Source)
  | defaulted (isCollection : Bool) (fallback : String) (value : Plan)
  | validated (property : Property) (value : Plan)

namespace Plan

def missingMappingMessage (property : String) : String :=
  s!"Missing entity mappings for people property '{property}'. Implement its transform by hand."

def baseLevel : Plan → Nat
  | .serialized _ => 2
  | _ => 1

end Plan

end ProfileConnector
