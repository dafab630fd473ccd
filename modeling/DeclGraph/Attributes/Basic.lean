import Std.Data.ExtTreeMap
import DeclGraph.Attributes.Value

/-!
# Attribute maps

Entities and edges carry attributes under text keys. A map is determined by
what it holds under each key, and it is listed in the order of its keys.
-/

namespace DeclGraph

/-- Attributes by key. -/
abbrev Attributes := Std.ExtTreeMap String Value

namespace Attributes

/-- The text under a key. -/
def text? (attributes : Attributes) (key : String) : Option String :=
  attributes[key]?.bind Value.text?

/-- The number under a key. -/
def int? (attributes : Attributes) (key : String) : Option Int64 :=
  attributes[key]?.bind Value.int?

/-- The flag under a key. -/
def flag? (attributes : Attributes) (key : String) : Option Bool :=
  attributes[key]?.bind Value.flag?

/-- The list of texts under a key. -/
def texts? (attributes : Attributes) (key : String) : Option (List String) :=
  attributes[key]?.bind Value.texts?

/-- The list of numbers under a key. -/
def ints? (attributes : Attributes) (key : String) : Option (List Int64) :=
  attributes[key]?.bind Value.ints?

/-- Whether a flag is set. A missing flag is not. -/
def isSet (attributes : Attributes) (key : String) : Bool :=
  (attributes.flag? key).getD false

/-- Adds texts to the list under a key. Anything else under the key gives
way. -/
def unionTexts (attributes : Attributes) (key : String) (values : List String) : Attributes :=
  attributes.insert key (.texts (sortedUnion ((attributes.texts? key).getD []) values))

/-- Adds numbers to the list under a key. Anything else under the key gives
way. -/
def unionInts (attributes : Attributes) (key : String) (values : List Int64) : Attributes :=
  attributes.insert key (.ints (sortedUnion ((attributes.ints? key).getD []) values))

/-- Takes up one entry of another map: a list is added to the list here, and any
other value only fills a key that is absent. -/
def absorbEntry (attributes : Attributes) (key : String) : Value → Attributes
  | .texts values => attributes.unionTexts key values
  | .ints values => attributes.unionInts key values
  | value => attributes.insertIfNew key value

/-- Takes up every entry of another map. -/
def absorb (attributes other : Attributes) : Attributes :=
  other.foldl absorbEntry attributes

end Attributes

end DeclGraph
