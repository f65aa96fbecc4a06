import DataPipeline.Library.Json
import Mathlib.Data.Rat.Defs
import Mathlib.Algebra.Order.Ring.Rat

/-! The translation of client filters in `services/ai_gateway/main.py`.

A filter dictionary has the keys that the function looks at. What Qdrant finds
in a payload under a key, following nested keys and arrays, is a parameter.
-/

set_option autoImplicit false

namespace DataPipeline.AiGateway

/-! ## Filter dictionaries -/

/-- A value of a payload or of a condition; `nested` is an object or an array. -/
inductive Value where
  | null
  | bool (value : Bool)
  | integer (value : Int)
  | float (value : ℚ)
  | text (value : String)
  | nested (value : Json)
  deriving DecidableEq

/-- A `range` of a condition, and the model `Range` built from it. -/
structure Range where
  gte : Option ℚ
  lte : Option ℚ
  gt : Option ℚ
  lt : Option ℚ
  deriving DecidableEq

structure ConditionDict where
  key : Option String
  matched : Option Value
  range : Option Range
  deriving DecidableEq

structure FilterDict where
  must : Option (List ConditionDict)
  mustNot : Option (List ConditionDict)
  should : Option (List ConditionDict)
  deriving DecidableEq

structure FieldCondition where
  key : String
  matched : Option Value
  range : Option Range
  deriving DecidableEq

/-- The conditions of a dictionary, in the order in which they are built. -/
def FilterDict.conditions (filter : FilterDict) : List ConditionDict :=
  filter.must.getD [] ++ filter.mustNot.getD [] ++ filter.should.getD []

variable {Payload : Type}

/-- A number that keeps all the bounds that are given. -/
def Range.contains (range : Range) (value : ℚ) : Bool :=
  range.gte.all (· ≤ value) && range.lte.all (value ≤ ·) && range.gt.all (· < value) && range.lt.all (value < ·)

def Range.admits (range : Range) : Value → Bool
  | .integer value => range.contains value
  | .float value => range.contains value
  | .null | .bool _ | .text _ | .nested _ => false

/-- A `FieldCondition` holds if one of the values under its key does what it demands. -/
def FieldCondition.holds (values : Payload → String → List Value) (payload : Payload) (condition : FieldCondition) :
    Bool :=
  (values payload condition.key).any fun value =>
    condition.matched.all (value = ·) && condition.range.all fun range => range.admits value

/-- A condition of the documented shape: a key that is not empty, and a value to
match or else a range. -/
inductive ConditionDict.Documented : ConditionDict → Prop where
  | matched (key : String) (value : Value) (nonempty : key ≠ "") : Documented ⟨some key, some value, none⟩
  | range (key : String) (range : Range) (nonempty : key ≠ "") : Documented ⟨some key, none, some range⟩

def FilterDict.Documented (filter : FilterDict) : Prop := ∀ condition ∈ filter.conditions, condition.Documented

variable {values : Payload → String → List Value} {payload : Payload} {filter : FilterDict}

def isSource : ConditionDict := ⟨some "source", some (.text "api_docs"), none⟩
def isRecent : ConditionDict := ⟨some "timestamp", none, some ⟨some 1000000, none, none, none⟩⟩

end DataPipeline.AiGateway
