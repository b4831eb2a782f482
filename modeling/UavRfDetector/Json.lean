import UavRfDetector.Exception

/-! The JSON block at the top of every iteration of `do_session`. The JSON
library is a parameter; what its manual promises is stated next to it. -/

namespace UavRfDetector

/-- `nlohmann::json::value_t`, without the splits of numbers. -/
inductive ValueType where
  | null | boolean | number | string | array | object
deriving DecidableEq, Repr

/-- The calls of `nlohmann::json` that the block makes: `assign` is `json[key] =
value` and `getToString` is `json.get_to(s)` for a `std::string s`. A `double` is
`digits` with the point moved `places` to the left. -/
structure JsonLibrary where
  Json : Type
  type : Json → ValueType
  null : Json
  ofInt : Int → Json
  ofDouble : (digits : Int) → (places : Nat) → Json
  ofString : String → Json
  assign : Json → String → Json → Except JsonException Json
  getToString : Json → Except JsonException String

/-- The manual's account of these calls: a default constructed value is null,
`operator[]` turns null into an object and leaves an object one, and a value
that is no string cannot be converted to one (`type_error.302`). -/
structure JsonLibrary.Documented (J : JsonLibrary) : Prop where
  null_type : J.type J.null = .null
  assign_object : ∀ json key value, J.type json = .null ∨ J.type json = .object →
    ∃ after, J.assign json key value = .ok after ∧ J.type after = .object
  getTo_other : ∀ json, J.type json ≠ .string → ∃ what, J.getToString json = .error ⟨302, what⟩

def jsonBlock (J : JsonLibrary) : Except JsonException String := do
  let json := J.null
  let json ← J.assign json "age" (J.ofInt 12)
  let json ← J.assign json "time" (J.ofDouble 10112 3)
  let json ← J.assign json "name" (J.ofString "Dan")
  let json_string ← J.getToString json
  return json_string

/-- The value built is an object, and an object is not converted to a string:
the block never gets to its end. -/
theorem jsonBlock_throws {J : JsonLibrary} (documented : J.Documented) :
    ∃ what, jsonBlock J = .error ⟨302, what⟩ := by
  obtain ⟨age, assignAge, ageType⟩ :=
    documented.assign_object J.null "age" (J.ofInt 12) (Or.inl documented.null_type)
  obtain ⟨time, assignTime, timeType⟩ :=
    documented.assign_object age "time" (J.ofDouble 10112 3) (Or.inr ageType)
  obtain ⟨name, assignName, nameType⟩ :=
    documented.assign_object time "name" (J.ofString "Dan") (Or.inr timeType)
  obtain ⟨what, throws⟩ := documented.getTo_other name (by simp [nameType])
  refine ⟨what, ?_⟩
  simp only [jsonBlock, assignAge, assignTime, assignName, throws, bind, Except.bind]

inductive JsonValue where
  | null
  | int (value : Int)
  | double (digits : Int) (places : Nat)
  | string (value : String)
  | object (members : List (String × JsonValue))

namespace JsonValue

def type : JsonValue → ValueType
  | .null => .null
  | .int _ | .double _ _ => .number
  | .string _ => .string
  | .object _ => .object

def typeName : JsonValue → String
  | .null => "null"
  | .int _ | .double _ _ => "number"
  | .string _ => "string"
  | .object _ => "object"

def assign (json : JsonValue) (key : String) (value : JsonValue) : Except JsonException JsonValue :=
  match json with
  | .null => .ok (.object [(key, value)])
  | .object members => .ok (.object (members.filter (fun member => member.1 ≠ key) ++ [(key, value)]))
  | other => .error ⟨305, "[json.exception.type_error.305] cannot use operator[] with a string argument with "
      ++ other.typeName⟩

def getToString : JsonValue → Except JsonException String
  | .string value => .ok value
  | other => .error ⟨302, "[json.exception.type_error.302] type must be string, but is " ++ other.typeName⟩

end JsonValue

/-- A library that keeps to the manual, to run the model with. -/
def plainJson : JsonLibrary where
  Json := JsonValue
  type := JsonValue.type
  null := .null
  ofInt := .int
  ofDouble := .double
  ofString := .string
  assign := JsonValue.assign
  getToString := JsonValue.getToString

theorem plainJson_documented : plainJson.Documented where
  null_type := rfl
  assign_object json key value shape := by
    cases json with
    | null => exact ⟨_, rfl, rfl⟩
    | object members => exact ⟨_, rfl, rfl⟩
    | int _ | double _ _ | string _ => rcases shape with shape | shape <;> cases shape
  getTo_other json other := by
    cases json with
    | string value => exact absurd rfl other
    | null | int _ | double _ _ | object _ => exact ⟨_, rfl⟩

end UavRfDetector
