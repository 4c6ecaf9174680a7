import MarketBlocks.Common.Fault
import Mathlib.Algebra.Order.Field.Rat

/-!
# JSON documents

Documents as `nlohmann::json` holds them, and the functions of `json`, `json_element` and
`json_iterator` that read them. A constant index operator throws on a value of the wrong kind, but
trusts that a member or position of the right kind is there; so does an iterator that is
dereferenced.
-/

namespace MarketBlocks

/-- A JSON value. The members of an object are listed by increasing name. -/
inductive Json where
  | null
  | boolean (value : Bool)
  /-- A number that is stored as an integer, of 64 bits with or without a sign. -/
  | integer (value : ℤ)
  | float (value : ℚ)
  | string (value : String)
  | array (elements : List Json)
  | object (members : List (String × Json))

/-- The conversions of the standard library that read a text, and the number of decimal places of a
step size, `static_cast<int>(-std::log10(step))`. A text that cannot be converted raises, and a step size
whose logarithm is no `int` is undefined. -/
structure Conversions where
  stod : String → Option ℚ
  stoi : String → Option ℤ
  stoll : String → Option ℤ
  /-- `to_time_t` with the format `%Y-%m-%dT%T`. -/
  toTimeT : String → ℤ
  precision : ℚ → Option ℤ

/-- Conversions of the texts of two numbers. -/
def Conversions.ofNumerals : Conversions where
  stod := fun text => if text = "1" then some 1 else if text = "2" then some 2 else none
  stoi := fun text => if text = "1" then some 1 else if text = "2" then some 2 else none
  stoll := fun text => if text = "1" then some 1 else if text = "2" then some 2 else none
  toTimeT := fun _ => 0
  precision := fun _ => some 0

/-- The natural number that a text spells in decimal digits. -/
def readDigits (text : String) : Option ℕ :=
  if text = "" then none
  else
    text.toList.foldlM
      (fun number c => if c.isDigit then some (10 * number + (c.toNat - '0'.toNat)) else none) 0

/-- Conversions of the texts of natural numbers. -/
def Conversions.ofDigits : Conversions where
  stod := fun text => (readDigits text).map Nat.cast
  stoi := fun text => (readDigits text).map Nat.cast
  stoll := fun text => (readDigits text).map Nat.cast
  toTimeT := fun _ => 0
  precision := fun _ => some 0

namespace Json

/-! ## Access -/

/-- The member of an object. -/
def member (paramName : String) : Json → Option Json
  | .object members => (members.find? (·.1 = paramName)).map (·.2)
  | _ => none

/-- `has_member`. -/
def hasMember (paramName : String) (json : Json) : Bool := (json.member paramName).isSome

/-- `element(paramName)`. -/
def element (paramName : String) (json : Json) : Except Fault Json :=
  match json with
  | .object _ =>
    match json.member paramName with
    | some value => .ok value
    | none => .error .undefined
  | _ => .error .otherException

/-- `element(index)`. A negative index is converted to a very large one. -/
def elementAt (index : ℤ) : Json → Except Fault Json
  | .array elements =>
    if 0 ≤ index then
      match elements[index.toNat]? with
      | some value => .ok value
      | none => .error .undefined
    else .error .undefined
  | _ => .error .otherException

/-- `size`: a value that is no container counts as one, unless it is null. -/
def size : Json → ℕ
  | .null => 0
  | .array elements => elements.length
  | .object members => members.length
  | _ => 1

/-- The values that an iterator goes through, from `begin` to `end`. -/
def values : Json → List Json
  | .null => []
  | .array elements => elements
  | .object members => members.map (·.2)
  | json => [json]

/-- The values that an iterator goes through with their keys. Only members of an object have one:
`key` answers with a reference to a temporary elsewhere. -/
def items : Json → List (Except Fault String × Json)
  | .object members => members.map fun entry => (.ok entry.1, entry.2)
  | json => json.values.map fun value => (.error .undefined, value)

/-- `begin().value()`. -/
def beginValue (json : Json) : Except Fault Json :=
  match json with
  | .null => .error .otherException
  | _ =>
    match json.values.head? with
    | some value => .ok value
    | none => .error .undefined

/-! ## Conversion -/

/-- The conversion of a number to an integer type drops its fraction. -/
def truncate (value : ℚ) : ℤ := value.num.tdiv value.den

/-- `get<std::string>`. -/
def asString : Json → Except Fault String
  | .string value => .ok value
  | _ => .error .otherException

/-- `get<bool>`. -/
def asBool : Json → Except Fault Bool
  | .boolean value => .ok value
  | _ => .error .otherException

/-- `get<double>`. -/
def asDouble : Json → Except Fault ℚ
  | .integer value => .ok value
  | .float value => .ok value
  | _ => .error .otherException

/-- `get<std::time_t>` and `get<long long>`, the integer type of a value without a fraction. -/
def asTime : Json → Except Fault ℤ
  | .integer value => .ok (value.bmod (2 ^ 64))
  | .float value => .ok (truncate value)
  | _ => .error .otherException

/-- `get<int>`, which takes truth values as well. -/
def asInt : Json → Except Fault ℤ
  | .integer value => .ok (value.bmod (2 ^ 32))
  | .float value => .ok (truncate value)
  | .boolean value => .ok (if value then 1 else 0)
  | _ => .error .otherException

/-- `get<std::vector<std::string>>`. -/
def asStrings : Json → Except Fault (List String)
  | .array elements => elements.mapM asString
  | _ => .error .otherException

/-- `std::stod(get<std::string>())`. -/
def asNumeral (c : Conversions) (json : Json) : Except Fault ℚ := do
  let text ← json.asString
  match c.stod text with
  | some value => .ok value
  | none => .error .otherException

/-- `std::stoll(get<std::string>())`. -/
def asTimeNumeral (c : Conversions) (json : Json) : Except Fault ℤ := do
  let text ← json.asString
  match c.stoll text with
  | some value => .ok value
  | none => .error .otherException

/-- `get(paramName)`, with the conversion that stands for its type. -/
def get {α : Type} (convert : Json → Except Fault α) (paramName : String) (json : Json) :
    Except Fault α :=
  json.element paramName >>= convert

/-- `get(index)`. -/
def getAt {α : Type} (convert : Json → Except Fault α) (index : ℤ) (json : Json) : Except Fault α :=
  json.elementAt index >>= convert

/-! ## What is there -/

variable {c : Conversions} {json : Json}

/-- A member that is there is found. -/
theorem element_of_member {name : String} {value : Json} (h : json.member name = some value) :
    json.element name = .ok value := by
  cases json with
  | object members =>
    rw [Json.element, h]
  | _ => cases h

/-- A member that is there is converted. -/
theorem get_of_member {α : Type} {convert : Json → Except Fault α} {name : String} {value : Json}
    (h : json.member name = some value) : json.get convert name = convert value := by
  rw [Json.get, element_of_member h]
  rfl

/-- A text that stands for a number is read as this number. -/
theorem asNumeral_string {text : String} {value : ℚ} (h : c.stod text = some value) :
    (Json.string text).asNumeral c = .ok value := by
  simp only [Json.asNumeral, Json.asString, bind, Except.bind, h]

/-- An element that is there is found. -/
theorem elementAt_array {elements : List Json} {i : ℕ} {element : Json}
    (h : elements[i]? = some element) : (Json.array elements).elementAt i = .ok element := by
  rw [Json.elementAt, if_pos (Int.natCast_nonneg i), Int.toNat_natCast, h]

end Json

end MarketBlocks
