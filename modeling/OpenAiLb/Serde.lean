import Mathlib.Data.Int.Init

/-!
# JSON values, 64-bit integers and strings

The handlers read JSON with `serde_json`. The library itself is not part of the
repository: `SerdeJson` is what the code uses of it, and the accessors are the
documented ones of `serde_json::Value`. `trim` is the one of the standard library.
-/

namespace OpenAiLb

/-- The least value of an `i64`. -/
def i64Min : Int := -9223372036854775808

/-- The greatest value of an `i64`. -/
def i64Max : Int := 9223372036854775807

/-- The integers an `i64` can hold. -/
def IsI64 (n : Int) : Prop := i64Min ≤ n ∧ n ≤ i64Max

instance (n : Int) : Decidable (IsI64 n) := inferInstanceAs (Decidable (_ ∧ _))

/-- `i64::checked_add`. -/
def checkedAdd (a b : Int) : Option Int := if IsI64 (a + b) then some (a + b) else none

/-- `char::is_whitespace`: the Unicode property `White_Space`. -/
def isWhitespace (c : Char) : Bool :=
  let n := c.toNat
  (9 ≤ n && n ≤ 13) || n = 32 || n = 133 || n = 160 || n = 5760 || (8192 ≤ n && n ≤ 8202) ||
    n = 8232 || n = 8233 || n = 8239 || n = 8287 || n = 12288

/-- `str::trim`. -/
def trim (s : String) : String :=
  String.ofList ((s.toList.dropWhile isWhitespace).reverse.dropWhile isWhitespace).reverse

/-- `serde_json::Number`: an integer, or a floating-point number by its text. -/
inductive Number where
  | integer (n : Int)
  | float (text : String)
  deriving DecidableEq

/-- `serde_json::Value`. -/
inductive Value where
  | null
  | bool (b : Bool)
  | number (n : Number)
  | string (s : String)
  | array (items : List Value)
  | object (fields : List (String × Value))

namespace Value

/-- `Value::get` with a string index: the field of an object. -/
def get (v : Value) (name : String) : Option Value :=
  match v with
  | .object fields => fields.lookup name
  | _ => none

/-- `Value::as_str`. -/
def asStr : Value → Option String
  | .string s => some s
  | _ => none

/-- `Value::as_bool`. -/
def asBool : Value → Option Bool
  | .bool b => some b
  | _ => none

/-- `Value::as_array`. -/
def asArray : Value → Option (List Value)
  | .array items => some items
  | _ => none

/-- `Value::as_i64`: only integers in the range of an `i64`. -/
def asI64 : Value → Option Int
  | .number (.integer n) => if IsI64 n then some n else none
  | _ => none

/-- `Value::pointer` along unescaped field names. -/
def pointer (v : Value) : List String → Option Value
  | [] => some v
  | name :: path => (v.get name).bind fun inner => inner.pointer path

end Value

/-- A value is read as the string that it is. -/
theorem asStr_eq_some_iff {value : Value} {text : String} :
    value.asStr = some text ↔ value = .string text := by
  cases value <;> simp [Value.asStr]

/-- What the code uses of `serde_json`: parsing bytes and printing a value. -/
structure SerdeJson where
  /-- `serde_json::from_slice`. -/
  fromSlice : List UInt8 → Option Value
  /-- `Value::to_string`. -/
  toString : Value → String

end OpenAiLb
