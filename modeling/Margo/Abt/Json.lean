import Mathlib.Algebra.Group.Int.Defs
import Mathlib.Data.List.Basic

/-!
# JSON configurations and their checks

The part of json-c that the configuration code uses, and the checking macros
of `margo-macros.h`. A check either passes or stops with the text of the
error it logs.

## Implementation notes

`Json.null` is the C `NULL`: json-c represents the JSON value `null` and an
absent field by it. `getString` cuts a string at its first NUL character, as
every reader of a `char*` does.
-/

namespace Margo.Abt

/-- A parsed JSON value. -/
inductive Json
  | null
  | boolean (b : Bool)
  | double (digits : String)
  | int (i : Int)
  | object (fields : List (String × Json))
  | array (items : List Json)
  | string (s : String)

/-- `enum json_type`. -/
inductive JsonType
  | null
  | boolean
  | double
  | int
  | object
  | array
  | string
  deriving DecidableEq, Repr

namespace Json

/-- `json_type_to_name`. -/
def typeName : JsonType → String
  | .null => "null"
  | .boolean => "boolean"
  | .double => "double"
  | .int => "int"
  | .object => "object"
  | .array => "array"
  | .string => "string"

/-- `json_object_get_type`. -/
def getType : Json → JsonType
  | null => .null
  | boolean _ => .boolean
  | double _ => .double
  | int _ => .int
  | object _ => .object
  | array _ => .array
  | string _ => .string

/-- `json_object_is_type`. -/
def isType (j : Json) (type : JsonType) : Bool := j.getType == type

/-- `json_object_object_get`: anything but an object has no fields. -/
def get (j : Json) (key : String) : Json :=
  match j with
  | object fields => (fields.lookup key).getD .null
  | _ => .null

/-- The test `if (j)`. -/
def present (j : Json) : Bool := !j.isType .null

/-- The items of an array; `json_object_array_length` of `NULL` is not taken. -/
def items : Json → List Json
  | array items => items
  | _ => []

/-- A string as C code reads it. -/
def cString (s : String) : String := String.ofList (s.toList.takeWhile (· ≠ '\x00'))

/-- `json_object_get_string`, only called on strings. -/
def getString : Json → String
  | string s => cString s
  | _ => ""

/-- `json_object_get_int`: an integer out of range is clamped. -/
def getInt : Json → Int
  | int i => max (-2 ^ 31) (min i (2 ^ 31 - 1))
  | _ => 0

/-- `json_object_get_boolean`, only called on booleans and `NULL`. -/
def getBoolean : Json → Bool
  | boolean b => b
  | _ => false

/-- `json_object_object_get_string_or`. -/
def getStringOr (j : Json) (key fallback : String) : String :=
  if (j.get key).isType .string then (j.get key).getString else fallback

/-- The entry has the name, as `CONFIG_FIND_BY_NAME` compares it. -/
def named (name : String) (j : Json) : Bool :=
  (j.get "name").present && (j.get "name").getString == name

/-- `json_object_equal` on two names. -/
def equalNames : Json → Json → Bool
  | string a, string b => a == b
  | _, _ => false

end Json

/-- A check of the configuration: the text of the first error, or nothing. -/
abbrev Check := Except String Unit

/-- `ASSERT_CONFIG_HAS_OPTIONAL`. -/
def assertConfigHasOptional (config : Json) (key : String) (type : JsonType)
    (ctx : String) : Check :=
  let field := config.get key
  if field.present && !field.isType type then
    throw ("Invalid type for \"" ++ key ++ " in " ++ ctx ++ " configuration (expected " ++
      Json.typeName type ++ ", got " ++ Json.typeName field.getType ++ ")")
  else pure ()

/-- `CONFIG_IS_IN_ENUM_STRING`. -/
def configIsInEnumString (config : Json) (field : String) (values : List String) : Check :=
  if config.getString ∈ values then pure ()
  else throw ("Invalid enum value for " ++ field ++ " (\"" ++ config.getString ++ "\")")

/-- `CONFIG_NAME_IS_VALID`. -/
def configNameIsValid (obj : Json) : Check :=
  let name := (obj.get "name").getString
  match name.toList with
  | [] => throw "Empty \"name\" field"
  | c :: _ =>
      if c.isDigit then throw "First character of a name cannot be a digit"
      else
        match name.toList.find? fun c => !(c.isAlphanum || c == '_') with
        | some c =>
            throw ("Invalid character \"" ++ c.toString ++ "\" found in name \"" ++ name ++ "\"")
        | none => pure ()

/-- `CONFIG_NAMES_MUST_BE_UNIQUE`: entry `i` against every earlier entry. -/
def configNamesMustBeUnique (items : List Json) (container : String) : Check :=
  (List.range items.length).forM fun i =>
    (items.take i).forM fun b =>
      let name := (items.getD i .null).get "name"
      if Json.equalNames name (b.get "name") then
        throw ("Found two elements with the same name (\"" ++ name.getString ++ "\") in \"" ++
          container ++ "\"")
      else pure ()

/-! ## Checks that pass -/

theorem bind_ok {α β : Type} {x : Except String α} {f : α → Except String β} {b : β}
    (h : x >>= f = .ok b) : ∃ a, x = .ok a ∧ f a = .ok b := by
  cases x with
  | error e => cases h
  | ok a => exact ⟨a, rfl, h⟩

theorem forM_ok {α : Type} {f : α → Check} {xs : List α} (h : xs.forM f = .ok ()) :
    ∀ x ∈ xs, f x = .ok () := by
  induction xs with
  | nil => exact fun x hx => absurd hx List.not_mem_nil
  | cons a xs ih =>
      change (f a >>= fun _ => xs.forM f) = .ok () at h
      obtain ⟨⟨⟩, ha, hrest⟩ := bind_ok h
      intro x hx
      rcases List.mem_cons.mp hx with rfl | hx
      · exact ha
      · exact ih hrest x hx

end Margo.Abt
