import MasakariHA.Api.ValidName
import MasakariHA.Lib.PyString

/-!
# The schema of a host request

`schemas/hosts.py`, with the types of its properties in `parameter_types.py`. A type is a dictionary
of keywords, and a value is accepted if every keyword accepts it.

* `Json`, `Json.str`: a value of a request;
* `ParameterType`, with the types `name`, `type`, `description` and `boolean`;
* `HostBody`, `create`, `update`: the bodies that are accepted;
* `accepted_shapes`: what an accepted body is made of.
-/

namespace MasakariHA.Api

open Lib Lib.PyRegex

/-! ## Values -/

/-- A decoded value; of a number, an array and an object only the text that `str` makes of it. -/
inductive Json where
  | null
  | bool (b : Bool)
  | number (text : String)
  | string (s : String)
  | array (text : String)
  | object (text : String)
  deriving DecidableEq, Repr

/-- `str(value)`. -/
def Json.str : Json → String
  | .null => "None"
  | .bool b => if b then "True" else "False"
  | .number text | .array text | .object text => text
  | .string s => s

inductive JsonType where
  | null
  | boolean
  | string
  deriving DecidableEq, Repr

def Json.hasType : Json → JsonType → Bool
  | .null, .null | .bool _, .boolean | .string _, .string => true
  | _, _ => false

/-- The characters of a string. -/
def codePoints (s : String) : List Nat := s.toList.map Char.toNat

/-! ## Types of properties -/

/-- The keywords of a type; a missing one accepts every value. -/
structure ParameterType where
  types : List JsonType
  minLength : Nat := 0
  maxLength : Option Nat := none
  pattern : Option (List Part) := none
  format : Option (List Nat → Except Exc Unit) := none
  enum : Option (List Json) := none

/-- The keywords for strings accept any other value. -/
def ParameterType.acceptsText (t : ParameterType) : Json → Bool
  | .string s =>
    t.minLength ≤ s.length && t.maxLength.all (s.length ≤ ·) &&
      t.pattern.all (search · (codePoints s)) &&
        t.format.all fun check => (check (codePoints s)).isOk
  | _ => true

def ParameterType.accepts (t : ParameterType) (v : Json) : Bool :=
  t.types.any v.hasType && t.enum.all (v ∈ ·) && t.acceptsText v

namespace ParameterTypes

/-- The type `name`. -/
def name (u : UnicodeData) : ParameterType where
  types := [.string]
  minLength := 1
  maxLength := some 255
  format := some (validateName u)

/-- `valid_description_regex`: `^[%s]*$`. -/
def validDescriptionRegex (u : UnicodeData) : List Part :=
  [.bol, .star (buildRegexRange u true false []), .eol]

def description (u : UnicodeData) : ParameterType where
  types := [.string, .null]
  pattern := some (validDescriptionRegex u)

/-- `^[a-zA-Z0-9]*$`. -/
def typeRegex : List Part :=
  [.bol, .star [.lit 97, .dash, .lit 122, .lit 65, .dash, .lit 90, .lit 48, .dash, .lit 57], .eol]

def type : ParameterType where
  types := [.string, .null]
  maxLength := some 255
  pattern := some typeRegex

def booleanEnum : List Json :=
  [.bool true, .string "True", .string "TRUE", .string "true", .string "1", .string "ON",
    .string "On", .string "on", .string "YES", .string "Yes", .string "yes",
    .bool false, .string "False", .string "FALSE", .string "false", .string "0", .string "OFF",
    .string "Off", .string "off", .string "NO", .string "No", .string "no"]

def boolean : ParameterType where
  types := [.boolean, .string]
  enum := some booleanEnum

end ParameterTypes

/-! ## Bodies -/

/-- The `host` object of a request. It has no additional properties. -/
structure HostBody where
  name : Option Json := none
  type : Option Json := none
  controlAttributes : Option Json := none
  reserved : Option Json := none
  onMaintenance : Option Json := none
  deriving DecidableEq, Repr

namespace HostsSchema

section Accepted

variable (u : UnicodeData)

/-- `_base`. -/
def base (b : HostBody) : Bool :=
  b.name.all (ParameterTypes.name u).accepts && b.type.all ParameterTypes.type.accepts &&
    b.controlAttributes.all (ParameterTypes.description u).accepts &&
    b.reserved.all ParameterTypes.boolean.accepts &&
    b.onMaintenance.all ParameterTypes.boolean.accepts

/-- The body is accepted by `create`. -/
def create (b : HostBody) : Bool :=
  base u b && b.name.isSome && b.type.isSome && b.controlAttributes.isSome

/-- The body is accepted by `update`. -/
def update (b : HostBody) : Bool :=
  base u b && (b.name.isSome || b.type.isSome || b.controlAttributes.isSome || b.reserved.isSome ||
    b.onMaintenance.isSome)

end Accepted

/-- A value that is a string or, where a type allows it, `null`. -/
inductive Textual : Json → Prop
  | null : Textual .null
  | string (s : String) : Textual (.string s)

/-- What the properties of an accepted body are. -/
structure Shapes (b : HostBody) : Prop where
  name : ∀ v ∈ b.name, ∃ s, v = .string s
  type : ∀ v ∈ b.type, Textual v
  controlAttributes : ∀ v ∈ b.controlAttributes, Textual v
  reserved : ∀ v ∈ b.reserved, v ∈ ParameterTypes.booleanEnum
  onMaintenance : ∀ v ∈ b.onMaintenance, v ∈ ParameterTypes.booleanEnum

section Shape

variable {u : UnicodeData} {t : ParameterType} {v : Json} {b : HostBody}

/-- An accepted value has one of the types. -/
theorem exists_type_of_accepts (h : t.accepts v = true) : ∃ j ∈ t.types, v.hasType j = true := by
  simp only [ParameterType.accepts, Bool.and_eq_true] at h
  exact List.any_eq_true.mp h.1.1

theorem textual_of_accepts (hTypes : t.types = [.string, .null]) (h : t.accepts v = true) :
    Textual v := by
  obtain ⟨j, hj, hType⟩ := exists_type_of_accepts h
  rw [hTypes] at hj
  cases v with
  | null => exact .null
  | string s => exact .string s
  | bool b | number text | array text | object text =>
    rcases List.mem_pair.mp hj with rfl | rfl <;> cases hType

theorem string_of_accepts_name (h : (ParameterTypes.name u).accepts v = true) :
    ∃ s, v = .string s := by
  obtain ⟨j, hj, hType⟩ := exists_type_of_accepts h
  obtain rfl := List.mem_singleton.mp hj
  cases v with
  | string s => exact ⟨s, rfl⟩
  | null | bool b | number text | array text | object text => cases hType

theorem mem_booleanEnum_of_accepts (h : ParameterTypes.boolean.accepts v = true) :
    v ∈ ParameterTypes.booleanEnum := by
  simp only [ParameterType.accepts, Bool.and_eq_true] at h
  simpa [ParameterTypes.boolean] using h.1.2

theorem base_of_update (h : update u b = true) : base u b = true :=
  ((Bool.and_eq_true _ _).mp h).1

theorem accepted_shapes (h : base u b = true) : Shapes b := by
  simp only [base, Bool.and_eq_true, Option.all_eq_true] at h
  obtain ⟨⟨⟨⟨hName, hType⟩, hControl⟩, hReserved⟩, hMaintenance⟩ := h
  exact
    { name := fun v hv => string_of_accepts_name (hName v hv)
      type := fun v hv => textual_of_accepts rfl (hType v hv)
      controlAttributes := fun v hv => textual_of_accepts rfl (hControl v hv)
      reserved := fun v hv => mem_booleanEnum_of_accepts (hReserved v hv)
      onMaintenance := fun v hv => mem_booleanEnum_of_accepts (hMaintenance v hv) }

theorem accepts_name {s : String} (hMin : 1 ≤ s.length) (hMax : s.length ≤ 255)
    (h : validateName u (codePoints s) = .ok ()) :
    (ParameterTypes.name u).accepts (.string s) = true := by
  simp [ParameterType.accepts, ParameterType.acceptsText, ParameterTypes.name, Json.hasType,
    Except.toBool, h, hMin, hMax]

theorem accepts_description {s : String}
    (h : ∀ c ∈ codePoints s, c < 0xFFFF ∧ isPrintable u c = true) :
    (ParameterTypes.description u).accepts (.string s) = true := by
  have hSearch : search (ParameterTypes.validDescriptionRegex u) (codePoints s) = true := by
    rw [ParameterTypes.validDescriptionRegex, search_bol, matchAt, starThen_iff]
    exact ⟨codePoints s, [], (List.append_nil _).symm, fun c hc => inClass_printable.mpr (h c hc),
      rfl⟩
  simp [ParameterType.accepts, ParameterType.acceptsText, ParameterTypes.description,
    Json.hasType, hSearch]

/-- A body with the required properties only. -/
theorem create_of_accepts {name type controlAttributes : Json}
    (hName : (ParameterTypes.name u).accepts name = true)
    (hType : ParameterTypes.type.accepts type = true)
    (hControl : (ParameterTypes.description u).accepts controlAttributes = true) :
    create u { name := some name, type := some type, controlAttributes := some controlAttributes } =
      true := by
  simp [create, base, hName, hType, hControl]

end Shape

end HostsSchema

end MasakariHA.Api
