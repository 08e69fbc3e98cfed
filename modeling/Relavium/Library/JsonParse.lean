import Relavium.Library.JsValue
import Relavium.Library.OrderedMap

/-!
# Reading JSON text

A recursive-descent reader of JSON text.  Every call consumes at least a part
of the text, so that a number of calls proportional to the length of the text
is enough.
-/

namespace Relavium.Library
namespace JsonParse

/-- JSON white space. -/
def isSpace (unit : UInt16) : Bool :=
  unit = 0x20 || unit = 0x09 || unit = 0x0A || unit = 0x0D

/-- Drop the white space in front. -/
def skipSpace (text : JsString) : JsString :=
  text.dropWhile isSpace

/-- The keywords and the values they stand for. -/
def keywords : List (JsString × JsValue) :=
  [([0x6E, 0x75, 0x6C, 0x6C], .null), ([0x74, 0x72, 0x75, 0x65], .boolean true),
    ([0x66, 0x61, 0x6C, 0x73, 0x65], .boolean false)]

/-- Read a keyword. -/
def parseKeyword (text : JsString) : Option (JsValue × JsString) :=
  keywords.findSome? fun keyword =>
    if keyword.1.isPrefixOf text then
      some (keyword.2, text.drop keyword.1.length)
    else none

/-- Write the properties one after the other; a key that comes again overwrites
its value. -/
def propertiesOf
    (members : List (JsString × JsValue)) : List (JsString × JsValue) :=
  members.foldl
    (fun properties member =>
      OrderedMap.setEntry member.1 member.2 properties)
    []

mutual

/-- Read a value. -/
def parseValue : Nat → JsString → Option (JsValue × JsString)
  | 0, _ => none
  | fuel + 1, text =>
    match skipSpace text with
    | [] => none
    | unit :: rest =>
      if unit = 0x5B then
        match skipSpace rest with
        | 0x5D :: after => some (.array [], after)
        | items =>
          (parseItems fuel items).map fun result =>
            (.array result.1, result.2)
      else if unit = 0x7B then
        match skipSpace rest with
        | 0x7D :: after => some (.object [], after)
        | members =>
          (parseMembers fuel members).map fun result =>
            (.object (propertiesOf result.1), result.2)
      else if unit = 0x22 then
        (JsonString.readBody rest).map fun result =>
          (.string result.1, result.2)
      else if unit = 0x2D || isDigitUnit unit then
        (NumericLiteral.parse (unit :: rest)).map fun result =>
          (.number result.1.value, result.2)
      else parseKeyword (unit :: rest)

/-- Read items up to the closing bracket. -/
def parseItems : Nat → JsString → Option (List JsValue × JsString)
  | 0, _ => none
  | fuel + 1, text =>
    (parseValue fuel text).bind fun first =>
      match skipSpace first.2 with
      | 0x2C :: rest =>
        (parseItems fuel rest).map fun others =>
          (first.1 :: others.1, others.2)
      | 0x5D :: rest => some ([first.1], rest)
      | _ => none

/-- Read keys and values up to the closing brace. -/
def parseMembers :
    Nat → JsString → Option (List (JsString × JsValue) × JsString)
  | 0, _ => none
  | fuel + 1, text =>
    match skipSpace text with
    | 0x22 :: rest =>
      (JsonString.readBody rest).bind fun key =>
        match skipSpace key.2 with
        | 0x3A :: rest =>
          (parseValue fuel rest).bind fun first =>
            match skipSpace first.2 with
            | 0x2C :: rest =>
              (parseMembers fuel rest).map fun others =>
                ((key.1, first.1) :: others.1, others.2)
            | 0x7D :: rest => some ([(key.1, first.1)], rest)
            | _ => none
        | _ => none
    | _ => none

end

/-- Read a text that consists of one value. -/
def parse (text : JsString) : Option JsValue :=
  match parseValue (2 * text.length + 1) text with
  | some (value, rest) => if skipSpace rest = [] then some value else none
  | none => none

end JsonParse
end Relavium.Library
