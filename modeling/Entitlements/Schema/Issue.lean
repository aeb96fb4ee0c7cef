/-!
What is wrong with a document, and where. Reading a document reports every fault it finds, in the
order in which the fields are declared and the entries are given, each with the path that leads to
it; the path names a field by the key under which the document gave it.
-/

namespace Entitlements.Schema

inductive Fault where
  | missing
  | notText
  | notList
  | notTuple
  | notMap
  | notModel
  | wrongLiteral
  | unknownChoice
  | unreadableFlag
  | notFlag
  | unreadableInteger
  | oversizedInteger
  | notInteger
  | fractionalInteger
  | notFinite
  | unreadableTime
  | distantTime
  | notTime
  | invalidJson
  deriving DecidableEq, Repr

/-- The code under which a fault is reported. -/
def Fault.code : Fault → String
  | .missing => "missing"
  | .notText => "string_type"
  | .notList => "list_type"
  | .notTuple => "tuple_type"
  | .notMap => "dict_type"
  | .notModel => "model_type"
  | .wrongLiteral => "literal_error"
  | .unknownChoice => "enum"
  | .unreadableFlag => "bool_parsing"
  | .notFlag => "bool_type"
  | .unreadableInteger => "int_parsing"
  | .oversizedInteger => "int_parsing_size"
  | .notInteger => "int_type"
  | .fractionalInteger => "int_from_float"
  | .notFinite => "finite_number"
  | .unreadableTime => "datetime_from_date_parsing"
  | .distantTime => "datetime_parsing"
  | .notTime => "datetime_type"
  | .invalidJson => "json_invalid"

structure Issue where
  path : List String
  fault : Fault
  deriving DecidableEq, Repr

end Entitlements.Schema
