/-! What a decoded response holds: the dynamic types the client tests for. -/
namespace FlexitCs60.Client

inductive Value where
  | uint (n : UInt64)
  | bytes (b : List UInt8)
  | bool (b : Bool)
  | text (s : String)
  | list (xs : List Value)
  /-- `map[string]interface{}` -/
  | textMap (entries : List (String × Value))
  /-- `map[interface{}]interface{}` -/
  | anyMap (entries : List (Value × Value))
  /-- nil, and every type that no branch tests for -/
  | other

/-- Read a string key of a map with interface keys. -/
def lookupAny (key : String) : List (Value × Value) → Option Value
  | [] => none
  | (.text s, v) :: rest => if s = key then some v else lookupAny key rest
  | _ :: rest => lookupAny key rest

end FlexitCs60.Client
