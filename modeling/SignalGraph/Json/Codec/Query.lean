import SignalGraph.Json.Codec
import SignalGraph.Query.Basic

/-! # Documents of filters -/

namespace SignalGraph

instance : Tagged FilterOp where
  all := [.equal, .notEqual, .present, .absent, .greater, .greaterOrEqual, .less, .lessOrEqual]
  tag
    | .equal => "Equal"
    | .notEqual => "NotEqual"
    | .present => "Exists"
    | .absent => "DoesNotExist"
    | .greater => "Greater"
    | .greaterOrEqual => "GreaterOrEqual"
    | .less => "Less"
    | .lessOrEqual => "LessOrEqual"

end SignalGraph
