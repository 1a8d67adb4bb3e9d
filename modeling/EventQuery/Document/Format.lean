/-! The formats of catalog files. -/

namespace EventQuery

inductive DocumentFormat where
  | json
  | toml
deriving DecidableEq

def DocumentFormat.text : DocumentFormat → String
  | .json => "JSON"
  | .toml => "TOML"

end EventQuery
