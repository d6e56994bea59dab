import RadioDriver.Decimal.Layout
import RadioDriver.Signal.Registry
import RadioDriver.Text.Pieces
import RadioDriver.Text.Quoted

namespace RadioDriver.Signal

def Ceiling.listing : Ceiling → String
  | .finite limit => Layout.listing.render limit
  | .infinite false => "inf"
  | .infinite true => "-inf"
  | .notANumber => "NaN"

namespace Registry

def bracketed (items : List String) : String := "[" ++ Text.join ", " items ++ "]"

def listing (r : Registry) : String :=
  let ids := r.entries.map fun e => "SignalId(" ++ Text.listed e.id ++ ")"
  let transforms :=
    ((Fields.names r.transforms).mergeSort (fun a b => decide (a ≤ b))).map Text.listed
  "SignalRegistry \x7b signals: " ++ bracketed ids ++ ", transforms: " ++ bracketed transforms ++
    ", max_sensitivity: " ++ r.ceiling.listing ++ " \x7d"

end Registry

end RadioDriver.Signal
