
namespace RadioDriver.Text

def unitsOf (c : Char) : List Nat :=
  let n := c.toNat
  if n < 0x10000 then [n]
  else [0xD800 + (n - 0x10000) / 0x400, 0xDC00 + (n - 0x10000) % 0x400]

def units (s : String) : List Nat := s.toList.flatMap unitsOf

def unitsLe : List Nat → List Nat → Bool
  | [], _ => true
  | _ :: _, [] => false
  | a :: as, b :: bs => a < b || (a == b && unitsLe as bs)

/-- The order of texts by their UTF-16 units. Characters outside the basic plane are written as two
units below `0xE000`, so this order differs from that of code points above `0xD7FF`. -/
def leByUnits (s t : String) : Bool := unitsLe (units s) (units t)

end RadioDriver.Text
