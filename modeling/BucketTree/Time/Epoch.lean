import BucketTree.Number.Binary64

/-!
# Epoch milliseconds

Modification times are reported in milliseconds. The seconds are rounded to a binary number
first, that number times a thousand is rounded again, and the digits after the point are
dropped; so the result can lie one below the exact count.
-/

set_option autoImplicit false

namespace BucketTree

/-- Seconds since the start of 1970, rounded to a binary number. -/
def epochSeconds (micros : Int) : Binary64 := Binary64.nearest micros 1000000

/-- Milliseconds since the start of 1970. -/
def epochMillis (micros : Int) : Int := ((epochSeconds micros).times 1000).truncate

end BucketTree
