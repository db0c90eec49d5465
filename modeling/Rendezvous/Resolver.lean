/-!
# The resolver

Host names are looked up one at a time. A lookup is refused while another is in flight; when an
answer is handed over, or the lookup is given up, the resolver is free again.
-/

namespace Rendezvous

/-- Whether a lookup is in flight. -/
structure Resolver where
  inFlight : Bool := false
  deriving DecidableEq, Repr

namespace Resolver

/-- The resolver with a lookup in flight, unless one is already or none can be made. -/
def start? (r : Resolver) (able : Bool) : Option Resolver :=
  if !r.inFlight && able then some ⟨true⟩ else none

/-- The resolver without a lookup in flight. -/
def idle : Resolver := ⟨false⟩

end Resolver

end Rendezvous
