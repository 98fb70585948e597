/-!
# `Constants`

The numbers that several contracts share.
-/

namespace FeiProtocol.Constants

def BASIS_POINTS_GRANULARITY : Nat := 10000

/-- `365.25 days` -/
def ONE_YEAR : Nat := 31557600

end FeiProtocol.Constants
