/-
What the slave acknowledged when a send returns `i2cStat_OK`.

A byte is acknowledged if `STAT`, read after it and before the next write, is pending
and then shows that the next byte may be sent.  `answers` reads this off the accesses
of a transfer, without asking what the driver made of them.  The driver looks for the
answer to a byte in the wait before the next one and drops the result of the wait
after the last one, so the answer to the last byte is lost.
-/
import Recirculador.Bus.Events
import Recirculador.Bus.Frame

namespace Recirculador
namespace I2c

/-! ## Answers -/

end I2c
end Recirculador
