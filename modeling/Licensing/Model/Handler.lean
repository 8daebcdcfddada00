import Licensing.Library.Atomic
import Licensing.Model.Http
import Licensing.Model.Storage

-- Request handlers, by what they wait for: operations of the storage and transactions. Their errors
-- are those that no handler catches.

namespace Licensing

abbrev Await := Atomic.Await Op Op.Ans Error

abbrev Handler := Prog Await Atomic.Await.Ans Error

namespace Handler

def attempt (o : TxOp) : Handler (Except Error o.Res) :=
  .call (.op (.tx o)) .pure

-- Passes an error of the storage on.
def perform (o : TxOp) : Handler o.Res :=
  .call (.op (.tx o)) fun
    | .ok a    => .pure a
    | .error e => .throw e

def transaction {α : Type} (body : Tx α) : Handler (Except Error α) :=
  .call (.transaction body) .pure

def nowISO : Handler String :=
  .call (.op .nowISO) .pure

end Handler

end Licensing
