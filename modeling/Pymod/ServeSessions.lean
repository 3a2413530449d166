-- What `pymod serve` answers, whatever it was started with. The config and the arguments take
-- any integer for a register; one that does not fit into 16 bits cannot be read.
import Pymod.ServeSeeds
import Pymod.ServerCalls
import Pymod.ServerRequests

namespace pymod.serve

open errors codec pdu types data_model server Slices Fallible

/-! ## The data model of a store -/

section

variable {state : SimState} {area : Area} {start : Int} {count : Nat}

end

/-! ## Writes -/

section

variable {unit_id : Option Int} {readonly : Bool} {state : SimState} {uid : Int} {pdu : Bytes}

end

end pymod.serve
