-- All connections of `pymod serve`: however its handlers take turns, their answers are those of
-- one session.
import Pymod.ServeSessions
import Pymod.ServerConnections

namespace pymod.serving

open errors codec pdu adu_tcp types data_model server serve Function Runs

/-! ## One request -/

section

variable {σ : Type} {callbacks : Callbacks σ}

end

/-! ## The log as a session -/

/-- What an entry asks of the server. -/
def asked (entry : Entry) : Int × Bytes := (entry.2.2.1, entry.2.2.2)

/-- The frame carries the response, with the ids of the request. -/
def Answered (answered : Entry × Bytes) (frame : Bytes) : Prop :=
  decode_mbap_frame frame = .ok (answered.1.2.1, answered.1.2.2.1, answered.2)

/-- What was asked on a connection, with its responses. -/
def exchanges (h : Nat) (entries : List Entry) (resps : List Bytes) : List (Entry × Bytes) :=
  (entries.zip resps).filter fun answered => answered.1.1 = h

variable (unit_id : Option Int) (readonly : Bool)

/-- Two clients of an empty store: each writes the register, and their frames come in pieces. -/
def two_clients : List Event :=
  [.accept, .accept, .started 0, .started 1, .arrived 0 [0, 1, 0, 0, 0, 6], .header_read 0,
    .arrived 1 [0, 1, 0, 0, 0, 6, 1, 6, 0, 5, 0, 8], .header_read 1, .rest_read 1,
    .arrived 0 [1, 6, 0, 5, 0, 9], .rest_read 0]

end pymod.serving
