-- The request and response PDUs of the standard function codes:
-- `protocol/pdu.py`, the client side and the server side.
import Pymod.Codec
import Pymod.Lib.BitStrings

namespace pymod.pdu

open errors codec Digits BitStrings

/-! ## Function codes and limits -/

def FC_READ_COILS : UInt8 := 0x01
def FC_READ_DISCRETE_INPUTS : UInt8 := 0x02
def FC_READ_HOLDING_REGISTERS : UInt8 := 0x03
def FC_READ_INPUT_REGISTERS : UInt8 := 0x04
def FC_WRITE_SINGLE_COIL : UInt8 := 0x05
def FC_WRITE_SINGLE_REGISTER : UInt8 := 0x06
def FC_WRITE_MULTIPLE_COILS : UInt8 := 0x0F
def FC_WRITE_MULTIPLE_REGISTERS : UInt8 := 0x10

def EXCEPTION_BIT : UInt8 := 0x80

def MAX_READ_COILS : Int := 2000
def MAX_READ_DISCRETE_INPUTS : Int := 2000
def MAX_READ_REGISTERS : Int := 125
def MAX_WRITE_COILS : Int := 1968
def MAX_WRITE_REGISTERS : Int := 123

def ADDRESS_MAX : Int := 0xFFFF
def COIL_ON : Int := 0xFF00
def COIL_OFF : Int := 0x0000

def check_address (addr : Int) : Except PyError Unit :=
  if 0 ≤ addr ∧ addr ≤ ADDRESS_MAX then pure ()
  else throw (.ValueError s!"address out of range: {addr}")

def check_count (count maximum : Int) (name : String) : Except PyError Unit :=
  if 1 ≤ count ∧ count ≤ maximum then pure ()
  else throw (.ValueError s!"{name} count out of range: {count} (must be 1..{maximum})")

/-! ## Python's packing of integers -/

/-- `f"{n:#04x}"` with `digits = 2`, `f"{n:#06x}"` with `digits = 4`. -/
def hex (digits n : Nat) : String :=
  "0x" ++ String.ofList (List.leftpad digits '0' (Nat.toDigits 16 n))

/-- `struct.pack(">B", v)` -/
def pack_B (v : Int) : Except PyError Bytes :=
  if 0 ≤ v ∧ v ≤ 0xFF then pure [UInt8.ofNat v.toNat]
  else throw (.Exception "struct.error" "ubyte format requires 0 <= number <= 255")

/-- `struct.pack(">H", v)` -/
def pack_H (v : Int) : Except PyError Bytes :=
  if IsRegister v then pure (register_bytes v)
  else throw (.Exception "struct.error" "'H' format requires 0 <= number <= 65535")

/-- `struct.pack(">BHH", fc, a, b)` -/
def pack_BHH (fc : UInt8) (a b : Int) : Except PyError Bytes := do
  let raw_a ← pack_H a
  let raw_b ← pack_H b
  pure (fc :: raw_a ++ raw_b)

/-- `struct.pack(">BHHB", fc, a, b, n)` -/
def pack_BHHB (fc : UInt8) (a b n : Int) : Except PyError Bytes := do
  let head ← pack_BHH fc a b
  let raw_n ← pack_B n
  pure (head ++ raw_n)

/-- `struct.unpack(f">{count}H", raw)` -/
def unpack_H (count : Nat) (raw : Bytes) : Except PyError (List Int) :=
  if raw.length = 2 * count then pure ((byte_pairs raw).map fun c => (ofBytes c : Int))
  else throw (.Exception "struct.error" s!"unpack requires a buffer of {2 * count} bytes")

/-- The integers of `struct.unpack(">HH", pdu[1:5])`, which are also the last two of
`struct.unpack(">BHH", pdu)`, of a PDU of at least five bytes. -/
def unpack_HH (pdu : Bytes) : Int × Int :=
  (ofBytes ((pdu.drop 1).take 2), ofBytes ((pdu.drop 3).take 2))

/-- `pdu[i]`, inside a PDU -/
def byte_at (pdu : Bytes) (i : Nat) : Int := (pdu.getD i 0).toNat

/-- `bytes([..., v, ...])` of one integer -/
def byte_of (v : Int) : Except PyError UInt8 :=
  if 0 ≤ v ∧ v < 256 then pure (UInt8.ofNat v.toNat)
  else throw (.ValueError "bytes must be in range(0, 256)")

/-- `int(v).to_bytes(2, "big")` -/
def to_two_bytes (v : Int) : Except PyError Bytes :=
  if v < 0 then throw (.OverflowError "can't convert negative int to unsigned")
  else if 0xFFFF < v then throw (.OverflowError "int too big to convert")
  else pure (register_bytes v)

/-! ## Exception detection -/

/-- The exception that the PDU stands for; `none` when it is a normal response. -/
def detect_exception (pdu : Bytes) (expected_fc : UInt8) : Except PyError (Option PyError) :=
  match pdu with
  | [] => throw (.modbus (.ModbusProtocolError "empty PDU"))
  | fc :: rest =>
    if fc = expected_fc then
      pure none
    else if fc = expected_fc ||| EXCEPTION_BIT then
      match rest with
      | [] => throw (.modbus (.ModbusProtocolError "exception response missing exception code"))
      | code :: _ =>
        let cls := (EXCEPTION_BY_CODE.lookup (code.toNat : Int)).getD .SlaveDeviceFailure
        pure (some (.modbus (.ModbusExceptionResponse cls
          s!"slave returned exception {hex 2 code.toNat}" code.toNat)))
    else
      throw (.modbus (.ModbusProtocolError
        s!"unexpected function code {hex 2 fc.toNat} (expected {hex 2 expected_fc.toNat})"))

/-- `exc = detect_exception(pdu, fc)`, and `raise exc` when there is one. -/
def raise_exception (pdu : Bytes) (fc : UInt8) : Except PyError Unit := do
  match ← detect_exception pdu fc with
  | some exc => throw exc
  | none => pure ()

/-! ## Reads, on the client -/

/-- The body that the four read encoders share. -/
def encode_read (fc : UInt8) (maximum : Int) (name : String) (start count : Int) :
    Except PyError Bytes := do
  check_address start
  check_count count maximum name
  pack_BHH fc start count

def encode_read_coils (start count : Int) : Except PyError Bytes :=
  encode_read FC_READ_COILS MAX_READ_COILS "coil" start count

def encode_read_discrete_inputs (start count : Int) : Except PyError Bytes :=
  encode_read FC_READ_DISCRETE_INPUTS MAX_READ_DISCRETE_INPUTS "discrete input" start count

def encode_read_holding_registers (start count : Int) : Except PyError Bytes :=
  encode_read FC_READ_HOLDING_REGISTERS MAX_READ_REGISTERS "register" start count

def encode_read_input_registers (start count : Int) : Except PyError Bytes :=
  encode_read FC_READ_INPUT_REGISTERS MAX_READ_REGISTERS "register" start count

/-- The checks that the two read decoders share: the byte count, then the length. -/
def check_read_response (pdu : Bytes) (expected : Int) : Except PyError Unit :=
  if pdu.length < 2 then
    throw (.modbus (.ModbusProtocolError "response too short"))
  else
    let byte_count := byte_at pdu 1
    if byte_count ≠ expected then
      throw (.modbus (.ModbusProtocolError
        s!"byte count mismatch: got {byte_count}, expected {expected}"))
    else if (pdu.length : Int) ≠ 2 + byte_count then
      throw (.modbus (.ModbusProtocolError
        s!"response length mismatch: got {pdu.length}, expected {2 + byte_count}"))
    else
      pure ()

def decode_bit_response (pdu : Bytes) (count : Int) (fc : UInt8) :
    Except PyError (List Bool) := do
  raise_exception pdu fc
  check_read_response pdu ((count + 7) / 8)
  pure (unpack count.toNat (pdu.drop 2))

def decode_register_response (pdu : Bytes) (count : Int) (fc : UInt8) :
    Except PyError (List Int) := do
  raise_exception pdu fc
  check_read_response pdu (2 * count)
  unpack_H count.toNat (pdu.drop 2)

def decode_read_coils (pdu : Bytes) (count : Int) : Except PyError (List Bool) :=
  decode_bit_response pdu count FC_READ_COILS

def decode_read_discrete_inputs (pdu : Bytes) (count : Int) : Except PyError (List Bool) :=
  decode_bit_response pdu count FC_READ_DISCRETE_INPUTS

def decode_read_holding_registers (pdu : Bytes) (count : Int) : Except PyError (List Int) :=
  decode_register_response pdu count FC_READ_HOLDING_REGISTERS

def decode_read_input_registers (pdu : Bytes) (count : Int) : Except PyError (List Int) :=
  decode_register_response pdu count FC_READ_INPUT_REGISTERS

/-! ## Writes, on the client -/

/-- The two integers of a five-byte response, which the four write decoders read. -/
def decode_echo (pdu : Bytes) (fc : UInt8) : Except PyError (Int × Int) := do
  raise_exception pdu fc
  if pdu.length ≠ 5 then
    throw (.modbus (.ModbusProtocolError s!"unexpected response length: {pdu.length}"))
  else
    pure (unpack_HH pdu)

def encode_write_single_coil (address : Int) (value : Bool) : Except PyError Bytes := do
  check_address address
  let coded := if value then COIL_ON else COIL_OFF
  pack_BHH FC_WRITE_SINGLE_COIL address coded

def decode_write_single_coil (pdu : Bytes) : Except PyError (Int × Bool) := do
  let (address, coded) ← decode_echo pdu FC_WRITE_SINGLE_COIL
  if coded = COIL_ON then
    pure (address, true)
  else if coded = COIL_OFF then
    pure (address, false)
  else
    throw (.modbus (.ModbusProtocolError
      s!"invalid coil value in response: {hex 4 coded.toNat}"))

def encode_write_single_register (address value : Int) : Except PyError Bytes := do
  check_address address
  if ¬ IsRegister value then
    throw (.ValueError s!"register value out of range: {value}")
  else
    pack_BHH FC_WRITE_SINGLE_REGISTER address value

def decode_write_single_register (pdu : Bytes) : Except PyError (Int × Int) :=
  decode_echo pdu FC_WRITE_SINGLE_REGISTER

def encode_write_multiple_coils (start : Int) (values : List Bool) : Except PyError Bytes := do
  check_address start
  let count := values.length
  check_count count MAX_WRITE_COILS "coil"
  let byte_count := (count + 7) / 8
  let head ← pack_BHHB FC_WRITE_MULTIPLE_COILS start count byte_count
  pure (head ++ pack values)

def decode_write_multiple_coils (pdu : Bytes) : Except PyError (Int × Int) :=
  decode_echo pdu FC_WRITE_MULTIPLE_COILS

def encode_write_multiple_registers (start : Int) (values : List Int) :
    Except PyError Bytes := do
  check_address start
  let count := values.length
  check_count count MAX_WRITE_REGISTERS "register"
  match values.find? fun v => ¬ IsRegister v with
  | some v => throw (.ValueError s!"register value out of range: {v}")
  | none =>
    let byte_count := 2 * count
    let head ← pack_BHHB FC_WRITE_MULTIPLE_REGISTERS start count byte_count
    let body ← values.mapM pack_H
    pure (head ++ body.flatten)

def decode_write_multiple_registers (pdu : Bytes) : Except PyError (Int × Int) :=
  decode_echo pdu FC_WRITE_MULTIPLE_REGISTERS

/-! ## Requests, on the server -/

def illegal_value (message : String) : PyError := ExceptionClass.IllegalDataValue.new message

/-- The body that the four read request decoders share; `name` is the code in messages. -/
def decode_request_read (pdu : Bytes) (maximum : Int) (name : String) :
    Except PyError (Int × Int) :=
  if pdu.length ≠ 5 then
    throw (illegal_value s!"{name} request length {pdu.length} != 5")
  else
    let (start, count) := unpack_HH pdu
    if ¬ (1 ≤ count ∧ count ≤ maximum) then
      throw (illegal_value s!"{name} count out of range: {count}")
    else
      pure (start, count)

def decode_request_read_coils (pdu : Bytes) : Except PyError (Int × Int) :=
  decode_request_read pdu MAX_READ_COILS "FC01"

def decode_request_read_discrete_inputs (pdu : Bytes) : Except PyError (Int × Int) :=
  decode_request_read pdu MAX_READ_DISCRETE_INPUTS "FC02"

def decode_request_read_holding_registers (pdu : Bytes) : Except PyError (Int × Int) :=
  decode_request_read pdu MAX_READ_REGISTERS "FC03"

def decode_request_read_input_registers (pdu : Bytes) : Except PyError (Int × Int) :=
  decode_request_read pdu MAX_READ_REGISTERS "FC04"

def decode_request_write_single_coil (pdu : Bytes) : Except PyError (Int × Bool) :=
  if pdu.length ≠ 5 then
    throw (illegal_value s!"FC05 request length {pdu.length} != 5")
  else
    let (address, coded) := unpack_HH pdu
    if coded = COIL_ON then
      pure (address, true)
    else if coded = COIL_OFF then
      pure (address, false)
    else
      throw (illegal_value s!"FC05 invalid coil value {hex 4 coded.toNat}")

def decode_request_write_single_register (pdu : Bytes) : Except PyError (Int × Int) :=
  if pdu.length ≠ 5 then
    throw (illegal_value s!"FC06 request length {pdu.length} != 5")
  else
    pure (unpack_HH pdu)

/-- The checks that the two decoders of a multiple write share. They give the start,
the count and the data bytes. -/
def decode_request_write (pdu : Bytes) (maximum : Int) (bytes_for : Int → Int) (name : String) :
    Except PyError (Int × Int × Bytes) :=
  if pdu.length < 6 then
    throw (illegal_value s!"{name} request too short: {pdu.length}")
  else
    let (start, count) := unpack_HH pdu
    let byte_count := byte_at pdu 5
    if ¬ (1 ≤ count ∧ count ≤ maximum) then
      throw (illegal_value s!"{name} count out of range: {count}")
    else if byte_count ≠ bytes_for count then
      throw (illegal_value s!"{name} byte_count {byte_count} inconsistent with count {count}")
    else if (pdu.length : Int) ≠ 6 + byte_count then
      throw (illegal_value s!"{name} length {pdu.length} doesn't match byte_count {byte_count}")
    else
      pure (start, count, pdu.drop 6)

def decode_request_write_multiple_coils (pdu : Bytes) : Except PyError (Int × List Bool) := do
  let (start, count, data) ←
    decode_request_write pdu MAX_WRITE_COILS (fun count => (count + 7) / 8) "FC15"
  pure (start, unpack count.toNat data)

def decode_request_write_multiple_registers (pdu : Bytes) : Except PyError (Int × List Int) := do
  let (start, count, data) ←
    decode_request_write pdu MAX_WRITE_REGISTERS (fun count => 2 * count) "FC16"
  let values ← unpack_H count.toNat data
  pure (start, values)

/-! ## Responses, on the server -/

/-- The body that the two encoders of bits share. -/
def encode_response_bits (fc : UInt8) (values : List Bool) : Except PyError Bytes := do
  let byte_count ← byte_of ((values.length + 7) / 8)
  pure (fc :: byte_count :: pack values)

def encode_response_read_coils (values : List Bool) : Except PyError Bytes :=
  encode_response_bits FC_READ_COILS values

def encode_response_read_discrete_inputs (values : List Bool) : Except PyError Bytes :=
  encode_response_bits FC_READ_DISCRETE_INPUTS values

/-- The body that the two encoders of registers share. -/
def encode_response_registers (fc : UInt8) (values : List Int) : Except PyError Bytes := do
  let words ← values.mapM to_two_bytes
  let body := words.flatten
  let byte_count ← byte_of body.length
  pure (fc :: byte_count :: body)

def encode_response_read_holding_registers (values : List Int) : Except PyError Bytes :=
  encode_response_registers FC_READ_HOLDING_REGISTERS values

def encode_response_read_input_registers (values : List Int) : Except PyError Bytes :=
  encode_response_registers FC_READ_INPUT_REGISTERS values

def encode_response_write_single_coil (address : Int) (value : Bool) : Except PyError Bytes :=
  let coded := if value then COIL_ON else COIL_OFF
  pack_BHH FC_WRITE_SINGLE_COIL address coded

def encode_response_write_single_register (address value : Int) : Except PyError Bytes :=
  pack_BHH FC_WRITE_SINGLE_REGISTER address value

def encode_response_write_multiple_coils (start count : Int) : Except PyError Bytes :=
  pack_BHH FC_WRITE_MULTIPLE_COILS start count

def encode_response_write_multiple_registers (start count : Int) : Except PyError Bytes :=
  pack_BHH FC_WRITE_MULTIPLE_REGISTERS start count

def encode_exception_response (fc exception_code : Int) : Except PyError Bytes :=
  if ¬ (0 ≤ fc ∧ fc ≤ 0xFF) then
    throw (.ValueError s!"fc out of range: {fc}")
  else if ¬ (0 ≤ exception_code ∧ exception_code ≤ 0xFF) then
    throw (.ValueError s!"exception_code out of range: {exception_code}")
  else
    pure [UInt8.ofNat fc.toNat ||| EXCEPTION_BIT, UInt8.ofNat exception_code.toNat]

end pymod.pdu
