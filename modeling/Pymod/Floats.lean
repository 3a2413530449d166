-- Python's floats: IEEE doubles, packed as `struct` packs them.
import Pymod.Codec

namespace pymod.codec

open errors Digits

/-- `x.is_integer()`, and `int(x)` when it is, of the float with these bits. -/
def integer_of_bits (bits : Nat) : Option Int :=
  let exponent : Nat := bits / 2 ^ 52 % 2 ^ 11
  let fraction : Nat := bits % 2 ^ 52
  let mantissa : Nat := if exponent = 0 then fraction else 2 ^ 52 + fraction
  let shift : Int := max exponent 1 - 1075
  let sign : Int := if bits / 2 ^ 63 = 0 then 1 else -1
  if exponent = 2 ^ 11 - 1 then none
  else if 0 ≤ shift then some (sign * (mantissa * 2 ^ shift.toNat))
  else if mantissa % 2 ^ (-shift).toNat = 0 then some (sign * (mantissa / 2 ^ (-shift).toNat))
  else none

/-- Runs on fixed inputs compute with it; what holds of floats is proved for any `FloatOps`. The
texts of `repr` are Lean's here, `1.500000` for the `1.5` of Python. -/
instance : FloatOps Float where
  unpack_f raw := (Float32.ofBits (UInt32.ofNat (ofBytes raw))).toFloat
  unpack_d raw := Float.ofBits (UInt64.ofNat (ofBytes raw))
  pack_f x :=
    let y := x.toFloat32
    if y.isInf ∧ ¬ x.isInf then throw (.OverflowError "float too large to pack with f format")
    else pure ⟨toBytes 4 y.toBits.toNat, length_toBytes 4 _⟩
  pack_d x := ⟨toBytes 8 x.toBits.toNat, length_toBytes 8 _⟩
  of_int z :=
    let x := Float.ofInt z
    if x.isInf then throw (.OverflowError "int too large to convert to float") else pure x
  as_integer x := integer_of_bits x.toBits.toNat
  repr x := toString x

end pymod.codec
