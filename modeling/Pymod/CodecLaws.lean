-- The laws of the register codec: what `encode_registers` accepts, it writes in
-- legal registers, and `decode_registers` gives the integers back.
import Pymod.Codec

namespace pymod.codec

open errors Digits Slices

/-! ## Registers and bytes -/

theorem length_register_bytes (r : Int) : (register_bytes r).length = 2 := length_toBytes 2 _

theorem ofBytes_register_bytes {r : Int} (h : IsRegister r) :
    (ofBytes (register_bytes r) : Int) = r := by
  have h0 := h.1
  have h1 := h.2
  have hmod : r.toNat % 256 ^ 2 = r.toNat := Nat.mod_eq_of_lt (by omega)
  rw [register_bytes, ofBytes_toBytes, hmod]
  omega

theorem register_bytes_ofBytes {c : Bytes} (h : c.length = 2) :
    register_bytes (ofBytes c : Int) = c := by
  have := toBytes_ofBytes c
  rw [h] at this
  simpa [register_bytes] using this

theorem isRegister_ofBytes {c : Bytes} (h : c.length = 2) : IsRegister (ofBytes c : Int) := by
  have := ofBytes_lt c
  rw [h] at this
  constructor <;> omega

theorem flatten_byte_pairs (raw : Bytes) : (byte_pairs raw).flatten = raw := by
  fun_induction byte_pairs raw with
  | case1 => rfl
  | case2 a => rfl
  | case3 a b raw ih => simp [ih]

theorem length_of_mem_byte_pairs {raw : Bytes} (h : raw.length % 2 = 0) :
    ∀ c ∈ byte_pairs raw, c.length = 2 := by
  fun_induction byte_pairs raw with
  | case1 => simp
  | case2 a => simp at h
  | case3 a b raw ih =>
    intro c hc
    rcases List.mem_cons.mp hc with rfl | hc
    · rfl
    · exact ih (by simp only [List.length_cons] at h; omega) c hc

theorem find?_register_none {registers : List Int} (h : ∀ r ∈ registers, IsRegister r) :
    (registers.find? fun r => ¬ IsRegister r) = none := by
  simpa using h

/-- The byte string of legal registers. -/
def register_string (registers : List Int) (word_order byte_order : Order) : Bytes :=
  let seq := if word_order = .little then registers.reverse else registers
  if byte_order = .big then seq.flatMap register_bytes
  else seq.flatMap fun r => (register_bytes r).reverse

theorem registers_to_bytes_ok {registers : List Int} (h : ∀ r ∈ registers, IsRegister r)
    (word_order byte_order : Order) :
    registers_to_bytes registers word_order byte_order =
      .ok (register_string registers word_order byte_order) := by
  unfold registers_to_bytes register_string
  rw [find?_register_none h]
  simp only
  split <;> rfl

/-- The registers that a byte string of even length gives. -/
def string_registers (raw : Bytes) (word_order byte_order : Order) : List Int :=
  let regs : List Int :=
    if byte_order = .big then (byte_pairs raw).map fun c => (ofBytes c : Int)
    else (byte_pairs raw).map fun c => (ofBytes c.reverse : Int)
  if word_order = .little then regs.reverse else regs

theorem bytes_to_registers_ok {raw : Bytes} (h : raw.length % 2 = 0)
    (word_order byte_order : Order) :
    bytes_to_registers raw word_order byte_order =
      .ok (string_registers raw word_order byte_order) := by
  unfold bytes_to_registers string_registers
  rw [if_neg (by omega)]
  rfl

theorem length_string_registers {raw : Bytes} (h : raw.length % 2 = 0)
    (word_order byte_order : Order) :
    (string_registers raw word_order byte_order).length * 2 = raw.length := by
  have hlen := length_flatten_const (byte_pairs raw) (length_of_mem_byte_pairs h)
  rw [flatten_byte_pairs] at hlen
  unfold string_registers
  split <;> split <;> simp [hlen]

theorem isRegister_string_registers {raw : Bytes} (h : raw.length % 2 = 0)
    (word_order byte_order : Order) :
    ∀ r ∈ string_registers raw word_order byte_order, IsRegister r := by
  have hpairs := length_of_mem_byte_pairs h
  have hbig : ∀ c ∈ byte_pairs raw, IsRegister (ofBytes c) := fun c hc =>
    isRegister_ofBytes (hpairs c hc)
  have hlittle : ∀ c ∈ byte_pairs raw, IsRegister (ofBytes c.reverse) := fun c hc =>
    isRegister_ofBytes (by rw [List.length_reverse, hpairs c hc])
  unfold string_registers
  split <;> split <;> simpa using by assumption

theorem flatMap_pairs {raw : Bytes} (f : Bytes → Bytes)
    (hf : ∀ c ∈ byte_pairs raw, f c = c) : (byte_pairs raw).flatMap f = raw := by
  rw [List.flatMap_def, List.map_congr_left hf, List.map_id', flatten_byte_pairs]

/-- The registers of a byte string make up that byte string again. -/
theorem register_string_string_registers {raw : Bytes} (h : raw.length % 2 = 0)
    (word_order byte_order : Order) :
    register_string (string_registers raw word_order byte_order) word_order byte_order = raw := by
  have hpairs := length_of_mem_byte_pairs h
  have hseq : ∀ regs : List Int,
      (if word_order = .little then
        (if word_order = .little then regs.reverse else regs).reverse
      else if word_order = .little then regs.reverse else regs) = regs := by
    intro regs
    split <;> simp
  unfold register_string string_registers
  simp only [hseq]
  split
  · rw [List.flatMap_map]
    exact flatMap_pairs _ fun c hc => register_bytes_ofBytes (hpairs c hc)
  · rw [List.flatMap_map]
    refine flatMap_pairs _ fun c hc => ?_
    rw [register_bytes_ofBytes (by rw [List.length_reverse, hpairs c hc]), List.reverse_reverse]

/-! ## One value -/

theorem regs_per_item_pos (dtype : NumericDType) : 0 < regs_per_item dtype := by
  cases dtype <;> decide

section Values

variable {F : Type} [FloatOps F]

theorem length_int_to_bytes (v : Int) (n : Nat) : (int_to_bytes v n).length = n :=
  length_toBytes n _

theorem encode_one_length {value : Value F} {dtype : NumericDType} {raw : Bytes}
    (h : encode_one value dtype = .ok raw) : raw.length = 2 * regs_per_item dtype := by
  unfold encode_one at h
  cases hr : int_range dtype with
  | none =>
    rw [hr] at h
    simp only at h
    cases hx : float_of value with
    | error e => split at h <;> rw [hx] at h <;> cases h
    | ok x =>
      rw [hx] at h
      split at h
      · rename_i hf
        subst hf
        cases hp : FloatOps.pack_f x with
        | error e => simp only [bind, Except.bind, hp] at h; cases h
        | ok packed =>
          simp only [bind, Except.bind, hp] at h
          cases h
          exact packed.property
      · cases h
        rw [(FloatOps.pack_d x).property]
        cases dtype <;> simp_all [int_range, regs_per_item]
  | some range =>
    rw [hr] at h
    cases hv : integer_of dtype value with
    | error e => rw [hv] at h; cases h
    | ok z =>
      rw [hv] at h
      simp only [bind, Except.bind] at h
      split at h
      · cases h; exact length_int_to_bytes _ _
      · cases h

/-- An integer in the range of its type is written in two's complement. -/
theorem encode_one_int {dtype : NumericDType} {lo hi z : Int}
    (hr : int_range dtype = some (lo, hi)) (h0 : lo ≤ z) (h1 : z ≤ hi) :
    encode_one (.int z : Value F) dtype = .ok (int_to_bytes z (2 * regs_per_item dtype)) := by
  unfold encode_one
  rw [hr]
  simp only [integer_of, bind, Except.bind, pure, Except.pure]
  rw [if_pos ⟨h0, h1⟩]

theorem int_from_int_to_bytes_unsigned {z : Int} {n : Nat} (h0 : 0 ≤ z) (h1 : z < 256 ^ n) :
    int_from_bytes (int_to_bytes z n) false = z := by
  have hw := wrap_lt n z
  simp only [int_from_bytes, int_to_bytes, ofBytes_toBytes, Bool.false_eq_true, if_false]
  rw [Nat.mod_eq_of_lt hw]
  exact wrap_of_nonneg h0 h1

theorem int_from_int_to_bytes_signed {z : Int} {n : Nat} (h0 : -256 ^ n ≤ 2 * z)
    (h1 : 2 * z < 256 ^ n) : int_from_bytes (int_to_bytes z n) true = z := by
  have hw := wrap_lt n z
  simp only [int_from_bytes, int_to_bytes, ofBytes_toBytes, length_toBytes, if_true]
  rw [Nat.mod_eq_of_lt hw]
  exact signed_wrap h0 h1

/-- An integer in the range of its type is read back as it was. -/
theorem decode_one_int {dtype : NumericDType} {lo hi z : Int}
    (hr : int_range dtype = some (lo, hi)) (h0 : lo ≤ z) (h1 : z ≤ hi) :
    decode_one (int_to_bytes z (2 * regs_per_item dtype)) dtype = (.int z : Value F) := by
  cases dtype <;> simp only [int_range, Option.some.injEq, Prod.mk.injEq, reduceCtorEq] at hr
  all_goals
    obtain ⟨rfl, rfl⟩ := hr
    simp only [decode_one, regs_per_item, Value.int.injEq]
  · exact int_from_int_to_bytes_signed (by omega) (by omega)
  · exact int_from_int_to_bytes_unsigned h0 (by omega)
  · exact int_from_int_to_bytes_signed (by omega) (by omega)
  · exact int_from_int_to_bytes_unsigned h0 (by omega)
  · exact int_from_int_to_bytes_signed (by omega) (by omega)
  · exact int_from_int_to_bytes_unsigned h0 (by omega)

/-! ## Blocks of values -/

theorem encode_registers_blocks {values : List (Value F)} {dtype : NumericDType}
    {word_order byte_order : Order} {regs : List Int}
    (h : encode_registers values dtype word_order byte_order = .ok regs) :
    ∃ raws : List Bytes, List.Forall₂ (fun v raw => encode_one v dtype = .ok raw) values raws ∧
      regs = (raws.map fun raw => string_registers raw word_order byte_order).flatten := by
  unfold encode_registers at h
  cases hb : values.mapM fun v => do
      let raw ← encode_one v dtype
      bytes_to_registers raw word_order byte_order with
  | error e => rw [hb] at h; cases h
  | ok blocks =>
    rw [hb] at h
    cases h
    have hall := forall₂_of_mapM_ok hb
    clear hb
    induction hall with
    | nil => exact ⟨[], .nil, rfl⟩
    | @cons v block vs blocks hv _ ih =>
      obtain ⟨raws, hraws, hflat⟩ := ih
      cases hr : encode_one v dtype with
      | error e => rw [hr] at hv; cases hv
      | ok raw =>
        have heven : raw.length % 2 = 0 := by rw [encode_one_length hr]; omega
        rw [hr] at hv
        simp only [bind, Except.bind, bytes_to_registers_ok heven] at hv
        cases hv
        exact ⟨raw :: raws, .cons hr hraws, by simp [hflat]⟩

theorem length_encoded_block {raw : Bytes} {dtype : NumericDType} {word_order byte_order : Order}
    (h : raw.length = 2 * regs_per_item dtype) :
    (string_registers raw word_order byte_order).length = regs_per_item dtype := by
  have := length_string_registers (by omega : raw.length % 2 = 0) word_order byte_order
  omega

theorem forall₂_right {α β : Type} {r : α → β → Prop} {p : β → Prop} {l : List α} {m : List β}
    (h : List.Forall₂ r l m) (hp : ∀ x y, r x y → p y) : ∀ y ∈ m, p y := by
  induction h with
  | nil => simp
  | cons hxy _ ih =>
    intro z hz
    rcases List.mem_cons.mp hz with rfl | hz
    · exact hp _ _ hxy
    · exact ih z hz

/-- The registers that `encode_registers` returns: `regs_per_item` for each value, and
every one a legal register. -/
theorem encode_registers_legal {values : List (Value F)} {dtype : NumericDType}
    {word_order byte_order : Order} {regs : List Int}
    (h : encode_registers values dtype word_order byte_order = .ok regs) :
    regs.length = values.length * regs_per_item dtype ∧ ∀ r ∈ regs, IsRegister r := by
  obtain ⟨raws, hraws, rfl⟩ := encode_registers_blocks h
  have hlen : ∀ raw ∈ raws, raw.length = 2 * regs_per_item dtype :=
    forall₂_right hraws fun _ _ => encode_one_length
  constructor
  · have hblock : ∀ b ∈ raws.map fun raw => string_registers raw word_order byte_order,
        b.length = regs_per_item dtype := by
      simp only [List.forall_mem_map]
      exact fun raw hraw => length_encoded_block (hlen raw hraw)
    rw [length_flatten_const _ hblock, List.length_map, hraws.length_eq]
  · intro r hr
    obtain ⟨b, hb, hrb⟩ := List.mem_flatten.mp hr
    obtain ⟨raw, hraw, rfl⟩ := List.mem_map.mp hb
    exact isRegister_string_registers (by rw [hlen raw hraw]; omega) _ _ r hrb

/-- Registers that are the blocks of whole values decode to those values. -/
theorem decode_registers_blocks {raws : List Bytes} {dtype : NumericDType}
    (word_order byte_order : Order) (hlen : ∀ raw ∈ raws, raw.length = 2 * regs_per_item dtype) :
    decode_registers (raws.map fun raw => string_registers raw word_order byte_order).flatten
        dtype word_order byte_order =
      .ok (raws.map fun raw => (decode_one raw dtype : Value F)) := by
  have hblock : ∀ b ∈ raws.map fun raw => string_registers raw word_order byte_order,
      b.length = regs_per_item dtype := by
    simp only [List.forall_mem_map]
    exact fun raw hraw => length_encoded_block (hlen raw hraw)
  simp only [decode_registers]
  rw [length_flatten_const _ hblock, Nat.mul_mod_left, if_neg (by simp),
    windows_flatten _ (regs_per_item_pos dtype) hblock, List.mapM_map]
  apply mapM_ok
  intro raw hraw
  simp only [Function.comp_apply]
  have heven : raw.length % 2 = 0 := by rw [hlen raw hraw]; omega
  rw [registers_to_bytes_ok (isRegister_string_registers heven _ _),
    register_string_string_registers heven]
  rfl

/-- Integers in the range of their type are encoded, and decode to themselves. -/
theorem decode_encode_registers {dtype : NumericDType} {lo hi : Int} {zs : List Int}
    (hr : int_range dtype = some (lo, hi)) (hz : ∀ z ∈ zs, lo ≤ z ∧ z ≤ hi)
    (word_order byte_order : Order) :
    ∃ regs, encode_registers (zs.map (.int : Int → Value F)) dtype word_order byte_order = .ok regs ∧
      decode_registers regs dtype word_order byte_order = .ok (zs.map (.int : Int → Value F)) := by
  let raw_of := fun z : Int => int_to_bytes z (2 * regs_per_item dtype)
  have hlen : ∀ raw ∈ zs.map raw_of, raw.length = 2 * regs_per_item dtype := by
    simp only [List.forall_mem_map]
    exact fun z _ => length_int_to_bytes z _
  refine ⟨((zs.map raw_of).map fun raw => string_registers raw word_order byte_order).flatten,
    ?_, ?_⟩
  · have hblocks : (zs.map (.int : Int → Value F)).mapM (fun v => do
          let raw ← encode_one v dtype
          bytes_to_registers raw word_order byte_order) =
        .ok (zs.map fun z => string_registers (raw_of z) word_order byte_order) := by
      rw [List.mapM_map]
      apply mapM_ok
      intro z hmem
      have heven : (raw_of z).length % 2 = 0 := by rw [length_int_to_bytes]; omega
      simp only [Function.comp_apply]
      rw [encode_one_int hr (hz z hmem).1 (hz z hmem).2]
      exact bytes_to_registers_ok heven word_order byte_order
    unfold encode_registers
    rw [hblocks, List.map_map]
    rfl
  · rw [decode_registers_blocks word_order byte_order hlen, List.map_map]
    congr 1
    apply List.map_congr_left
    intro z hmem
    exact decode_one_int hr (hz z hmem).1 (hz z hmem).2

/-! ## The errors of the decoders -/

def IsValueError (e : PyError) : Prop := ∃ m, e = .ValueError m

theorem registers_to_bytes_error {registers : List Int} {word_order byte_order : Order}
    {e : PyError} (h : registers_to_bytes registers word_order byte_order = .error e) :
    IsValueError e := by
  unfold registers_to_bytes at h
  split at h
  · cases h; exact ⟨_, rfl⟩
  · simp only at h
    split at h <;> cases h

theorem decode_registers_error {registers : List Int} {dtype : NumericDType}
    {word_order byte_order : Order} {e : PyError}
    (h : decode_registers (F := F) registers dtype word_order byte_order = .error e) :
    IsValueError e := by
  simp only [decode_registers] at h
  split at h
  · cases h; exact ⟨_, rfl⟩
  · obtain ⟨window, _, hw⟩ := error_of_mapM h
    cases hb : registers_to_bytes window word_order byte_order with
    | error e' => rw [hb] at hw; cases hw; exact registers_to_bytes_error hb
    | ok raw => rw [hb] at hw; cases hw

end Values

theorem resolve_pos_error {bit_index : Int} {total_bits : Nat} {bit_numbering : BitNumbering}
    {e : PyError} (h : resolve_pos bit_index total_bits bit_numbering = .error e) :
    IsValueError e := by
  unfold resolve_pos at h
  split at h
  · cases h; exact ⟨_, rfl⟩
  · split at h <;> cases h

theorem registers_to_int_error {registers : List Int} {word_order byte_order : Order}
    {e : PyError} (h : registers_to_int registers word_order byte_order = .error e) :
    IsValueError e := by
  unfold registers_to_int at h
  cases hb : registers_to_bytes registers word_order byte_order with
  | error e' => rw [hb] at h; cases h; exact registers_to_bytes_error hb
  | ok raw => rw [hb] at h; cases h

theorem extract_bit_error {registers : List Int} {bit_index : Int} {word_order byte_order : Order}
    {bit_numbering : BitNumbering} {e : PyError}
    (h : extract_bit registers bit_index word_order byte_order bit_numbering = .error e) :
    IsValueError e := by
  unfold extract_bit at h
  split at h
  · cases h; exact ⟨_, rfl⟩
  · simp only at h
    cases hp : resolve_pos bit_index (registers.length * 16) bit_numbering with
    | error e' => rw [hp] at h; cases h; exact resolve_pos_error hp
    | ok pos =>
      rw [hp] at h
      cases hi : registers_to_int registers word_order byte_order with
      | error e' => rw [hi] at h; cases h; exact registers_to_int_error hi
      | ok value => rw [hi] at h; cases h

theorem extract_bits_error {registers bit_indices : List Int} {word_order byte_order : Order}
    {bit_numbering : BitNumbering} {e : PyError}
    (h : extract_bits registers bit_indices word_order byte_order bit_numbering = .error e) :
    IsValueError e := by
  unfold extract_bits at h
  split at h
  · cases h; exact ⟨_, rfl⟩
  · simp only at h
    cases hi : registers_to_int registers word_order byte_order with
    | error e' => rw [hi] at h; cases h; exact registers_to_int_error hi
    | ok value =>
      rw [hi] at h
      obtain ⟨idx, _, hx⟩ := error_of_mapM h
      cases hp : resolve_pos idx (registers.length * 16) bit_numbering with
      | error e' => rw [hp] at hx; cases hx; exact resolve_pos_error hp
      | ok pos => rw [hp] at hx; cases hx

end pymod.codec
