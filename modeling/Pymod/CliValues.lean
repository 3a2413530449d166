-- The values of `pymod write`: the argument `--values`, and the item that `_build_write_item` in
-- `cli.py` makes of it.
import Pymod.Types
import Pymod.Lib.Fields

namespace pymod.cli

open errors codec types Slices

/-! ## Python's text -/

/-- `c.isspace()` -/
def is_space (c : Char) : Bool :=
  let n := c.toNat
  (0x09 ≤ n && n ≤ 0x0D) || (0x1C ≤ n && n ≤ 0x20) || (0x2000 ≤ n && n ≤ 0x200A) ||
    [0x85, 0xA0, 0x1680, 0x2028, 0x2029, 0x202F, 0x205F, 0x3000].contains n

/-- `s.strip()` -/
def strip (s : String) : String := String.ofList (Fields.strip is_space s.toList)

/-- `s.split(",")` -/
def split (s : String) : List String := (s.toList.splitOn ',').map String.ofList

/-- `s.lower()`, of the ASCII letters. No other character becomes a letter of the words that the
result is compared with. -/
def lower (s : String) : String := String.ofList (s.toList.map Char.toLower)

/-- A character of a quoted text, by the backslash rules for ASCII. -/
def repr_char (quote : Char) (c : Char) : List Char :=
  if c = quote ∨ c = '\\' then ['\\', c]
  else if c = '\n' then ['\\', 'n']
  else if c = '\r' then ['\\', 'r']
  else if c = '\t' then ['\\', 't']
  else if c.toNat < 0x20 ∨ c.toNat = 0x7F then
    '\\' :: 'x' :: List.leftpad 2 '0' (Nat.toDigits 16 c.toNat)
  else [c]

/-- `repr(s)` -/
def repr (s : String) : String :=
  let quote := if '\'' ∈ s.toList ∧ '"' ∉ s.toList then '"' else '\''
  String.ofList (quote :: s.toList.flatMap (repr_char quote) ++ [quote])

/-- `int(s, 0)` and `float(s)`, which return a number or raise `ValueError` with a message, and
`z == x` of an integer and a float. -/
structure Parsers (F : Type) where
  int_auto : String → Except String Int
  float : String → Except String F
  int_eq : Int → F → Bool

/-! ## The item of a write -/

/-- What ends a command before it returns its exit code: `SystemExit`, or any other exception. -/
inductive Raised
  | SystemExit (message : String)
  | error (e : PyError)
  deriving DecidableEq, Repr

/-- `_AREA_CHOICES_WRITE` -/
inductive WriteArea
  | holding
  | coil
  deriving DecidableEq, Repr

/-- The arguments that a write item is made of. `--dtype` offers all numeric types. -/
structure WriteValues where
  area : WriteArea
  start : Int
  values : String
  dtype : NumericDType := .uint16
  word_order : Order := .big
  byte_order : Order := .big
  deriving DecidableEq, Repr

def parse_bool (s : String) : Except Raised Bool :=
  let s := lower s
  if s ∈ ["true", "1", "on", "yes"] then pure true
  else if s ∈ ["false", "0", "off", "no"] then pure false
  else throw (.SystemExit s!"--values: invalid boolean {repr s}")

/-- `except ValueError as e: raise SystemExit(f"{option}: {e}") from e` -/
def value_error {α : Type} (option : String) : Except String α → Except Raised α
  | .ok a => pure a
  | .error e => throw (.SystemExit s!"{option}: {e}")

/-- `[s.strip() for s in values.split(",") if s.strip()]` -/
def raw_values (values : String) : List String :=
  ((split values).filter fun s => strip s ≠ "").map strip

section

variable {F : Type} (parsers : Parsers F) (args : WriteValues)

def build_write_item : Except Raised (WriteItem F) :=
  if raw_values args.values = [] then
    throw (.SystemExit "--values must be a non-empty comma-separated list")
  else
    match args.area with
    | .coil => do
      let bools ← (raw_values args.values).mapM parse_bool
      pure (.WriteCoils args.start bools)
    | .holding =>
      if args.dtype = .float32 then do
        let float_values ← (raw_values args.values).mapM fun s =>
          value_error "--values" (parsers.float s)
        pure (.WriteHolding args.start (float_values.map .float) args.dtype args.word_order
          args.byte_order)
      else do
        let int_values ← (raw_values args.values).mapM fun s =>
          value_error "--values" (parsers.int_auto s)
        pure (.WriteHolding args.start (int_values.map .int) args.dtype args.word_order
          args.byte_order)

/-! ## What a list of literals denotes -/

/-- The words that the help text documents. -/
def boolean_words : List (String × Bool) :=
  [("true", true), ("false", false), ("1", true), ("0", false), ("on", true), ("off", false),
    ("yes", true), ("no", false)]

/-- The character, or its capital. -/
def CaseOf (c d : Char) : Prop := c = d ∨ c = d.toUpper

/-- A documented word in any letter case. -/
def BooleanWord (s : String) (b : Bool) : Prop :=
  ∃ word, (word, b) ∈ boolean_words ∧ List.Forall₂ CaseOf s.toList word.toList

def is_float : NumericDType → Bool
  | .float32 | .float64 => true
  | _ => false

/-- The literals of a choice of area and type, and their values. -/
def Denotes (s : String) (v : Value F) : Prop :=
  match args.area with
  | .coil => ∃ b, BooleanWord s b ∧ v = .bool b
  | .holding =>
    if is_float args.dtype then ∃ x, parsers.float s = .ok x ∧ v = .float x
    else ∃ z, parsers.int_auto s = .ok z ∧ v = .int z

/-- Python's `==` on numbers of which none is a bool. -/
def ValueEq : Value F → Value F → Prop
  | .int z, .float x => parsers.int_eq z x = true
  | .float x, .int z => parsers.int_eq z x = true
  | v, w => v = w

/-- The item writes these values, as the arguments say. -/
def Writes (item : WriteItem F) (vs : List (Value F)) : Prop :=
  match args.area, item with
  | .coil, .WriteCoils start bools => start = args.start ∧ bools.map .bool = vs
  | .holding, .WriteHolding start values dtype word_order byte_order =>
    start = args.start ∧ dtype = args.dtype ∧ word_order = args.word_order ∧
      byte_order = args.byte_order ∧ List.Forall₂ (ValueEq parsers) values vs
  | _, _ => False

/-- A list of literals is accepted and written; any other list is not. -/
structure BuildsDenoted (literals : List String) : Prop where
  accepts : ∀ vs, literals ≠ [] → List.Forall₂ (Denotes parsers args) literals vs →
    ∃ item, build_write_item parsers args = .ok item ∧ Writes parsers args item vs
  rejects : literals = [] ∨ (∃ s ∈ literals, ∀ v, ¬ Denotes parsers args s v) →
    ∃ message, build_write_item parsers args = .error (.SystemExit message)

end

/-! ## The literals -/

theorem strip_ofList (text : List Char) :
    strip (String.ofList text) = String.ofList (Fields.strip is_space text) := by
  rw [strip, String.toList_ofList]

/-- `_build_write_item` finds the fields of the list. -/
theorem raw_values_eq (values : String) :
    raw_values values = (Fields.fields ',' is_space values.toList).map String.ofList := by
  have hstrip : strip ∘ String.ofList = String.ofList ∘ Fields.strip is_space :=
    funext strip_ofList
  have hblank : ∀ text, strip (String.ofList text) ≠ "" ↔ Fields.strip is_space text ≠ [] := by
    intro text
    rw [strip_ofList, ← String.ofList_nil, ne_eq, String.ofList_inj]
  have hfilter : (values.toList.splitOn ',').filter ((fun s => decide (strip s ≠ "")) ∘ String.ofList)
      = (values.toList.splitOn ',').filter fun piece => Fields.strip is_space piece ≠ [] := by
    apply List.filter_congr
    intro text _
    rw [Function.comp_apply, decide_eq_decide]
    exact hblank text
  unfold raw_values split Fields.fields
  rw [List.filter_map, List.map_map, List.map_map, hstrip, hfilter]

/-- The text lists these literals: pieces between commas, each a literal with blanks around it, or
nothing but blanks. -/
def Lists (values : String) (literals : List String) : Prop :=
  Fields.Listing ',' is_space values.toList (literals.map String.toList)

theorem lists_iff {values : String} {literals : List String} :
    Lists values literals ↔ raw_values values = literals := by
  have hround : ∀ ls : List String, (ls.map String.toList).map String.ofList = ls := by
    intro ls
    simp
  unfold Lists
  rw [Fields.listing_iff (by decide), raw_values_eq]
  constructor
  · intro h
    rw [h, hround]
  · intro h
    rw [← h, List.map_map]
    simp

theorem toNat_toLower (c : Char) :
    c.toLower.toNat = if 65 ≤ c.toNat ∧ c.toNat ≤ 90 then c.toNat + 32 else c.toNat := by
  unfold Char.toLower
  split <;> rename_i h
  · have hupper : 65 ≤ c.toNat ∧ c.toNat ≤ 90 := h
    rw [if_pos hupper]
    change (c.val + 32).toNat = _
    rw [UInt32.toNat_add]
    change (c.toNat + 32) % _ = _
    omega
  · have hupper : ¬ (65 ≤ c.toNat ∧ c.toNat ≤ 90) := h
    rw [if_neg hupper]

theorem toNat_toUpper (c : Char) :
    c.toUpper.toNat = if 97 ≤ c.toNat ∧ c.toNat ≤ 122 then c.toNat - 32 else c.toNat := by
  unfold Char.toUpper
  split <;> rename_i h
  · have hlower : 97 ≤ c.toNat ∧ c.toNat ≤ 122 := h
    rw [if_pos hlower]
    change (c.val + ('A'.val - 'a'.val)).toNat = _
    rw [UInt32.toNat_add]
    change (c.toNat + 4294967264) % _ = _
    omega
  · have hlower : ¬ (97 ≤ c.toNat ∧ c.toNat ≤ 122) := h
    rw [if_neg hlower]

/-- What becomes a character that is no capital: the character, or its capital. -/
theorem toLower_eq_iff {c d : Char} (hd : ¬ (65 ≤ d.toNat ∧ d.toNat ≤ 90)) :
    c.toLower = d ↔ CaseOf c d := by
  have hval : ∀ a b : Char, a = b ↔ a.toNat = b.toNat := fun a b =>
    Char.ext_iff.trans UInt32.toNat_inj.symm
  unfold CaseOf
  rw [hval, hval c d, hval c d.toUpper, toNat_toLower, toNat_toUpper]
  split <;> split <;> omega

/-- A word without capitals. -/
def Small (word : String) : Prop := ∀ d ∈ word.toList, ¬ (65 ≤ d.toNat ∧ d.toNat ≤ 90)

theorem lower_eq_iff {s word : String} (hword : Small word) :
    lower s = word ↔ List.Forall₂ CaseOf s.toList word.toList := by
  have hlist : lower s = word ↔ s.toList.map Char.toLower = word.toList := by
    unfold lower
    rw [← String.toList_inj, String.toList_ofList]
  have hchars : ∀ cs ds : List Char, (∀ d ∈ ds, ¬ (65 ≤ d.toNat ∧ d.toNat ≤ 90)) →
      (cs.map Char.toLower = ds ↔ List.Forall₂ CaseOf cs ds) := by
    intro cs
    induction cs with
    | nil =>
      intro ds _
      cases ds <;> simp
    | cons c cs ih =>
      intro ds hds
      cases ds with
      | nil => simp
      | cons d ds =>
        rw [List.map_cons, List.cons.injEq, List.forall₂_cons, toLower_eq_iff (hds d (by simp)),
          ih ds fun e he => hds e (by simp [he])]
  rw [hlist, hchars _ _ hword]

theorem boolean_words_small : ∀ p ∈ boolean_words, Small p.1 := by
  unfold Small
  simp [boolean_words]

theorem booleanWord_iff {s : String} {b : Bool} :
    BooleanWord s b ↔ (lower s, b) ∈ boolean_words := by
  unfold BooleanWord
  constructor
  · intro ⟨word, hword, hcase⟩
    rwa [(lower_eq_iff (boolean_words_small _ hword)).mpr hcase]
  · intro h
    exact ⟨lower s, h, (lower_eq_iff (boolean_words_small _ h)).mp rfl⟩

/-- `_parse_bool` takes the documented words and exits at every other text. -/
theorem parse_bool_ok {s : String} {b : Bool} : parse_bool s = .ok b ↔ BooleanWord s b := by
  rw [booleanWord_iff]
  unfold parse_bool boolean_words
  simp only [List.mem_cons, Prod.mk.injEq, List.not_mem_nil, or_false]
  split
  · rename_i h
    rcases h with h | h | h | h <;> rw [h] <;> cases b <;> decide
  · split
    · rename_i h
      rcases h with h | h | h | h <;> rw [h] <;> cases b <;> decide
    · rename_i h1 h2
      simp only [not_or] at h1 h2
      simp [h1, h2, throw, throwThe, MonadExceptOf.throw]

theorem parse_bool_error {s : String} {e : Raised} (h : parse_bool s = .error e) :
    ∃ message, e = .SystemExit message := by
  unfold parse_bool at h
  simp only at h
  split at h
  · cases h
  · split at h
    · cases h
    · cases h
      exact ⟨_, rfl⟩

theorem value_error_ok {α : Type} {option : String} {x : Except String α} {a : α} :
    value_error option x = .ok a ↔ x = .ok a := by
  cases x with
  | ok a' =>
    change (.ok a' : Except Raised α) = .ok a ↔ _
    rw [Except.ok.injEq, Except.ok.injEq]
  | error m =>
    constructor
    · intro h
      cases h
    · intro h
      cases h

theorem value_error_error {α : Type} {option : String} {x : Except String α} {e : Raised}
    (h : value_error option x = .error e) : ∃ message, e = .SystemExit message := by
  cases x with
  | ok a => cases h
  | error m =>
    cases h
    exact ⟨_, rfl⟩

/-! ## Lists of literals -/

section

variable {F : Type} {parsers : Parsers F} {args : WriteValues} {literals : List String}
  {α : Type} {parse : String → Except Raised α} {wrap : α → Value F}

theorem mapM_denoted {vs : List (Value F)}
    (h : List.Forall₂ (fun s v => ∃ a, parse s = .ok a ∧ v = wrap a) literals vs) :
    ∃ as, literals.mapM parse = .ok as ∧ as.map wrap = vs := by
  induction h with
  | nil => exact ⟨[], rfl, rfl⟩
  | cons hs _ ih =>
    obtain ⟨a, ha, rfl⟩ := hs
    obtain ⟨as, has, rfl⟩ := ih
    refine ⟨a :: as, ?_, rfl⟩
    rw [List.mapM_cons, ha, has]
    rfl

theorem mapM_refused (hexit : ∀ s e, parse s = .error e → ∃ message, e = .SystemExit message)
    {s : String} (hs : s ∈ literals) (h : ∀ a, parse s ≠ .ok a) :
    ∃ message, literals.mapM parse = .error (.SystemExit message) := by
  cases hparse : parse s with
  | ok a => exact absurd hparse (h a)
  | error e =>
    obtain ⟨e', he'⟩ := mapM_error hs hparse
    obtain ⟨s', _, hs'⟩ := error_of_mapM he'
    obtain ⟨message, rfl⟩ := hexit s' e' hs'
    exact ⟨message, he'⟩

theorem build_write_item_empty (h : raw_values args.values = []) :
    build_write_item parsers args =
      .error (.SystemExit "--values must be a non-empty comma-separated list") := by
  unfold build_write_item
  rw [if_pos h]
  rfl

/-- A choice whose values are parsed one by one, by the parser that its literals are literals of. -/
theorem buildsDenoted_of_parse (wrap : α → Value F) {make : List α → WriteItem F}
    (hraw : raw_values args.values = literals)
    (hexit : ∀ s e, parse s = .error e → ∃ message, e = .SystemExit message)
    (hbuild : literals ≠ [] →
      build_write_item parsers args = (literals.mapM parse).bind fun as => .ok (make as))
    (hdenotes : ∀ s v, Denotes parsers args s v ↔ ∃ a, parse s = .ok a ∧ v = wrap a)
    (hwrites : ∀ as, Writes parsers args (make as) (as.map wrap)) :
    BuildsDenoted parsers args literals := by
  constructor
  · intro vs hne hvs
    obtain ⟨as, has, rfl⟩ := mapM_denoted (hvs.imp fun s v => (hdenotes s v).mp)
    refine ⟨make as, ?_, hwrites as⟩
    rw [hbuild hne, has]
    rfl
  · intro hbad
    by_cases hne : literals = []
    · exact ⟨_, build_write_item_empty (hraw.trans hne)⟩
    · obtain ⟨s, hs, hno⟩ := hbad.resolve_left hne
      obtain ⟨message, hmessage⟩ := mapM_refused hexit hs fun a ha =>
        hno (wrap a) ((hdenotes s _).mpr ⟨a, ha, rfl⟩)
      refine ⟨message, ?_⟩
      rw [hbuild hne, hmessage]
      rfl

theorem valueEq_refl (parsers : Parsers F) (v : Value F) : ValueEq parsers v v := by
  cases v <;> exact rfl

theorem valuesEq_refl (parsers : Parsers F) (vs : List (Value F)) :
    List.Forall₂ (ValueEq parsers) vs vs :=
  List.forall₂_same.mpr fun v _ => valueEq_refl parsers v

/-- Coils are written by their words. -/
theorem buildsDenoted_coil (hraw : raw_values args.values = literals) (harea : args.area = .coil) :
    BuildsDenoted parsers args literals := by
  have hbuild : literals ≠ [] → build_write_item parsers args =
      (literals.mapM parse_bool).bind fun bools => .ok (.WriteCoils args.start bools) := by
    intro hne
    unfold build_write_item
    rw [hraw, if_neg hne, harea]
    rfl
  apply buildsDenoted_of_parse .bool hraw (fun _ _ => parse_bool_error) hbuild
  · intro s v
    unfold Denotes
    rw [harea]
    simp only [parse_bool_ok]
  · intro bools
    unfold Writes
    rw [harea]
    exact ⟨rfl, rfl⟩

theorem build_write_item_float32 (hraw : raw_values args.values = literals)
    (harea : args.area = .holding) (hdtype : args.dtype = .float32) (hne : literals ≠ []) :
    build_write_item parsers args =
      (literals.mapM fun s => value_error "--values" (parsers.float s)).bind fun xs =>
        .ok (.WriteHolding args.start (xs.map .float) args.dtype args.word_order
          args.byte_order) := by
  unfold build_write_item
  rw [hraw, if_neg hne, harea]
  simp only [if_pos hdtype]
  rfl

theorem build_write_item_int (hraw : raw_values args.values = literals)
    (harea : args.area = .holding) (hdtype : args.dtype ≠ .float32) (hne : literals ≠ []) :
    build_write_item parsers args =
      (literals.mapM fun s => value_error "--values" (parsers.int_auto s)).bind fun zs =>
        .ok (.WriteHolding args.start (zs.map .int) args.dtype args.word_order
          args.byte_order) := by
  unfold build_write_item
  rw [hraw, if_neg hne, harea]
  simp only [if_neg hdtype]
  rfl

/-- An item of registers with the values of the arguments' own. -/
theorem writes_holding (harea : args.area = .holding) (vs : List (Value F)) :
    Writes parsers args
      (.WriteHolding args.start vs args.dtype args.word_order args.byte_order) vs := by
  unfold Writes
  rw [harea]
  exact ⟨rfl, rfl, rfl, rfl, valuesEq_refl parsers vs⟩

theorem buildsDenoted_float32 (hraw : raw_values args.values = literals)
    (harea : args.area = .holding) (hdtype : args.dtype = .float32) :
    BuildsDenoted parsers args literals := by
  apply buildsDenoted_of_parse .float hraw (fun _ _ => value_error_error)
    (build_write_item_float32 hraw harea hdtype)
  · intro s v
    unfold Denotes
    rw [harea, hdtype]
    simp only [value_error_ok]
    exact Iff.rfl
  · exact fun xs => writes_holding harea _

theorem buildsDenoted_int (hraw : raw_values args.values = literals)
    (harea : args.area = .holding) (hdtype : is_float args.dtype = false) :
    BuildsDenoted parsers args literals := by
  have hne : args.dtype ≠ .float32 := by
    intro h
    rw [h] at hdtype
    cases hdtype
  apply buildsDenoted_of_parse .int hraw (fun _ _ => value_error_error)
    (build_write_item_int hraw harea hne)
  · intro s v
    unfold Denotes
    rw [harea]
    simp only [value_error_ok, hdtype]
    exact Iff.rfl
  · exact fun zs => writes_holding harea _

/-! ## The type that is left behind -/

/-- The literals of the list are read the same way by `int(s, 0)` and by `float(s)`: all of them
are literals of both, with equal numbers, or each of the two refuses one of them. -/
def ReadAlike (parsers : Parsers F) (literals : List String) : Prop :=
  (∀ s ∈ literals, ∃ z x, parsers.int_auto s = .ok z ∧ parsers.float s = .ok x ∧
    parsers.int_eq z x = true) ∨
  ((∃ s ∈ literals, ∀ z, parsers.int_auto s ≠ .ok z) ∧
    ∃ s ∈ literals, ∀ x, parsers.float s ≠ .ok x)

theorem denotes_float64 (harea : args.area = .holding) (hdtype : args.dtype = .float64)
    (s : String) (v : Value F) :
    Denotes parsers args s v ↔ ∃ x, parsers.float s = .ok x ∧ v = .float x := by
  unfold Denotes
  rw [harea, hdtype]
  exact Iff.rfl

/-- What the elements of a list have in common with those of two others. -/
theorem forall₂_meet {β γ δ : Type} {r : β → γ → Prop} {q : β → δ → Prop} {p : γ → δ → Prop}
    {l : List β} {ms : List γ} {ns : List δ} (h : List.Forall₂ r l ms) (h' : List.Forall₂ q l ns)
    (h'' : List.Forall₂ p ms ns) : ∀ b ∈ l, ∃ c d, r b c ∧ q b d ∧ p c d := by
  induction h generalizing ns with
  | nil => simp
  | cons hr _ ih =>
    cases h' with
    | cons hq hqs =>
      cases h'' with
      | cons hp hps =>
        intro b hb
        rcases List.mem_cons.mp hb with hb | hb
        · exact ⟨_, _, hb ▸ hr, hb ▸ hq, hp⟩
        · exact ih hqs hps b hb

/-- Literals of both kinds, read as integers, are the numbers that they denote. -/
theorem mapM_int_auto_of_alike (harea : args.area = .holding) (hdtype : args.dtype = .float64)
    {vs : List (Value F)} (hvs : List.Forall₂ (Denotes parsers args) literals vs)
    (hall : ∀ s ∈ literals, ∃ z x, parsers.int_auto s = .ok z ∧ parsers.float s = .ok x ∧
      parsers.int_eq z x = true) :
    ∃ zs, literals.mapM (fun s => value_error "--values" (parsers.int_auto s)) = .ok zs ∧
      List.Forall₂ (ValueEq parsers) (zs.map .int) vs := by
  induction hvs with
  | nil => exact ⟨[], rfl, .nil⟩
  | @cons s v literals vs hs _ ih =>
    obtain ⟨z, x, hz, hx, heq⟩ := hall s (by simp)
    obtain ⟨x', hx', hv⟩ := (denotes_float64 harea hdtype s v).mp hs
    obtain ⟨zs, hzs, heqs⟩ := ih fun s' hs' => hall s' (by simp [hs'])
    rw [hx] at hx'
    cases hx'
    subst hv
    refine ⟨z :: zs, ?_, .cons heq heqs⟩
    rw [List.mapM_cons, value_error_ok.mpr hz, hzs]
    rfl

theorem exists_denoted {vs : List (Value F)}
    (h : List.Forall₂ (Denotes parsers args) literals vs) :
    ∀ s ∈ literals, ∃ v, Denotes parsers args s v := by
  induction h with
  | nil => simp
  | cons hs _ ih =>
    intro s hmem
    rcases List.mem_cons.mp hmem with hmem | hmem
    · exact ⟨_, hmem ▸ hs⟩
    · exact ih s hmem

/-- A list that is not parsed has a text that is not. -/
theorem refused_of_mapM {β ε : Type} {p : String → Except ε β} {e : ε}
    (h : literals.mapM p = .error e) : ∃ s ∈ literals, ∀ b, p s ≠ .ok b := by
  obtain ⟨s, hs, he⟩ := error_of_mapM h
  refine ⟨s, hs, ?_⟩
  intro b hb
  rw [he] at hb
  cases hb

/-- The values of `float64` are parsed as integers. -/
theorem build_write_item_float64 (hraw : raw_values args.values = literals)
    (harea : args.area = .holding) (hdtype : args.dtype = .float64) (hne : literals ≠ []) :
    build_write_item parsers args =
      (literals.mapM fun s => value_error "--values" (parsers.int_auto s)).bind fun zs =>
        .ok (.WriteHolding args.start (zs.map .int) args.dtype args.word_order
          args.byte_order) := by
  apply build_write_item_int hraw harea _ hne
  intro h
  rw [hdtype] at h
  cases h

theorem denoted_floats (harea : args.area = .holding) (hdtype : args.dtype = .float64) {xs : List F}
    (h : literals.mapM parsers.float = .ok xs) :
    List.Forall₂ (Denotes parsers args) literals (xs.map .float) := by
  refine List.forall₂_map_right_iff.mpr ((forall₂_of_mapM_ok h).imp ?_)
  intro s x hx
  exact (denotes_float64 harea hdtype s _).mpr ⟨x, hx, rfl⟩

theorem readAlike_of_buildsDenoted (hraw : raw_values args.values = literals)
    (harea : args.area = .holding) (hdtype : args.dtype = .float64)
    (h : BuildsDenoted parsers args literals) : ReadAlike parsers literals := by
  by_cases hne : literals = []
  · exact .inl (by simp [hne])
  have hbuild : build_write_item parsers args = _ :=
    build_write_item_float64 hraw harea hdtype hne
  cases hints : literals.mapM fun s => value_error "--values" (parsers.int_auto s) with
  | ok zs =>
    rw [hints] at hbuild
    cases hfloats : literals.mapM parsers.float with
    | ok xs =>
      left
      obtain ⟨item, hitem, hwrites⟩ := h.accepts _ hne (denoted_floats harea hdtype hfloats)
      rw [hbuild] at hitem
      cases hitem
      unfold Writes at hwrites
      rw [harea] at hwrites
      have heqs := List.forall₂_map_left_iff.mp (List.forall₂_map_right_iff.mp hwrites.2.2.2.2)
      intro s hs
      obtain ⟨z, x, hz, hx, heq⟩ :=
        forall₂_meet (forall₂_of_mapM_ok hints) (forall₂_of_mapM_ok hfloats) heqs s hs
      exact ⟨z, x, value_error_ok.mp hz, hx, heq⟩
    | error m =>
      -- An item was built although a literal is no float.
      exfalso
      obtain ⟨s, hs, hno⟩ := refused_of_mapM hfloats
      obtain ⟨message, hexit⟩ := h.rejects <| .inr ⟨s, hs, fun v hv => by
        obtain ⟨x, hx, -⟩ := (denotes_float64 harea hdtype s v).mp hv
        exact hno x hx⟩
      rw [hbuild] at hexit
      cases hexit
  | error e =>
    rw [hints] at hbuild
    right
    obtain ⟨s, hs, hno⟩ := refused_of_mapM hints
    refine ⟨⟨s, hs, fun z hz => hno z (value_error_ok.mpr hz)⟩, ?_⟩
    cases hfloats : literals.mapM parsers.float with
    | ok xs =>
      -- No item was built although all literals are floats.
      exfalso
      obtain ⟨item, hitem, -⟩ := h.accepts _ hne (denoted_floats harea hdtype hfloats)
      rw [hbuild] at hitem
      cases hitem
    | error m => exact refused_of_mapM hfloats

/-- A list for `float64` is parsed right exactly when both parsers read it alike. -/
theorem buildsDenoted_float64_iff (hraw : raw_values args.values = literals)
    (harea : args.area = .holding) (hdtype : args.dtype = .float64) :
    BuildsDenoted parsers args literals ↔ ReadAlike parsers literals := by
  refine ⟨readAlike_of_buildsDenoted hraw harea hdtype, fun h => ⟨?_, ?_⟩⟩
  · intro vs hne hvs
    have hbuild : build_write_item parsers args = _ :=
      build_write_item_float64 hraw harea hdtype hne
    rcases h with hall | ⟨-, s, hs, hno⟩
    · obtain ⟨zs, hzs, heq⟩ := mapM_int_auto_of_alike harea hdtype hvs hall
      rw [hzs] at hbuild
      refine ⟨_, hbuild, ?_⟩
      unfold Writes
      rw [harea]
      exact ⟨rfl, rfl, rfl, rfl, heq⟩
    · obtain ⟨v, hv⟩ := exists_denoted hvs s hs
      obtain ⟨x, hx, -⟩ := (denotes_float64 harea hdtype s v).mp hv
      exact absurd hx (hno x)
  · intro hbad
    by_cases hne : literals = []
    · exact ⟨_, build_write_item_empty (hraw.trans hne)⟩
    have hbuild : build_write_item parsers args = _ :=
      build_write_item_float64 hraw harea hdtype hne
    obtain ⟨s, hs, hno⟩ := hbad.resolve_left hne
    rcases h with hall | ⟨⟨s', hs', hno'⟩, -⟩
    · obtain ⟨z, x, -, hx, -⟩ := hall s hs
      exact absurd ((denotes_float64 harea hdtype s _).mpr ⟨x, hx, rfl⟩) (hno _)
    · obtain ⟨message, hmessage⟩ := mapM_refused (fun _ _ => value_error_error) hs'
        fun z hz => hno' z (value_error_ok.mp hz)
      rw [hmessage] at hbuild
      exact ⟨message, hbuild⟩

/-- Every list of literals is accepted and written as what it denotes, or else refused, exactly
when its type is not `float64`, or integers and floats are the same in it. -/
theorem a_list_of_literals_is_built_iff (parsers : Parsers F) (args : WriteValues)
    (literals : List String) (hlists : Lists args.values literals) :
    BuildsDenoted parsers args literals ↔
      (args.area = .holding ∧ args.dtype = .float64 → ReadAlike parsers literals) := by
  have hraw := lists_iff.mp hlists
  by_cases hleft : args.area = .holding ∧ args.dtype = .float64
  · rw [buildsDenoted_float64_iff hraw hleft.1 hleft.2]
    exact ⟨fun h _ => h, fun h => h hleft⟩
  · refine ⟨fun _ h => absurd h hleft, fun _ => ?_⟩
    cases harea : args.area with
    | coil => exact buildsDenoted_coil hraw harea
    | holding =>
      by_cases hdtype : args.dtype = .float32
      · exact buildsDenoted_float32 hraw harea hdtype
      · apply buildsDenoted_int hraw harea
        have hnot64 : args.dtype ≠ .float64 := fun h => hleft ⟨harea, h⟩
        cases hd : args.dtype with
        | float32 => exact absurd hd hdtype
        | float64 => exact absurd hd hnot64
        | _ => rfl

end

/-- Parsers of three literals. -/
def few_literals : Parsers Rat where
  int_auto s :=
    if s = "7" then .ok 7 else .error s!"invalid literal for int() with base 0: {repr s}"
  float s :=
    if s = "7" then .ok 7
    else if s = "1.5" then .ok (3 / 2)
    else .error s!"could not convert string to float: {repr s}"
  int_eq z x := decide ((z : Rat) = x)

/-- `--values " 1.5,,7" --dtype float32`: both values are written. -/
theorem two_floats_are_built : BuildsDenoted few_literals
    { area := .holding, start := 10, values := " 1.5,,7", dtype := .float32 } ["1.5", "7"] :=
  (a_list_of_literals_is_built_iff few_literals
    { area := .holding, start := 10, values := " 1.5,,7", dtype := .float32 } ["1.5", "7"]
    (lists_iff.mpr (by decide))).mpr (by simp)

/-- `--values 1.5 --dtype float64` exits. -/
theorem a_float_is_refused : ¬ ∀ (parsers : Parsers Rat) (args : WriteValues)
    (literals : List String), Lists args.values literals → BuildsDenoted parsers args literals := by
  intro h
  let args : WriteValues := { area := .holding, start := 10, values := "1.5", dtype := .float64 }
  have hbuilds := h few_literals args ["1.5"] (lists_iff.mpr (by decide))
  obtain ⟨item, hitem, -⟩ := hbuilds.accepts [.float (3 / 2)] (by simp)
    (.cons ⟨3 / 2, rfl, rfl⟩ .nil)
  have hexits : build_write_item few_literals args =
      .error (.SystemExit "--values: invalid literal for int() with base 0: '1.5'") := by decide
  rw [hexits] at hitem
  cases hitem

end pymod.cli
