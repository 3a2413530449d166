-- What `pymod serve` starts from: the JSON config and the arguments `--holding`, `--input`,
-- `--coil` and `--discrete`, and the store that `_build_sim_state` in `cli.py` fills from them.
import Pymod.CliValues
import Pymod.Server
import Pymod.Lib.Fallible
import Mathlib.Data.List.AList

namespace pymod.serve

open errors codec types server cli Fallible

/-! ## Dicts -/

/-- A dict from addresses to values. -/
abbrev Dict := AList fun _ : Int => Cell

/-- The four dicts of `_SimState`. -/
structure SimDicts where
  holding : Dict := ∅
  input : Dict := ∅
  coil : Dict := ∅
  discrete : Dict := ∅

/-- The store that the callbacks of the server read and write. -/
def SimDicts.state (dicts : SimDicts) : SimState where
  holding := fun x => dicts.holding.lookup x
  input := fun x => dicts.input.lookup x
  coil := fun x => dicts.coil.lookup x
  discrete := fun x => dicts.discrete.lookup x

/-- `for k, v in assignments: out[k] = v` -/
def set_all (out : Dict) (assignments : List (Int × Cell)) : Dict :=
  assignments.foldl (fun out kv => out.insert kv.1 kv.2) out

/-! ## The arguments -/

section

variable (int_auto : String → Except String Int)

/-- `int(s, 0)`, whose `ValueError` nobody catches. -/
def int_literal (s : String) : Except Raised Int :=
  match int_auto s with
  | .ok z => pure z
  | .error m => throw (.error (.ValueError m))

/-- `piece.split("=", 1)` of a piece that has the sign. -/
def split_assignment (piece : String) : String × String :=
  (String.ofList (piece.toList.takeWhile (· ≠ '=')),
    String.ofList (piece.toList.dropWhile (· ≠ '=')).tail)

/-- The turn of the loop for one piece that is not blank. -/
def parse_assignment (what : String) (value : String → Except Raised Cell) (piece : String) :
    Except Raised (Int × Cell) :=
  if '=' ∉ piece.toList then
    throw (.SystemExit s!"invalid spec {cli.repr piece}: expected ADDR={what}")
  else do
    let (addr_s, val_s) := split_assignment piece
    -- Python evaluates the right side of `out[int(addr_s)] = int(val_s)` first
    let v ← value (strip val_s)
    let addr ← int_literal int_auto (strip addr_s)
    pure (addr, v)

/-- The loop that `_parse_int_map` and `_parse_bool_map` share. -/
def parse_map (what : String) (value : String → Except Raised Cell) (spec : String) :
    Except Raised Dict :=
  if strip spec = "" then pure ∅
  else do
    let assignments ← (raw_values spec).mapM (parse_assignment int_auto what value)
    pure (set_all ∅ assignments)

def int_value (s : String) : Except Raised Cell := do
  let z ← int_literal int_auto s
  pure (.int z)

def bool_value (s : String) : Except Raised Cell := do
  let b ← parse_bool s
  pure (.bool b)

def parse_int_map (spec : String) : Except Raised Dict :=
  parse_map int_auto "VALUE" (int_value int_auto) spec

def parse_bool_map (spec : String) : Except Raised Dict :=
  parse_map int_auto "BOOL" bool_value spec

/-! ## The config -/

/-- What `json.load` returns. Of floats, strings and lists only the type is looked at; an object
has its members in the order of the dict. -/
inductive JsonValue
  | null
  | bool (b : Bool)
  | int (z : Int)
  | float
  | str
  | list
  | object (members : List (String × JsonValue))

/-- `type(data).__name__` -/
def JsonValue.type_name : JsonValue → String
  | .null => "NoneType"
  | .bool _ => "bool"
  | .int _ => "int"
  | .float => "float"
  | .str => "str"
  | .list => "list"
  | .object _ => "dict"

/-- The value, when `isinstance(v, int)`. In Python a bool is an int. -/
def JsonValue.as_int : JsonValue → Option Cell
  | .int z => some (.int z)
  | .bool b => some (.bool b)
  | _ => none

/-- The value, when `isinstance(v, bool)`. -/
def JsonValue.as_bool : JsonValue → Option Cell
  | .bool b => some (.bool b)
  | _ => none

/-- `data.get(area_key, {})`, which must be an object. -/
def section_of (data : List (String × JsonValue)) (area_key : String) :
    Except Raised (List (String × JsonValue)) :=
  match data.lookup area_key with
  | none => pure []
  | some (.object members) => pure members
  | some _ => throw (.SystemExit s!"config['{area_key}'] must be an object")

/-- The turn of the loop for one member of a section. Its key is a string, as in all JSON. -/
def member_assignment (area_key what : String) (value : JsonValue → Option Cell)
    (member : String × JsonValue) : Except Raised (Int × Cell) :=
  match value member.2 with
  | none => throw (.SystemExit s!"config['{area_key}'][{cli.repr member.1}] must be {what}")
  | some v => do
    let addr ← int_literal int_auto member.1
    pure (addr, v)

def load_section (data : List (String × JsonValue)) (area_key what : String)
    (value : JsonValue → Option Cell) (store : Dict) : Except Raised Dict := do
  let members ← section_of data area_key
  let assignments ← members.mapM (member_assignment int_auto area_key what value)
  pure (set_all store assignments)

/-- `_load_config_into_state`, behind `json.load`. -/
def load_config_into_state (state : SimDicts) (data : JsonValue) : Except Raised SimDicts :=
  match data with
  | .object data => do
    let holding ← load_section int_auto data "holding" "int" JsonValue.as_int state.holding
    let input ← load_section int_auto data "input" "int" JsonValue.as_int state.input
    let coil ← load_section int_auto data "coil" "bool" JsonValue.as_bool state.coil
    let discrete ← load_section int_auto data "discrete" "bool" JsonValue.as_bool state.discrete
    pure { holding, input, coil, discrete }
  | data =>
    throw (.SystemExit s!"config must be a JSON object, got {data.type_name}")

/-! ## The state -/

/-- The arguments of `pymod serve`. -/
structure ServeArgs where
  host : String := "0.0.0.0"
  port : Int := 502
  unit_id : Option Int := none
  max_connections : Int := 32
  readonly : Bool := false
  config : Option String := none
  holding : String := ""
  input : String := ""
  coil : String := ""
  discrete : String := ""

/-- `state.holding.update(other)` -/
def update (store other : Dict) : Dict := other ∪ store

/-- What `if args.config` does; `load` stands for `open` and `json.load`, which return a value or
raise. -/
def load_config (load : String → Except PyError JsonValue) (args : ServeArgs) : Except Raised SimDicts :=
  match args.config.filter fun path => path ≠ "" with
  | none => pure {}
  | some path =>
    match load path with
    | .error e => throw (.error e)
    | .ok data => load_config_into_state int_auto {} data

def build_sim_state (load : String → Except PyError JsonValue) (args : ServeArgs) : Except Raised SimDicts := do
  let state ← load_config int_auto load args
  let holding ← parse_int_map int_auto args.holding
  let input ← parse_int_map int_auto args.input
  let coil ← parse_bool_map int_auto args.coil
  let discrete ← parse_bool_map int_auto args.discrete
  pure {
    holding := update state.holding holding
    input := update state.input input
    coil := update state.coil coil
    discrete := update state.discrete discrete }

end

/-! ## What the texts assign -/

/-- What the last assignment to an address leaves there. -/
def last_value : List (Int × Cell) → Int → Option Cell
  | [], _ => none
  | (addr, v) :: rest, x => (last_value rest x).or (if addr = x then some v else none)

section

variable (int_auto : String → Except String Int)

/-- The piece has the address left of its first sign, and the value right of it. -/
def Assigns (value : String → Except Raised Cell) (piece : String) (kv : Int × Cell) : Prop :=
  ∃ addr_s val_s : String, piece.toList = addr_s.toList ++ '=' :: val_s.toList ∧
    '=' ∉ addr_s.toList ∧ int_auto (strip addr_s) = .ok kv.1 ∧ value (strip val_s) = .ok kv.2

/-- The argument lists these assignments, with blanks and empty pieces between them. -/
def SpecAssigns (value : String → Except Raised Cell) (spec : String)
    (assignments : List (Int × Cell)) : Prop :=
  ∃ pieces, Lists spec pieces ∧ List.Forall₂ (Assigns int_auto value) pieces assignments

/-- The section of the config has these assignments, in its order, if it is there at all. -/
def SectionAssigns (data : List (String × JsonValue)) (area_key : String)
    (value : JsonValue → Option Cell) (assignments : List (Int × Cell)) : Prop :=
  (data.lookup area_key = none ∧ assignments = []) ∨
    ∃ members, data.lookup area_key = some (.object members) ∧
      List.Forall₂ (fun member kv => int_auto member.1 = .ok kv.1 ∧ value member.2 = some kv.2)
        members assignments

/-- The config assigns to the areas. -/
def ConfigAssigns (data : JsonValue) (assignments : Area → List (Int × Cell)) : Prop :=
  ∃ members, data = .object members ∧
    SectionAssigns int_auto members "holding" JsonValue.as_int (assignments .HOLDING_REGISTER) ∧
    SectionAssigns int_auto members "input" JsonValue.as_int (assignments .INPUT_REGISTER) ∧
    SectionAssigns int_auto members "coil" JsonValue.as_bool (assignments .COIL) ∧
    SectionAssigns int_auto members "discrete" JsonValue.as_bool (assignments .DISCRETE_INPUT)

/-- What the config that the arguments name assigns: nothing when they name none. -/
def Configured (load : String → Except PyError JsonValue) (args : ServeArgs)
    (assignments : Area → List (Int × Cell)) : Prop :=
  match args.config.filter fun path => path ≠ "" with
  | none => assignments = fun _ => []
  | some path => ∃ data, load path = .ok data ∧ ConfigAssigns int_auto data assignments

/-- What the other arguments assign. -/
structure Inline (args : ServeArgs) (assignments : Area → List (Int × Cell)) : Prop where
  holding : SpecAssigns int_auto (int_value int_auto) args.holding (assignments .HOLDING_REGISTER)
  input : SpecAssigns int_auto (int_value int_auto) args.input (assignments .INPUT_REGISTER)
  coil : SpecAssigns int_auto bool_value args.coil (assignments .COIL)
  discrete : SpecAssigns int_auto bool_value args.discrete (assignments .DISCRETE_INPUT)

end

/-! ## Dicts after assignments -/

theorem last_value_append (l l' : List (Int × Cell)) (x : Int) :
    last_value (l ++ l') x = (last_value l' x).or (last_value l x) := by
  induction l with
  | nil => simp [last_value]
  | cons kv l ih => rw [List.cons_append, last_value, ih, last_value, Option.or_assoc]

theorem lookup_set_all (out : Dict) (assignments : List (Int × Cell)) (x : Int) :
    (set_all out assignments).lookup x = (last_value assignments x).or (out.lookup x) := by
  unfold set_all
  induction assignments generalizing out with
  | nil => simp [last_value]
  | cons kv rest ih =>
    obtain ⟨addr, v⟩ := kv
    rw [List.foldl_cons, ih, last_value, Option.or_assoc]
    congr 1
    by_cases h : addr = x
    · subst h
      simp
    · rw [if_neg h, AList.lookup_insert_ne (Ne.symm h), Option.none_or]

theorem lookup_update (store other : Dict) (x : Int) :
    (update store other).lookup x = (other.lookup x).or (store.lookup x) := by
  unfold update
  by_cases h : x ∈ other
  · rw [AList.lookup_union_left h]
    obtain ⟨v, hv⟩ := AList.lookup_isSome.mpr h |> Option.isSome_iff_exists.mp
    rw [hv, Option.some_or]
  · rw [AList.lookup_union_right h, AList.lookup_eq_none.mpr h, Option.none_or]

/-! ## The arguments, parsed -/

section

variable {int_auto : String → Except String Int} {value : String → Except Raised Cell}
  {what : String}

theorem int_literal_ok {s : String} {z : Int} : int_literal int_auto s = .ok z ↔ int_auto s = .ok z := by
  unfold int_literal
  cases int_auto s with
  | ok z' => exact pure_eq_ok.trans (Except.ok.injEq z' z).symm.to_iff
  | error m => simp [throw_eq_ok]

/-- What is left and right of the first sign. -/
theorem split_assignment_iff {piece addr_s val_s : String} (hsign : '=' ∈ piece.toList) :
    split_assignment piece = (addr_s, val_s) ↔
      piece.toList = addr_s.toList ++ '=' :: val_s.toList ∧ '=' ∉ addr_s.toList := by
  unfold split_assignment
  generalize hl : piece.toList = l at hsign
  constructor
  · intro h
    obtain ⟨rfl, rfl⟩ := Prod.mk.inj h
    rw [String.toList_ofList, String.toList_ofList]
    have hnot : ∀ c ∈ l.takeWhile (· ≠ '='), c ≠ '=' := fun c hc => by
      simpa using List.mem_takeWhile_imp hc
    refine ⟨?_, fun hmem => hnot _ hmem rfl⟩
    cases hdrop : l.dropWhile (· ≠ '=') with
    | nil =>
      have hall := List.dropWhile_eq_nil_iff.mp hdrop _ hsign
      simp at hall
    | cons c rest =>
      have hc : c = '=' := by
        have hhead := List.head?_dropWhile_not (· ≠ '=') l
        rw [hdrop] at hhead
        simpa using hhead
      subst hc
      rw [List.tail_cons, ← hdrop, List.takeWhile_append_dropWhile]
  · rintro ⟨rfl, hnot⟩
    have hall : ∀ c ∈ addr_s.toList, decide (c ≠ '=') = true := fun c hc => by
      have hne : c ≠ '=' := fun he => hnot (he ▸ hc)
      simpa using hne
    rw [List.takeWhile_append_of_pos hall, List.dropWhile_append_of_pos hall]
    simp

theorem parse_assignment_ok {piece : String} {kv : Int × Cell} :
    parse_assignment int_auto what value piece = .ok kv ↔ Assigns int_auto value piece kv := by
  unfold parse_assignment Assigns
  by_cases hsign : '=' ∈ piece.toList
  · rw [if_neg (not_not_intro hsign)]
    simp only [bind_eq_ok, int_literal_ok, pure_eq_ok]
    rcases hsplit : split_assignment piece with ⟨addr_s, val_s⟩
    obtain ⟨hpiece, hnot⟩ := (split_assignment_iff hsign).mp hsplit
    constructor
    · rintro ⟨v, hv, addr, haddr, rfl⟩
      exact ⟨addr_s, val_s, hpiece, hnot, haddr, hv⟩
    · rintro ⟨addr_s', val_s', hpiece', hnot', haddr, hv⟩
      have hsame := (split_assignment_iff hsign).mpr ⟨hpiece', hnot'⟩
      rw [hsplit] at hsame
      cases hsame
      exact ⟨kv.2, hv, kv.1, haddr, rfl⟩
  · rw [if_pos hsign, throw_eq_ok, false_iff]
    rintro ⟨addr_s, val_s, hpiece, -⟩
    exact hsign (by simp [hpiece])

/-- A text of blanks lists nothing. -/
theorem lists_of_blank {spec : String} (h : strip spec = "") : Lists spec [] := by
  have hstrip : Fields.strip is_space spec.toList = [] := by
    rwa [strip, ← String.ofList_nil, String.ofList_inj] at h
  exact .last (.empty (Fields.blanks_of_strip hstrip))

/-- The dicts that an argument can be parsed to: those of its assignments. -/
theorem parse_map_ok {spec : String} {dict : Dict} :
    parse_map int_auto what value spec = .ok dict ↔
      ∃ assignments, SpecAssigns int_auto value spec assignments ∧ set_all ∅ assignments = dict := by
  have hspec : ∀ assignments, SpecAssigns int_auto value spec assignments ↔
      (raw_values spec).mapM (parse_assignment int_auto what value) = .ok assignments := by
    intro assignments
    simp only [SpecAssigns, lists_iff, mapM_eq_ok, parse_assignment_ok, exists_eq_left']
  unfold parse_map
  by_cases hblank : strip spec = ""
  · rw [if_pos hblank, pure_eq_ok]
    have hraw := lists_iff.mp (lists_of_blank hblank)
    simp only [hspec, hraw, List.mapM_nil, pure_eq_ok, exists_eq_left']
    rfl
  · rw [if_neg hblank]
    simp only [hspec, bind_eq_ok, pure_eq_ok]

end

/-! ## The config, loaded -/

section

variable {int_auto : String → Except String Int} {value : JsonValue → Option Cell}

theorem member_assignment_ok {area_key what : String} {member : String × JsonValue}
    {kv : Int × Cell} : member_assignment int_auto area_key what value member = .ok kv ↔
      int_auto member.1 = .ok kv.1 ∧ value member.2 = some kv.2 := by
  unfold member_assignment
  cases value member.2 with
  | none => simp [throw_eq_ok]
  | some v =>
    simp only [bind_eq_ok, int_literal_ok, pure_eq_ok, Option.some.injEq]
    constructor
    · rintro ⟨addr, haddr, rfl⟩
      exact ⟨haddr, rfl⟩
    · rintro ⟨haddr, rfl⟩
      exact ⟨kv.1, haddr, rfl⟩

theorem section_of_ok {data members : List (String × JsonValue)} {area_key : String} :
    section_of data area_key = .ok members ↔
      (data.lookup area_key = none ∧ members = []) ∨
        data.lookup area_key = some (.object members) := by
  unfold section_of
  cases data.lookup area_key with
  | none => exact pure_eq_ok.trans (by simp [eq_comm])
  | some v =>
    cases v with
    | object members' => simp [pure_eq_ok]
    | _ => simp [throw_eq_ok]

theorem load_section_ok {data : List (String × JsonValue)} {area_key what : String}
    {store dict : Dict} : load_section int_auto data area_key what value store = .ok dict ↔
      ∃ assignments, SectionAssigns int_auto data area_key value assignments ∧
        set_all store assignments = dict := by
  unfold load_section SectionAssigns
  simp only [bind_eq_ok, section_of_ok, mapM_eq_ok, member_assignment_ok, pure_eq_ok]
  constructor
  · rintro ⟨members, hmembers | hmembers, assignments, hall, rfl⟩
    · obtain ⟨hnone, rfl⟩ := hmembers
      cases hall
      exact ⟨[], .inl ⟨hnone, rfl⟩, rfl⟩
    · exact ⟨assignments, .inr ⟨members, hmembers, hall⟩, rfl⟩
  · rintro ⟨assignments, ⟨hnone, rfl⟩ | ⟨members, hmembers, hall⟩, rfl⟩
    · exact ⟨[], .inl ⟨hnone, rfl⟩, [], .nil, rfl⟩
    · exact ⟨members, .inr hmembers, assignments, hall, rfl⟩

/-- The dicts that are empty but for the assignments. -/
def filled (assignments : Area → List (Int × Cell)) : SimDicts where
  holding := set_all ∅ (assignments .HOLDING_REGISTER)
  input := set_all ∅ (assignments .INPUT_REGISTER)
  coil := set_all ∅ (assignments .COIL)
  discrete := set_all ∅ (assignments .DISCRETE_INPUT)

/-- Assignments for each area. -/
def by_area (holding input coil discrete : List (Int × Cell)) : Area → List (Int × Cell)
  | .HOLDING_REGISTER => holding
  | .INPUT_REGISTER => input
  | .COIL => coil
  | .DISCRETE_INPUT => discrete

theorem load_config_into_state_ok {data : JsonValue} {dicts : SimDicts} :
    load_config_into_state int_auto {} data = .ok dicts ↔
      ∃ assignments, ConfigAssigns int_auto data assignments ∧ filled assignments = dicts := by
  constructor
  · intro h
    cases data with
    | object members =>
      simp only [load_config_into_state, bind_eq_ok, load_section_ok, pure_eq_ok] at h
      obtain ⟨_, ⟨hs, hholding, rfl⟩, _, ⟨is, hinput, rfl⟩, _, ⟨cs, hcoil, rfl⟩, _,
        ⟨ds, hdiscrete, rfl⟩, rfl⟩ := h
      exact ⟨by_area hs is cs ds, ⟨members, rfl, hholding, hinput, hcoil, hdiscrete⟩, rfl⟩
    | _ => exact absurd h (by simp [load_config_into_state, throw_eq_ok])
  · rintro ⟨assignments, ⟨members, rfl, hholding, hinput, hcoil, hdiscrete⟩, rfl⟩
    simp only [load_config_into_state, bind_eq_ok, load_section_ok, pure_eq_ok]
    exact ⟨_, ⟨_, hholding, rfl⟩, _, ⟨_, hinput, rfl⟩, _, ⟨_, hcoil, rfl⟩, _,
      ⟨_, hdiscrete, rfl⟩, rfl⟩

end

/-! ## The state that the server starts from -/

section

variable {int_auto : String → Except String Int} {load : String → Except PyError JsonValue}
  {args : ServeArgs}

theorem load_config_ok {dicts : SimDicts} : load_config int_auto load args = .ok dicts ↔
    ∃ assignments, Configured int_auto load args assignments ∧ filled assignments = dicts := by
  unfold load_config Configured
  cases args.config.filter fun path => path ≠ "" with
  | none =>
    simp only [pure_eq_ok, exists_eq_left]
    rfl
  | some path =>
    simp only
    cases load path with
    | error e => simp [throw_eq_ok]
    | ok data =>
      simp only [load_config_into_state_ok, Except.ok.injEq, exists_eq_left']

theorem build_sim_state_ok {dicts : SimDicts} : build_sim_state int_auto load args = .ok dicts ↔
    ∃ config inline, Configured int_auto load args config ∧ Inline int_auto args inline ∧
      dicts = {
        holding := update (filled config).holding (filled inline).holding
        input := update (filled config).input (filled inline).input
        coil := update (filled config).coil (filled inline).coil
        discrete := update (filled config).discrete (filled inline).discrete } := by
  unfold build_sim_state parse_int_map parse_bool_map
  simp only [bind_eq_ok, load_config_ok, parse_map_ok, pure_eq_ok]
  constructor
  · rintro ⟨_, ⟨config, hconfig, rfl⟩, _, ⟨hs, hholding, rfl⟩, _, ⟨is, hinput, rfl⟩, _,
      ⟨cs, hcoil, rfl⟩, _, ⟨ds, hdiscrete, rfl⟩, rfl⟩
    exact ⟨config, by_area hs is cs ds, hconfig, ⟨hholding, hinput, hcoil, hdiscrete⟩, rfl⟩
  · rintro ⟨config, inline, hconfig, hinline, rfl⟩
    exact ⟨_, ⟨config, hconfig, rfl⟩, _, ⟨_, hinline.holding, rfl⟩, _, ⟨_, hinline.input, rfl⟩, _,
      ⟨_, hinline.coil, rfl⟩, _, ⟨_, hinline.discrete, rfl⟩, rfl⟩

theorem lookup_filled (assignments : List (Int × Cell)) (x : Int) :
    (set_all ∅ assignments).lookup x = last_value assignments x := by
  rw [lookup_set_all, AList.lookup_empty, Option.or_none]

/-- The store has at each address what was assigned to it last; the arguments come behind the
config. -/
theorem store_of_updated (config inline : Area → List (Int × Cell)) (area : Area) (x : Int) :
    (SimDicts.state {
      holding := update (filled config).holding (filled inline).holding
      input := update (filled config).input (filled inline).input
      coil := update (filled config).coil (filled inline).coil
      discrete := update (filled config).discrete (filled inline).discrete }).store area x =
      last_value (config area ++ inline area) x := by
  have hupdate : ∀ area, (update (set_all ∅ (config area)) (set_all ∅ (inline area))).lookup x =
      last_value (config area ++ inline area) x := fun area => by
    rw [lookup_update, lookup_filled, lookup_filled, last_value_append]
  cases area with
  | COIL => exact hupdate .COIL
  | DISCRETE_INPUT => exact hupdate .DISCRETE_INPUT
  | HOLDING_REGISTER => exact hupdate .HOLDING_REGISTER
  | INPUT_REGISTER => exact hupdate .INPUT_REGISTER

/-- The state of the server is built exactly when the config and the arguments list assignments,
and each address then has the value that was assigned to it last. -/
theorem the_store_starts_from_its_assignments (int_auto : String → Except String Int)
    (load : String → Except PyError JsonValue) (args : ServeArgs) :
    (∀ dicts, build_sim_state int_auto load args = .ok dicts →
      ∃ config inline, Configured int_auto load args config ∧ Inline int_auto args inline ∧
        ∀ area x, dicts.state.store area x = last_value (config area ++ inline area) x) ∧
    (∀ config inline, Configured int_auto load args config → Inline int_auto args inline →
      ∃ dicts, build_sim_state int_auto load args = .ok dicts ∧
        ∀ area x, dicts.state.store area x = last_value (config area ++ inline area) x) := by
  constructor
  · intro dicts h
    obtain ⟨config, inline, hconfig, hinline, rfl⟩ := build_sim_state_ok.mp h
    exact ⟨config, inline, hconfig, hinline, store_of_updated config inline⟩
  · intro config inline hconfig hinline
    exact ⟨_, build_sim_state_ok.mpr ⟨config, inline, hconfig, hinline, rfl⟩,
      store_of_updated config inline⟩

end

/-- `int(s, 0)` of a digit. -/
def digit_literal (s : String) : Except String Int :=
  match s.toList with
  | [c] =>
    if c.isDigit then .ok (c.toNat - '0'.toNat)
    else .error s!"invalid literal for int() with base 0: {cli.repr s}"
  | _ => .error s!"invalid literal for int() with base 0: {cli.repr s}"

def no_file (path : String) : Except PyError JsonValue :=
  .error (.Exception "FileNotFoundError" path)

/-- `pymod serve --holding "0=1, 1=2,,0=5" --coil 3=On` -/
def two_registers_one_coil : ServeArgs := { holding := "0=1, 1=2,,0=5", coil := "3=On" }

theorem two_registers_one_coil_inline : Inline digit_literal two_registers_one_coil
    (by_area [(0, .int 1), (1, .int 2), (0, .int 5)] [] [(3, .bool true)] []) where
  holding := ⟨["0=1", "1=2", "0=5"], lists_iff.mpr (by decide),
    .cons ⟨"0", "1", by decide, by decide, by decide, by decide⟩
      (.cons ⟨"1", "2", by decide, by decide, by decide, by decide⟩
        (.cons ⟨"0", "5", by decide, by decide, by decide, by decide⟩ .nil))⟩
  input := ⟨[], lists_iff.mpr (by decide), .nil⟩
  coil := ⟨["3=On"], lists_iff.mpr (by decide),
    .cons ⟨"3", "On", by decide, by decide, by decide, by decide⟩ .nil⟩
  discrete := ⟨[], lists_iff.mpr (by decide), .nil⟩

/-- Register 0 has the second of its two values. -/
theorem the_second_value_stands : ∃ dicts,
    build_sim_state digit_literal no_file two_registers_one_coil = .ok dicts ∧
      dicts.state.store .HOLDING_REGISTER 0 = some (.int 5) ∧
      dicts.state.store .HOLDING_REGISTER 1 = some (.int 2) ∧
      dicts.state.store .COIL 3 = some (.bool true) ∧ dicts.state.store .COIL 0 = none := by
  obtain ⟨dicts, hdicts, hstore⟩ :=
    (the_store_starts_from_its_assignments digit_literal no_file two_registers_one_coil).2
      (fun _ => []) _ rfl two_registers_one_coil_inline
  exact ⟨dicts, hdicts, hstore _ _, hstore _ _, hstore _ _, hstore _ _⟩

end pymod.serve
