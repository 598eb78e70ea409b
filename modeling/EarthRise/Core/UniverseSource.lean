import EarthRise.Core.ServerStatus
import EarthRise.Core.UniverseData

/-!
# The Text of a Universe

The parser that the tools cook a universe from. A text is split into tokens: braces, equals signs
and whatever is between them, blanks and comments. Blocks of assignments follow one another, and
the tokens after an equals sign are values up to a brace or to the next key, which is the token in
front of an equals sign.

What is wrong is reported with the line it is on, and the parser goes on with the next token. It
succeeds if nothing was wrong. The errors of a step are what it returns here, in the order in which
they are reported. A number with a fraction is read by `strtof`, which a type of numbers brings.

## Main definitions

* `lex`: The tokens of a text.
* `parseI64`: An integer that is a whole token.
* `apply`: An assignment, with the keys of each kind of block in `keys`.
* `readBlock`, `parseLoop`, `parseUniverseSource`: Blocks, and the whole text.
-/

namespace EarthRise

namespace Tools

open Cooked (Text UniverseDataset RegionDef BeaconDef ResourceFieldDef ResourceWeight)
open Shard (NavTuning EconomyTuning)
open Net (ascii decimal)
open JsonText (isDigit)

/-! ## Tokens -/

structure Token where
  text : Text
  line : Nat
  deriving DecidableEq

def newline : UInt8 := 0x0A

def isSpace (c : UInt8) : Bool := c == 0x20 || c == 0x09 || c == 0x0D

/-- The braces and the equals sign, which are tokens of their own. -/
def isMark (c : UInt8) : Bool := c == 0x7B || c == 0x7D || c == 0x3D

/-- A byte that a bare token goes on with. -/
def isBare (d : UInt8) : Bool := !(d == newline || isSpace d || d == 0x23 || isMark d)

def lexFrom (line : Nat) : Text → List Token
  | [] => []
  | c :: s =>
      if c = newline then lexFrom (line + 1) s
      else if isSpace c then lexFrom line s
      else if c = 0x23 then lexFrom line (s.dropWhile fun d => d != newline)
      else if isMark c then ⟨[c], line⟩ :: lexFrom line s
      else ⟨c :: s.takeWhile isBare, line⟩ :: lexFrom line (s.dropWhile isBare)
  termination_by s => s.length
  decreasing_by
    all_goals simp only [List.length_cons]
    all_goals first
      | exact Nat.lt_succ_self _
      | exact Nat.lt_succ_of_le (List.dropWhile_suffix _).length_le

def lex (s : Text) : List Token := lexFrom 1 s

def openBrace : Text := [0x7B]

def closeBrace : Text := [0x7D]

def equals : Text := [0x3D]

/-! ## Numbers -/

/-- The blanks that numbers may start with. -/
def isCSpace (c : UInt8) : Bool := c == 0x20 || (0x09 ≤ c && c ≤ 0x0D)

/-- The integer that a text is, up to its first zero byte; `none` if it is none. -/
def integer (t : Text) : Option Int :=
  let s := (t.takeWhile fun c => c != 0).dropWhile isCSpace
  let negative := s.head? == some 0x2D
  let digits := if negative ∨ s.head? = some 0x2B then s.tail else s
  if digits = [] ∨ digits.all isDigit = false then none
  else
    let v : Int := JsonText.Digits.valueFrom 0 digits
    some (if negative then -v else v)

/-- The closest integer that a `long long` can hold. -/
def strtoll (v : Int) : Int64 := Int64.ofInt (max (-2 ^ 63) (min v (2 ^ 63 - 1)))

def parseI64 (t : Text) : Option Int64 := (integer t).map strtoll

/-- Numbers that are read from text: the number that a whole text is. -/
class FloatText (F : Type) where
  strtof : Text → Option F

def parseFloat {F : Type} [FloatText F] (t : Text) : Option F := FloatText.strtof t

/-! ## Assignments -/

inductive Kind
  | region
  | beacon
  | field
  | tuning
  | economy
  deriving DecidableEq

def Kind.text : Kind → Text
  | .region => ascii "region"
  | .beacon => ascii "beacon"
  | .field => ascii "field"
  | .tuning => ascii "tuning"
  | .economy => ascii "economy"

def Kind.all : List Kind := [.region, .beacon, .field, .tuning, .economy]

def Kind.ofText (t : Text) : Option Kind := Kind.all.find? fun kind => t = kind.text

/-- The other kinds are of blocks that there is one of. -/
def Kind.named : Kind → Bool
  | .region | .beacon | .field => true
  | .tuning | .economy => false

/-- The block that is open, of whatever kind. -/
structure OpenBlock (F : Type) where
  region : RegionDef F
  beacon : BeaconDef
  field : ResourceFieldDef F
  tuning : NavTuning F
  economy : EconomyTuning F

/-- What is changed, and the messages. -/
abbrev Setting (σ : Type) := List Text → σ → σ × List Text

/-- A key with what an assignment to it does. -/
structure Key (F : Type) where
  name : String
  set : Setting (OpenBlock F)

def quoted (t : Text) : Text := ascii "'" ++ t ++ ascii "'"

def needN {σ : Type} (name : String) (n : Nat) (what : String) (set : Setting σ) : Setting σ :=
  fun v s =>
    if v.length ≠ n then
      (s, [quoted (ascii name) ++ ascii " expects " ++ decimal n ++ ascii " " ++ ascii what])
    else set v s

/-- An assignment of one word of a list, each with what it stands for. -/
def setWord {σ : Type} (name what : String) (words : List (String × UInt8))
    (store : UInt8 → σ → σ) : Setting σ :=
  needN name 1 "value" fun v s =>
    match words.find? fun w => v.head? = some (ascii w.1) with
    | some w => (store w.2 s, [])
    | none => (s, [ascii "unknown " ++ ascii what ++ ascii " " ++ quoted (v.headD [])])

def setName {σ : Type} (name : String) (store : Text → σ → σ) : Setting σ :=
  needN name 1 "name" fun v s => (store (v.headD []) s, [])

/-- An assignment of integers. Nothing is said about what is no integer if there is no message. -/
def setInts {σ : Type} (name : String) (n : Nat) (what : String) (bad : List Text)
    (store : List Int64 → σ → σ) : Setting σ :=
  needN name n what fun v s =>
    match v.mapM parseI64 with
    | some values => (store values s, [])
    | none => (s, bad)

def setF {σ F : Type} [FloatText F] (name what : String) (bad : Text) (store : F → σ → σ) :
    Setting σ :=
  needN name 1 what fun v s =>
    match parseFloat (v.headD []) with
    | some x => (store x s, [])
    | none => (s, [bad])

section

variable {F : Type} [FloatText F]

def securityWords : List (String × UInt8) := [("high", 0), ("low", 1), ("null", 2)]

def kindWords : List (String × UInt8) := [("public", 0), ("claimable", 1)]

def typeWords : List (String × UInt8) := [("Ore", 0), ("Ice", 1), ("Gas", 2)]

@[simp] def storeBounds : List Int64 → RegionDef F → RegionDef F
  | [x0, x1, y0, y1, z0, z1], r => { r with bounds := ⟨x0, x1, y0, y1, z0, z1⟩ }
  | _, r => r

def regionKeys : List (Key F) := [
  ⟨"security", setWord "security" "security tier" securityWords fun w o =>
    { o with region := { o.region with security := w } }⟩,
  ⟨"bounds", setInts "bounds" 6 "integers" [ascii "bounds has a non-integer value"] fun b o =>
    { o with region := storeBounds b o.region }⟩,
  ⟨"yield_mult", setF "yield_mult" "float" (ascii "yield_mult is not a number") fun x o =>
    { o with region := { o.region with yieldMult := x } }⟩]

@[simp] def storePos : List Int64 → BeaconDef → BeaconDef
  | [x, y, z], b => { b with pos := ⟨x, y, z⟩ }
  | _, b => b

def beaconKeys : List (Key F) := [
  ⟨"region", setName "region" fun t o => { o with beacon := { o.beacon with region := t } }⟩,
  ⟨"pos", setInts "pos" 3 "integers" [ascii "pos has a non-integer value"] fun p o =>
    { o with beacon := storePos p o.beacon }⟩,
  ⟨"links", fun v o => ({ o with beacon := { o.beacon with links := o.beacon.links ++ v } }, [])⟩,
  ⟨"kind", setWord "kind" "beacon kind" kindWords fun w o =>
    { o with beacon := { o.beacon with kind := w } }⟩]

/-- A resource with its weight, separated by a colon. -/
def parseNode (n : Text) : Except Text (ResourceWeight F) :=
  if n.contains 0x3A = false then
    .error (ascii "node " ++ quoted n ++ ascii " must be Type:weight")
  else
    let type := n.takeWhile fun c => c != 0x3A
    match typeWords.find? fun w => type = ascii w.1 with
    | none => .error (ascii "unknown resource type " ++ quoted type)
    | some w =>
        match parseFloat ((n.dropWhile fun c => c != 0x3A).tail) with
        | none => .error (ascii "node " ++ quoted n ++ ascii " has a bad weight")
        | some weight => .ok ⟨w.2, weight⟩

@[simp] def setNodes : Setting (ResourceFieldDef F)
  | [], f => (f, [])
  | n :: v, f =>
      match parseNode n with
      | .error e =>
          let r := setNodes v f
          (r.1, e :: r.2)
      | .ok w => setNodes v { f with nodes := f.nodes ++ [w] }

@[simp] def storeCenter : List Int64 → ResourceFieldDef F → ResourceFieldDef F
  | [x, y, z], f => { f with center := ⟨x, y, z⟩ }
  | _, f => f

@[simp] def storeCount : List Int64 → ResourceFieldDef F → ResourceFieldDef F
  | [c₀, c₁], f => { f with countMin := c₀.toUInt64.toUInt16, countMax := c₁.toUInt64.toUInt16 }
  | _, f => f

@[simp] def storeYield : List Int64 → ResourceFieldDef F → ResourceFieldDef F
  | [y₀, y₁], f => { f with yieldMin := y₀.toInt32, yieldMax := y₁.toInt32 }
  | _, f => f

@[simp] def storeRespawn : List Int64 → ResourceFieldDef F → ResourceFieldDef F
  | [r], f => { f with respawnSeconds := r.toUInt64.toUInt32 }
  | _, f => f

def fieldKeys : List (Key F) := [
  ⟨"region", setName "region" fun t o => { o with field := { o.field with region := t } }⟩,
  ⟨"center", setInts "center" 3 "integers" [ascii "center has a non-integer value"] fun c o =>
    { o with field := storeCenter c o.field }⟩,
  ⟨"radius", setF "radius" "float" (ascii "radius is not a number") fun x o =>
    { o with field := { o.field with radius := x } }⟩,
  ⟨"nodes", fun v o =>
    let r := setNodes v o.field
    ({ o with field := r.1 }, r.2)⟩,
  ⟨"count", setInts "count" 2 "integers" [ascii "count has a non-integer value"] fun c o =>
    { o with field := storeCount c o.field }⟩,
  ⟨"yield", setInts "yield" 2 "integers" [ascii "yield has a non-integer value"] fun y o =>
    { o with field := storeYield y o.field }⟩,
  ⟨"respawn", setInts "respawn" 1 "integer" [ascii "respawn is not an integer"] fun r o =>
    { o with field := storeRespawn r o.field }⟩]

def notANumber (name : String) : Text := quoted (ascii name) ++ ascii " is not a number"

def tuningKey (name : String) (store : F → NavTuning F → NavTuning F) : Key F :=
  ⟨name, setF name "float" (notANumber name) fun x o => { o with tuning := store x o.tuning }⟩

def tuningKeys : List (Key F) := [
  tuningKey "warp_speed_ship" fun x t => { t with warpSpeedShip := x },
  tuningKey "warp_speed_base" fun x t => { t with warpSpeedBase := x },
  tuningKey "warp_align" fun x t => { t with warpAlignSeconds := x },
  tuningKey "jump_fuel_ship" fun x t => { t with jumpFuelShip := x },
  tuningKey "jump_fuel_base" fun x t => { t with jumpFuelBase := x },
  tuningKey "jump_spool_ship" fun x t => { t with jumpSpoolShip := x },
  tuningKey "jump_spool_base" fun x t => { t with jumpSpoolBase := x },
  tuningKey "jump_cooldown" fun x t => { t with jumpCooldownSeconds := x },
  tuningKey "beacon_range" fun x t => { t with beaconUseRange := x },
  tuningKey "ship_fuel_max" fun x t => { t with shipFuelMax := x },
  tuningKey "base_fuel_max" fun x t => { t with baseFuelMax := x }]

def economyKey (name : String) (store : F → EconomyTuning F → EconomyTuning F) : Key F :=
  ⟨name, setF name "value" (notANumber name) fun x o => { o with economy := store x o.economy }⟩

@[simp] def storeFleetCap : List Int64 → EconomyTuning F → EconomyTuning F
  | [n], e => { e with fleetCap := n.toUInt64.toUInt16 }
  | _, e => e

@[simp] def storeBuildShipType : List Int64 → EconomyTuning F → EconomyTuning F
  | [n], e => { e with buildShipType := n.toUInt64.toUInt8 }
  | _, e => e

def economyKeys : List (Key F) := [
  -- A count that is no integer is passed over without a message.
  ⟨"fleet_cap", setInts "fleet_cap" 1 "integer" [] fun n o =>
    { o with economy := storeFleetCap n o.economy }⟩,
  economyKey "cargo_capacity" fun x e => { e with cargoCapacity := x },
  economyKey "storage_capacity" fun x e => { e with storageCapacity := x },
  economyKey "harvest_rate" fun x e => { e with harvestRate := x },
  economyKey "sensor_range_ship" fun x e => { e with sensorRangeShip := x },
  economyKey "sensor_range_base" fun x e => { e with sensorRangeBase := x },
  economyKey "build_ore" fun x e => { e with buildOreCost := x },
  economyKey "build_ice" fun x e => { e with buildIceCost := x },
  economyKey "build_seconds" fun x e => { e with buildSeconds := x },
  ⟨"build_ship_type", setInts "build_ship_type" 1 "integer" [] fun n o =>
    { o with economy := storeBuildShipType n o.economy }⟩,
  economyKey "harvester_speed" fun x e => { e with harvesterSpeed := x },
  economyKey "harvest_range" fun x e => { e with harvestRange := x }]

def keys : Kind → List (Key F)
  | .region => regionKeys
  | .beacon => beaconKeys
  | .field => fieldKeys
  | .tuning => tuningKeys
  | .economy => economyKeys

/-- What an assignment does, and its messages. -/
def applyKey (kind : Kind) (key : Text) (v : List Text) (o : OpenBlock F) :
    OpenBlock F × List Text :=
  match (keys kind).find? fun k => key = ascii k.name with
  | some k => k.set v o
  | none => (o, [ascii "unknown " ++ kind.text ++ ascii " key " ++ quoted key])

def err (line : Nat) (m : Text) : Text := ascii "line " ++ decimal line ++ ascii ": " ++ m

def apply (kind : Kind) (key : Text) (line : Nat) (v : List Text) (o : OpenBlock F) :
    OpenBlock F × List Text :=
  let r := applyKey kind key v o
  (r.1, r.2.map (err line))

/-! ## Blocks -/

/-- The values up to a closing brace or to a token in front of an equals sign. -/
def readValues : List Token → List Text × List Token
  | [] => ([], [])
  | t :: rest =>
      if t.text = closeBrace then ([], t :: rest)
      else if rest.head?.map Token.text = some equals then ([], t :: rest)
      else
        let r := readValues rest
        (t.text :: r.1, r.2)

theorem readValues_length (toks : List Token) : (readValues toks).2.length ≤ toks.length := by
  induction toks with
  | nil => exact le_rfl
  | cons t rest ih =>
      unfold readValues
      split_ifs
      · exact le_rfl
      · exact le_rfl
      · exact Nat.le_succ_of_le ih

/-- Whether a block was closed, what is behind it, what it says and what is wrong with it. -/
structure BlockResult (F : Type) where
  closed : Bool
  rest : List Token
  block : OpenBlock F
  errors : List Text

def BlockResult.report (e : List Text) (r : BlockResult F) : BlockResult F :=
  { r with errors := e ++ r.errors }

def readBlock (kind : Kind) : List Token → OpenBlock F → BlockResult F
  | [], o => ⟨false, [], o, []⟩
  | t :: rest, o =>
      if t.text = closeBrace then ⟨true, rest, o, []⟩
      else if t.text = openBrace ∨ t.text = equals then
        (readBlock kind rest o).report [err t.line (ascii "expected a key or '\x7d'")]
      else if rest.head?.map Token.text = some equals then
        let v := readValues rest.tail
        let r := apply kind t.text t.line v.1 o
        (readBlock kind v.2 r.1).report r.2
      else
        (readBlock kind rest o).report
          [err t.line (ascii "expected '=' after key " ++ quoted t.text)]
  termination_by toks => toks.length
  decreasing_by
    · exact Nat.lt_succ_self _
    · exact Nat.lt_succ_of_le ((readValues_length rest.tail).trans (List.tail_suffix rest).length_le)
    · exact Nat.lt_succ_self _

theorem readBlock_length (kind : Kind) (toks : List Token) (o : OpenBlock F) :
    (readBlock kind toks o).rest.length ≤ toks.length := by
  induction toks, o using @readBlock.induct F _ kind with
  | case1 o => simp only [readBlock, le_refl]
  | case2 t rest o hclose =>
      rw [readBlock, if_pos hclose]
      exact Nat.le_succ _
  | case3 t rest o hclose hmark ih =>
      rw [readBlock, if_neg hclose, if_pos hmark]
      exact Nat.le_succ_of_le ih
  | case4 t rest o hclose hmark heq v r ih =>
      rw [readBlock, if_neg hclose, if_neg hmark, if_pos heq]
      have hvalues := (readValues_length rest.tail).trans (List.tail_suffix rest).length_le
      refine Nat.le_succ_of_le ?_
      exact ih.trans hvalues
  | case5 t rest o hclose hmark heq ih =>
      rw [readBlock, if_neg hclose, if_neg hmark, if_neg heq]
      exact Nat.le_succ_of_le ih

end

/-- The kind of a block and its name, if there is one, as they are in a message. -/
def blockName (kind : Kind) (name : Text) : Text :=
  kind.text ++ if name = [] then [] else ascii " " ++ name

/-- What is wrong and where the parser goes on, or a block up to its brace. -/
abbrev Header := Except (Text × List Token) (Kind × Text × List Token)

def readBrace (line : Nat) (kind : Kind) (name : Text) (rest : List Token) : Header :=
  match rest with
  | brace :: rest' =>
      if brace.text = openBrace then .ok (kind, name, rest')
      else .error (err line (ascii "expected '\x7b' after " ++ blockName kind name), rest)
  | [] => .error (err line (ascii "expected '\x7b' after " ++ blockName kind name), rest)

/-- A name and a brace. -/
def readName (line : Nat) (kind : Kind) (rest : List Token) : Header :=
  match rest with
  | nameTok :: rest' =>
      if nameTok.text = openBrace ∨ nameTok.text = closeBrace ∨ nameTok.text = equals then
        .error (err line (kind.text ++ ascii " is missing a name"), rest)
      else readBrace line kind nameTok.text rest'
  | [] => .error (err line (kind.text ++ ascii " is missing a name"), rest)

/-- The start of a block, behind the token of its kind. -/
def readHeader (t : Token) (rest : List Token) : Header :=
  match Kind.ofText t.text with
  | none =>
      .error (err t.line (ascii "expected 'region|beacon|field|tuning|economy', got " ++
        quoted t.text), rest)
  | some kind => if kind.named then readName t.line kind rest else readBrace t.line kind [] rest

/-- What is left of the tokens. -/
def Header.rest : Header → List Token
  | .error e => e.2
  | .ok r => r.2.2

theorem readBrace_length (line : Nat) (kind : Kind) (name : Text) (rest : List Token) :
    (readBrace line kind name rest).rest.length ≤ rest.length := by
  unfold readBrace
  split
  · split
    · exact Nat.le_succ _
    · exact le_rfl
  · exact le_rfl

theorem readHeader_length (t : Token) (rest : List Token) :
    (readHeader t rest).rest.length ≤ rest.length := by
  unfold readHeader
  split
  · exact le_rfl
  · split
    · unfold readName
      split
      · split
        · exact le_rfl
        · exact Nat.le_succ_of_le (readBrace_length _ _ _ _)
      · exact le_rfl
    · exact readBrace_length _ _ _ _

section

variable {F : Type} [Floating F]

def RegionDef.default (name : Text) : RegionDef F := ⟨name, 0, ⟨0, 0, 0, 0, 0, 0⟩, 1⟩

def BeaconDef.default (name : Text) : BeaconDef := ⟨name, [], ⟨0, 0, 0⟩, [], 0⟩

def ResourceFieldDef.default (name : Text) : ResourceFieldDef F :=
  ⟨name, [], ⟨0, 0, 0⟩, 0, [], 0, 0, 0, 0, 0⟩

/-- The block at its brace. -/
def OpenBlock.start (kind : Kind) (name : Text) : OpenBlock F where
  region := RegionDef.default (if kind = .region then name else [])
  beacon := BeaconDef.default (if kind = .beacon then name else [])
  field := ResourceFieldDef.default (if kind = .field then name else [])
  tuning := NavTuning.default
  economy := EconomyTuning.default

/-- A block that was closed is part of the dataset. There is one of the last two kinds, and the
last one wins. -/
def commit (kind : Kind) (o : OpenBlock F) (out : UniverseDataset F) : UniverseDataset F :=
  match kind with
  | .region => { out with regions := out.regions ++ [o.region] }
  | .beacon => { out with beacons := out.beacons ++ [o.beacon] }
  | .field => { out with fields := out.fields ++ [o.field] }
  | .tuning => { out with nav := o.tuning }
  | .economy => { out with economy := o.economy }

variable [FloatText F]

/-- The dataset, and what is wrong with the text. -/
def parseLoop : List Token → UniverseDataset F → UniverseDataset F × List Text
  | [], out => (out, [])
  | t :: rest, out =>
      match _h : readHeader t rest with
      | .error (e, rest') =>
          let r := parseLoop rest' out
          (r.1, e :: r.2)
      | .ok (kind, name, rest') =>
          let b := readBlock kind rest' (OpenBlock.start kind name)
          if b.closed then
            let r := parseLoop b.rest (commit kind b.block out)
            (r.1, b.errors ++ r.2)
          else
            let r := parseLoop b.rest out
            (r.1, b.errors ++
              err t.line (blockName kind name ++ ascii " is missing a closing '\x7d'") :: r.2)
  termination_by toks => toks.length
  decreasing_by
    all_goals
      have hheader := readHeader_length t rest
      rw [_h] at hheader
    · exact Nat.lt_succ_of_le hheader
    · exact Nat.lt_succ_of_le ((readBlock_length kind rest' _).trans hheader)
    · exact Nat.lt_succ_of_le ((readBlock_length kind rest' _).trans hheader)

/-- Whether nothing was wrong, the dataset, and the errors behind those there were. -/
def parseUniverseSource (text : Text) (out : UniverseDataset F) (errors : List Text) :
    Bool × UniverseDataset F × List Text :=
  let r := parseLoop (lex text) out
  ((errors ++ r.2).length == errors.length, r.1, errors ++ r.2)

end

end Tools

end EarthRise
