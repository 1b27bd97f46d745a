import QnxVirtio.Foundation.Numeral
import QnxVirtio.Foundation.Suboptions

/-!
# Command-line options

The values of the `--virtio` options are read with `strtoul` and narrowed twice: when they
are stored and when they are passed to `virtio_gpio_init`.  What arrives is compared with
what the texts say.
-/

namespace QnxVirtio

open Foundation

/-!
## options.c and main.c
-/

/-- `struct virtio_args`. -/
structure VirtioArgs where
  idx : UInt32
  mem : UInt64
  irq : UInt32
  qsize : UInt32
deriving DecidableEq

def VIRTIO_OPT_IDX : Int := 0
def VIRTIO_OPT_MEM : Int := 1
def VIRTIO_OPT_IRQ : Int := 2
def VIRTIO_OPT_QSIZE : Int := 3

/-- The array `token`. -/
def virtioToken : List (List Char) :=
  [['i', 'd', 'x'], ['m', 'e', 'm'], ['i', 'r', 'q'], ['q', 's', 'i', 'z', 'e']]

/-- One case of the switch; `none` is the return of -1. -/
def virtioCase (index : Int) (value : Option (List Char)) (args : VirtioArgs) :
    Option VirtioArgs :=
  if index = VIRTIO_OPT_IDX then
    value.map fun text => { args with idx := (strtoul text).toUInt32 }
  else if index = VIRTIO_OPT_MEM then
    value.map fun text => { args with mem := strtoull text }
  else if index = VIRTIO_OPT_IRQ then
    value.map fun text => { args with irq := (strtoul text).toUInt32 }
  else if index = VIRTIO_OPT_QSIZE then
    value.map fun text => { args with qsize := (strtoul text).toUInt32 }
  else
    none

/-- `parse_virtio_args`: the return code and the arguments as the loop leaves them. -/
def parseVirtioArgs (optarg : List Char) (args : VirtioArgs) : Int × VirtioArgs :=
  if _ : optarg = [] then
    (0, args)
  else
    let subopt := getsubopt optarg virtioToken
    match virtioCase subopt.index subopt.value args with
    | none => (-1, args)
    | some args => parseVirtioArgs subopt.rest args
termination_by optarg.length
decreasing_by exact restSubopts_length ‹_›

/-- What `getopt_long` returns: the option `v` with its argument, the option `h`, or the
`?` of any other option. -/
inductive GetoptLong where
  | virtio (optarg : List Char)
  | help
  | other
deriving DecidableEq

/-- `parse_options`, over the options that `getopt_long` finds one after the other. -/
def parseOptions : List GetoptLong -> VirtioArgs -> Int × VirtioArgs
  | [], args => (0, args)
  | .virtio optarg :: opts, args =>
      let result := parseVirtioArgs optarg args
      if result.1 ≠ 0 then (-1, result.2) else parseOptions opts result.2
  | .help :: _, args => (1, args)
  | .other :: _, args => (-1, args)

/-- The numbers that `virtio_gpio_init` takes. -/
structure GpioInitArgs where
  idx : UInt64
  mem : UInt64
  irq : UInt32
  qsize : UInt16
deriving DecidableEq

/-- The call of `virtio_gpio_init` converts the arguments to the parameter types. -/
def gpioInitArgs (args : VirtioArgs) : GpioInitArgs :=
  { idx := args.idx.toUInt64
    mem := args.mem
    irq := args.irq
    qsize := args.qsize.toUInt16 }

def zeroArgs : VirtioArgs :=
  { idx := 0, mem := 0, irq := 0, qsize := 0 }

/-- `main` up to its call of `virtio_gpio_init`, where it gets that far. -/
def mainInit (opts : List GetoptLong) : Option GpioInitArgs :=
  let result := parseOptions opts zeroArgs
  if result.1 ≠ 0 then none else some (gpioInitArgs result.2)

/-!
## What the texts say
-/

inductive VirtioOpt where
  | idx
  | mem
  | irq
  | qsize
deriving DecidableEq

def VirtioOpt.name : VirtioOpt -> List Char
  | .idx => ['i', 'd', 'x']
  | .mem => ['m', 'e', 'm']
  | .irq => ['i', 'r', 'q']
  | .qsize => ['q', 's', 'i', 'z', 'e']

/-- The bits of the type in which the value is used. -/
def VirtioOpt.bits : VirtioOpt -> Nat
  | .idx => 32
  | .mem => 64
  | .irq => 32
  | .qsize => 16

/-- The number that `virtio_gpio_init` is passed for an option. -/
def GpioInitArgs.value (init : GpioInitArgs) : VirtioOpt -> Nat
  | .idx => init.idx.toNat
  | .mem => init.mem.toNat
  | .irq => init.irq.toNat
  | .qsize => init.qsize.toNat

/-- The command line with these `--virtio` options. -/
def virtioOptions (optargs : List (List Char)) : List GetoptLong :=
  optargs.map GetoptLong.virtio

/-- No option has the name of the suboption, or it has no value. -/
def Malformed (piece : List Char) : Prop :=
  forall opt : VirtioOpt, valueFor opt.name piece = none

/-- The suboption gives a number that fits an option. -/
def FitPiece (piece : List Char) : Prop :=
  exists (opt : VirtioOpt) (text : List Char) (v : Int),
    valueFor opt.name piece = some text ∧ numeral text = some v ∧
      0 <= v ∧ v < 2 ^ opt.bits

/-- Every suboption gives a number that fits its option. -/
def Fit (optargs : List (List Char)) : Prop :=
  forall piece, piece ∈ optargs.flatMap suboptions -> FitPiece piece

/-- The last text given for an option. -/
def lastText (opt : VirtioOpt) (pieces : List (List Char)) : Option (List Char) :=
  (pieces.filterMap (valueFor opt.name)).getLast?

/-- The last number given for an option, or 0. -/
def lastGiven (opt : VirtioOpt) (optargs : List (List Char)) : Option Int :=
  match lastText opt (optargs.flatMap suboptions) with
  | none => some 0
  | some text => numeral text

/-- The values arrive unchanged or the command line is rejected. -/
structure Arrives (optargs : List (List Char)) : Prop where
  numerals : (parseOptions (virtioOptions optargs) zeroArgs).1 = 0 -> Fit optargs
  unchanged : (parseOptions (virtioOptions optargs) zeroArgs).1 = 0 ->
    exists init, mainInit (virtioOptions optargs) = some init ∧
      forall opt : VirtioOpt, lastGiven opt optargs = some (init.value opt : Int)
  accepted : Fit optargs -> (parseOptions (virtioOptions optargs) zeroArgs).1 = 0
  rejected : ¬ Fit optargs -> (parseOptions (virtioOptions optargs) zeroArgs).1 = -1 ∧
    mainInit (virtioOptions optargs) = none

/-!
## One suboption
-/

def VirtioOpt.store (opt : VirtioOpt) (text : List Char) (args : VirtioArgs) :
    VirtioArgs :=
  match opt with
  | .idx => { args with idx := (strtoul text).toUInt32 }
  | .mem => { args with mem := strtoull text }
  | .irq => { args with irq := (strtoul text).toUInt32 }
  | .qsize => { args with qsize := (strtoul text).toUInt32 }

/-- The case of the switch for a suboption. -/
def storePiece (piece : List Char) (args : VirtioArgs) : Option VirtioArgs :=
  virtioCase (tokenIndex virtioToken (suboptName piece)) (suboptValue piece) args

theorem VirtioOpt.eq_not_mem_name (opt : VirtioOpt) : '=' ∉ opt.name := by
  cases opt with
  | idx => decide
  | mem => decide
  | irq => decide
  | qsize => decide

theorem VirtioOpt.name_injective {opt other : VirtioOpt} (h : opt.name = other.name) :
    opt = other := by
  revert h
  cases opt <;> cases other <;> decide

theorem VirtioOpt.name_mem {name : List Char} (h : name ∈ virtioToken) :
    exists opt : VirtioOpt, opt.name = name := by
  simp only [virtioToken, List.mem_cons, List.not_mem_nil, or_false] at h
  rcases h with rfl | rfl | rfl | rfl
  · exact ⟨.idx, rfl⟩
  · exact ⟨.mem, rfl⟩
  · exact ⟨.irq, rfl⟩
  · exact ⟨.qsize, rfl⟩

theorem virtioCase_name (opt : VirtioOpt) (value : Option (List Char))
    (args : VirtioArgs) :
    virtioCase (tokenIndex virtioToken opt.name) value args =
      value.map fun text => opt.store text args := by
  cases opt with
  | idx => rfl
  | mem => rfl
  | irq => rfl
  | qsize => rfl

theorem virtioCase_unknown {name : List Char}
    (h : forall opt : VirtioOpt, opt.name ≠ name) (value : Option (List Char))
    (args : VirtioArgs) : virtioCase (tokenIndex virtioToken name) value args = none := by
  have hnone : virtioToken.idxOf? name = none := by
    rw [List.idxOf?_eq_none_iff]
    intro hmem
    rcases VirtioOpt.name_mem hmem with ⟨opt, hopt⟩
    exact h opt hopt
  simp [tokenIndex, hnone, virtioCase, VIRTIO_OPT_IDX, VIRTIO_OPT_MEM, VIRTIO_OPT_IRQ,
    VIRTIO_OPT_QSIZE]

theorem suboptName_of_valueFor {opt : VirtioOpt} {piece text : List Char}
    (h : valueFor opt.name piece = some text) :
    suboptName piece = opt.name ∧ suboptValue piece = some text := by
  rw [valueFor_eq_some_iff] at h
  subst h
  exact ⟨suboptName_append opt.eq_not_mem_name text,
    suboptValue_append opt.eq_not_mem_name text⟩

theorem storePiece_cases (piece : List Char) :
    (Malformed piece ∧ forall args, storePiece piece args = none) ∨
      exists (opt : VirtioOpt) (text : List Char), valueFor opt.name piece = some text ∧
        forall args, storePiece piece args = some (opt.store text args) := by
  unfold storePiece
  by_cases hname : exists opt : VirtioOpt, opt.name = suboptName piece
  · rcases hname with ⟨opt, hopt⟩
    rw [← hopt]
    cases hvalue : suboptValue piece with
    | none =>
        left
        constructor
        · intro other
          cases hother : valueFor other.name piece with
          | none => rfl
          | some text =>
              have := (suboptName_of_valueFor hother).2
              rw [hvalue] at this
              cases this
        · intro args
          rw [virtioCase_name, Option.map_none]
    | some text =>
        right
        refine ⟨opt, text, ?_, ?_⟩
        · rw [valueFor_eq_some_iff, hopt]
          exact eq_append_of_suboptValue hvalue
        · intro args
          rw [virtioCase_name, Option.map_some]
  · left
    have hunknown : forall opt : VirtioOpt, opt.name ≠ suboptName piece := by
      intro opt hopt
      exact hname ⟨opt, hopt⟩
    constructor
    · intro opt
      cases hopt : valueFor opt.name piece with
      | none => rfl
      | some text => exact absurd (suboptName_of_valueFor hopt).1.symm (hunknown opt)
    · intro args
      exact virtioCase_unknown hunknown _ args

theorem value_store (opt other : VirtioOpt) (text : List Char) (args : VirtioArgs) :
    (gpioInitArgs (opt.store text args)).value other =
      if other = opt then
        (strtoul text).toNat % 2 ^ opt.bits
      else
        (gpioInitArgs args).value other := by
  cases opt <;> cases other <;>
    simp [gpioInitArgs, VirtioOpt.store, GpioInitArgs.value, VirtioOpt.bits, strtoull]

/-!
## All suboptions
-/

/-- The loop over the suboptions. -/
def storePieces : List (List Char) -> VirtioArgs -> Int × VirtioArgs
  | [], args => (0, args)
  | piece :: pieces, args =>
      match storePiece piece args with
      | none => (-1, args)
      | some args => storePieces pieces args

theorem parseVirtioArgs_eq (optarg : List Char) (args : VirtioArgs) :
    parseVirtioArgs optarg args = storePieces (suboptions optarg) args := by
  induction optarg, args using parseVirtioArgs.induct with
  | case1 args =>
      rw [parseVirtioArgs, dif_pos rfl, suboptions_nil]
      rfl
  | case2 optarg args hne subopt hcase =>
      have hpiece : storePiece (firstSubopt optarg) args = none := hcase
      rw [parseVirtioArgs, dif_neg hne, suboptions_cons hne, storePieces, hpiece]
      dsimp only
      rw [hcase]
  | case3 optarg args hne subopt stored hcase ih =>
      have hpiece : storePiece (firstSubopt optarg) args = some stored := hcase
      rw [parseVirtioArgs, dif_neg hne, suboptions_cons hne, storePieces, hpiece]
      dsimp only
      rw [hcase]
      exact ih

theorem storePieces_rc (pieces : List (List Char)) (args : VirtioArgs) :
    (storePieces pieces args).1 = 0 ∨ (storePieces pieces args).1 = -1 := by
  induction pieces generalizing args with
  | nil => exact Or.inl rfl
  | cons piece pieces ih =>
      unfold storePieces
      split
      · exact Or.inr rfl
      · exact ih _

theorem storePieces_append (before after : List (List Char)) (args : VirtioArgs) :
    storePieces (before ++ after) args =
      if (storePieces before args).1 = 0 then
        storePieces after (storePieces before args).2
      else
        storePieces before args := by
  induction before generalizing args with
  | nil => rfl
  | cons piece before ih =>
      rw [List.cons_append]
      cases h : storePiece piece args with
      | none => simp [storePieces, h]
      | some stored => simpa [storePieces, h] using ih stored

/-- Several `--virtio` options are read like one with all their suboptions. -/
theorem parseOptions_virtio (optargs : List (List Char)) (args : VirtioArgs) :
    parseOptions (virtioOptions optargs) args =
      storePieces (optargs.flatMap suboptions) args := by
  induction optargs generalizing args with
  | nil => rfl
  | cons optarg optargs ih =>
      rw [List.flatMap_cons, storePieces_append, virtioOptions, List.map_cons,
        parseOptions, parseVirtioArgs_eq]
      rcases storePieces_rc (suboptions optarg) args with hzero | herror
      · rw [if_neg (not_not_intro hzero), if_pos hzero]
        exact ih _
      · have hne : (storePieces (suboptions optarg) args).1 ≠ 0 := by
          rw [herror]
          decide
        rw [if_pos hne, if_neg hne]
        exact Prod.ext herror.symm rfl

theorem storePieces_malformed {pieces : List (List Char)} {piece : List Char}
    (hmem : piece ∈ pieces) (hbad : Malformed piece) (args : VirtioArgs) :
    (storePieces pieces args).1 = -1 := by
  induction pieces generalizing args with
  | nil => cases hmem
  | cons first pieces ih =>
      unfold storePieces
      split
      · rfl
      · rename_i stored hstored
        rcases List.mem_cons.mp hmem with rfl | hrest
        · rcases storePiece_cases piece with ⟨_, hnone⟩ | ⟨opt, text, htext, _⟩
          · rw [hnone] at hstored
            cases hstored
          · rw [hbad opt] at htext
            cases htext
        · exact ih hrest stored

theorem lastText_cons (opt : VirtioOpt) (piece : List Char) (pieces : List (List Char)) :
    lastText opt (piece :: pieces) =
      (lastText opt pieces).or (valueFor opt.name piece) := by
  unfold lastText
  cases h : valueFor opt.name piece with
  | none => simp [h]
  | some text => simp [h, List.getLast?_cons]

/-- What the parameter of an option has after the suboptions: its last text, converted
twice. -/
def passedFor (opt : VirtioOpt) (pieces : List (List Char)) (before : Nat) : Nat :=
  match lastText opt pieces with
  | none => before
  | some text => (strtoul text).toNat % 2 ^ opt.bits

theorem storePieces_wellFormed {pieces : List (List Char)}
    (h : forall piece, piece ∈ pieces -> ¬ Malformed piece) (args : VirtioArgs) :
    (storePieces pieces args).1 = 0 ∧
      forall opt : VirtioOpt, (gpioInitArgs (storePieces pieces args).2).value opt =
        passedFor opt pieces ((gpioInitArgs args).value opt) := by
  induction pieces generalizing args with
  | nil => exact ⟨rfl, fun opt => rfl⟩
  | cons piece pieces ih =>
      rcases storePiece_cases piece with ⟨hbad, _⟩ | ⟨opt, text, htext, hstore⟩
      · exact absurd hbad (h piece List.mem_cons_self)
      · have hrest := ih (fun other hother => h other (List.mem_cons_of_mem _ hother))
          (opt.store text args)
        rw [storePieces, hstore args]
        refine ⟨hrest.1, ?_⟩
        intro other
        rw [hrest.2 other, value_store]
        unfold passedFor
        rw [lastText_cons]
        cases lastText other pieces with
        | some last => rfl
        | none =>
            by_cases hother : other = opt
            · subst hother
              rw [if_pos rfl, htext]
              rfl
            · have hnone : valueFor other.name piece = none := by
                cases hvalue : valueFor other.name piece with
                | none => rfl
                | some value =>
                    have hname := (suboptName_of_valueFor hvalue).1
                    rw [(suboptName_of_valueFor htext).1] at hname
                    exact absurd (VirtioOpt.name_injective hname).symm hother
              rw [if_neg hother, hnone]
              rfl

/-!
## What arrives
-/

theorem Malformed.not_fit {piece : List Char} (h : Malformed piece) :
    ¬ FitPiece piece := by
  rintro ⟨opt, text, v, htext, _⟩
  rw [h opt] at htext
  cases htext

/-- The last text for an option of suboptions that fit is a numeral that fits it. -/
theorem Fit.lastText {optargs : List (List Char)} (h : Fit optargs) {opt : VirtioOpt}
    {text : List Char} (hlast : lastText opt (optargs.flatMap suboptions) = some text) :
    exists v : Int, numeral text = some v ∧ 0 <= v ∧ v < 2 ^ opt.bits := by
  have hmem := List.mem_of_getLast? hlast
  rw [List.mem_filterMap] at hmem
  rcases hmem with ⟨piece, hpiece, htext⟩
  rcases h piece hpiece with ⟨other, value, v, hvalue, hfit⟩
  have hname := (suboptName_of_valueFor hvalue).1
  rw [(suboptName_of_valueFor htext).1] at hname
  have hopt := VirtioOpt.name_injective hname
  subst hopt
  rw [htext] at hvalue
  cases hvalue
  exact ⟨v, hfit⟩

theorem strtoul_mod {opt : VirtioOpt} {text : List Char} {v : Int}
    (h : numeral text = some v) (hpos : 0 <= v) (hfit : v < 2 ^ opt.bits) :
    (((strtoul text).toNat % 2 ^ opt.bits : Nat) : Int) = v := by
  have hbits : (2 : Int) ^ opt.bits <= 2 ^ 64 := by
    cases opt <;> decide
  have hv : v < 2 ^ 64 := lt_of_lt_of_le hfit hbits
  have hnat : v.toNat < 2 ^ opt.bits := by
    rw [← Int.ofNat_lt, Int.toNat_of_nonneg hpos]
    exact_mod_cast hfit
  have hnat64 : v.toNat < 2 ^ 64 := by
    omega
  rw [strtoul_of_numeral h hpos hv, UInt64.toNat_ofNat', Nat.mod_eq_of_lt hnat64,
    Nat.mod_eq_of_lt hnat, Int.toNat_of_nonneg hpos]

theorem mainInit_of_error {opts : List GetoptLong}
    (h : (parseOptions opts zeroArgs).1 ≠ 0) : mainInit opts = none := by
  rw [mainInit, if_pos h]

/-- The values of a command line arrive unchanged, or it is rejected, if a suboption has
an unknown name or no value, or if all values are numerals that fit, and only then.  A
value that is no numeral, or too large, is accepted as another value. -/
theorem options_arrive_iff (optargs : List (List Char)) :
    Arrives optargs <->
      (exists piece, piece ∈ optargs.flatMap suboptions ∧ Malformed piece) ∨
        Fit optargs := by
  constructor
  · intro h
    by_cases hbad : exists piece, piece ∈ optargs.flatMap suboptions ∧ Malformed piece
    · exact Or.inl hbad
    · right
      apply h.numerals
      rw [parseOptions_virtio]
      apply (storePieces_wellFormed _ zeroArgs).1
      intro piece hpiece hmalformed
      exact hbad ⟨piece, hpiece, hmalformed⟩
  · rintro (⟨piece, hpiece, hbad⟩ | hfit)
    · have hrc : (parseOptions (virtioOptions optargs) zeroArgs).1 = -1 := by
        rw [parseOptions_virtio]
        exact storePieces_malformed hpiece hbad zeroArgs
      have hnot : ¬ Fit optargs := fun h => hbad.not_fit (h piece hpiece)
      refine ⟨?_, ?_, fun h => absurd h hnot, fun _ => ⟨hrc, ?_⟩⟩
      · intro hzero
        rw [hrc] at hzero
        cases hzero
      · intro hzero
        rw [hrc] at hzero
        cases hzero
      · apply mainInit_of_error
        rw [hrc]
        decide
    · have hgood := storePieces_wellFormed
        (fun piece hpiece hbad => hbad.not_fit (hfit piece hpiece)) zeroArgs
      rw [← parseOptions_virtio] at hgood
      refine ⟨fun _ => hfit, ?_, fun _ => hgood.1, fun h => absurd hfit h⟩
      intro _
      exists gpioInitArgs (parseOptions (virtioOptions optargs) zeroArgs).2
      constructor
      · rw [mainInit, if_neg (not_not_intro hgood.1)]
      · intro opt
        rw [hgood.2 opt, passedFor, lastGiven]
        cases hlast : lastText opt (optargs.flatMap suboptions) with
        | none => cases opt <;> rfl
        | some text =>
            rcases hfit.lastText hlast with ⟨v, hv, hpos, hlt⟩
            dsimp only
            rw [strtoul_mod hv hpos hlt, hv]

/-- `qsize=65537` is accepted, and the queue size that is passed is 1. -/
theorem oversized_qsize_arrives_as_one :
    mainInit (virtioOptions [['q', 's', 'i', 'z', 'e', '=', '6', '5', '5', '3', '7']]) =
        some { idx := 0, mem := 0, irq := 0, qsize := 1 } ∧
      ¬ Arrives [['q', 's', 'i', 'z', 'e', '=', '6', '5', '5', '3', '7']] := by
  constructor
  · rw [mainInit, parseOptions_virtio]
    decide
  · intro h
    have hfit := h.numerals (by rw [parseOptions_virtio]; decide)
    rcases hfit ['q', 's', 'i', 'z', 'e', '=', '6', '5', '5', '3', '7'] (by decide) with
      ⟨opt, text, v, htext, hv, _, hlt⟩
    have hname := (suboptName_of_valueFor htext).1
    have hopt : opt = .qsize := by
      revert hname
      cases opt <;> decide
    subst hopt
    have htext' : text = ['6', '5', '5', '3', '7'] := by
      have heq : some text = some ['6', '5', '5', '3', '7'] := htext.symm
      exact Option.some.inj heq
    subst htext'
    have hv' : v = 65537 := by
      have heq : some v = some 65537 := hv.symm
      exact Option.some.inj heq
    subst hv'
    exact absurd hlt (by decide)

end QnxVirtio
