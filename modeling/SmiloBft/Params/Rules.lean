import SmiloBft.Params.Config

/-!
# The forks active at a block

The fork predicates of `ChainConfig` (`IsHomestead` … `IsMaxCodeSizeChangeBlock`),
`Rules`, `GasTable` and `IsValid`. A fork once active stays active at every later
block, for every configuration, also one whose forks are scheduled out of order; so
`Rules` never turns a fork off as the chain grows (`rules_monotone`) and `GasTable`
never returns to an earlier table (`gasTable_monotone`).
-/

namespace SmiloBft.Params

set_option autoImplicit false

def ChainConfig.isHomestead (c : ChainConfig) (num : Int) : Bool := isForked c.homesteadBlock num

def ChainConfig.isEIP150 (c : ChainConfig) (num : Int) : Bool := isForked c.eip150Block num

def ChainConfig.isByzantium (c : ChainConfig) (num : Int) : Bool := isForked c.byzantiumBlock num

def ChainConfig.isConstantinople (c : ChainConfig) (num : Int) : Bool := isForked c.constantinopleBlock num

/-- `IsPetersburg`: at or after the Petersburg block, or, with none set, Constantinople. -/
def ChainConfig.isPetersburg (c : ChainConfig) (num : Int) : Bool :=
  isForked c.petersburgBlock num || c.petersburgBlock.isNone && isForked c.constantinopleBlock num

def ChainConfig.isIstanbul (c : ChainConfig) (num : Int) : Bool := isForked c.istanbulBlock num

def ChainConfig.isEWASM (c : ChainConfig) (num : Int) : Bool := isForked c.ewasmBlock num

def ChainConfig.isQIP714 (c : ChainConfig) (num : Int) : Bool := isForked c.qip714Block num

def ChainConfig.isMaxCodeSizeChangeBlock (c : ChainConfig) (num : Int) : Bool :=
  isForked c.maxCodeSizeChangeBlock num

structure Rules where
  chainID : Int
  isHomestead : Bool
  isEIP150 : Bool
  isEIP155 : Bool
  isEIP158 : Bool
  isByzantium : Bool
  isConstantinople : Bool
  isPetersburg : Bool
  isIstanbul : Bool
deriving DecidableEq

/-- `ChainConfig.Rules`, with a nil chain ID read as 0. -/
def ChainConfig.rules (c : ChainConfig) (num : Int) : Rules where
  chainID := c.chainID.getD 0
  isHomestead := c.isHomestead num
  isEIP150 := c.isEIP150 num
  isEIP155 := c.isEIP155 num
  isEIP158 := c.isEIP158 num
  isByzantium := c.isByzantium num
  isConstantinople := c.isConstantinople num
  isPetersburg := c.isPetersburg num
  isIstanbul := c.isIstanbul num

/-- The tables `GasTable` chooses from; their values are not in the repository's files. -/
inductive GasTable
  | homestead
  | eip150
  | eip158
  | constantinople
deriving DecidableEq

def GasTable.rank : GasTable → Nat
  | .homestead => 0
  | .eip150 => 1
  | .eip158 => 2
  | .constantinople => 3

def ChainConfig.gasTable (c : ChainConfig) (num : Option Int) : GasTable :=
  match num with
  | none => .homestead
  | some num =>
    if c.isConstantinople num then .constantinople
    else if c.isEIP158 num then .eip158
    else if c.isEIP150 num then .eip150
    else .homestead

/-- `IsValid`, on the one field it reads, `CustomTransactionSizeLimit`. -/
def isValid (customTransactionSizeLimit : UInt64) : Except String Unit :=
  if customTransactionSizeLimit < 32 ∨ customTransactionSizeLimit > 128 then
    .error "custom transaction size limit must be bigger than 32 and lower than 128"
  else .ok ()

theorem isForked_mono {s : Option Int} {m n : Int} (h : m ≤ n) (hm : isForked s m = true) :
    isForked s n = true := by
  cases s with
  | none => cases hm
  | some s =>
    simp only [isForked, decide_eq_true_eq] at hm ⊢
    omega

theorem isPetersburg_mono (c : ChainConfig) {m n : Int} (h : m ≤ n) (hm : c.isPetersburg m = true) :
    c.isPetersburg n = true := by
  simp only [ChainConfig.isPetersburg, Bool.or_eq_true, Bool.and_eq_true] at hm ⊢
  exact hm.imp (isForked_mono h) (And.imp_right (isForked_mono h))

/-- `r'` keeps the chain ID of `r` and every fork `r` has active. -/
structure Rules.Le (r r' : Rules) : Prop where
  chainID : r.chainID = r'.chainID
  isHomestead : r.isHomestead = true → r'.isHomestead = true
  isEIP150 : r.isEIP150 = true → r'.isEIP150 = true
  isEIP155 : r.isEIP155 = true → r'.isEIP155 = true
  isEIP158 : r.isEIP158 = true → r'.isEIP158 = true
  isByzantium : r.isByzantium = true → r'.isByzantium = true
  isConstantinople : r.isConstantinople = true → r'.isConstantinople = true
  isPetersburg : r.isPetersburg = true → r'.isPetersburg = true
  isIstanbul : r.isIstanbul = true → r'.isIstanbul = true

/-- For every configuration, the rules at a later block keep every fork active earlier. -/
theorem rules_monotone (c : ChainConfig) {m n : Int} (h : m ≤ n) : (c.rules m).Le (c.rules n) :=
  ⟨rfl, isForked_mono h, isForked_mono h, isForked_mono h, isForked_mono h, isForked_mono h,
    isForked_mono h, isPetersburg_mono c h, isForked_mono h⟩

theorem rules_monotone_homestead : (5 : Int) ≤ 6 ∧ (homesteadAt5.rules 5).Le (homesteadAt5.rules 6) :=
  ⟨by decide, rules_monotone homesteadAt5 (by decide)⟩

/-- For every configuration, the gas table never returns to an earlier fork's. -/
theorem gasTable_monotone (c : ChainConfig) {m n : Int} (h : m ≤ n) :
    (c.gasTable (some m)).rank ≤ (c.gasTable (some n)).rank := by
  have hc := isForked_mono (s := c.constantinopleBlock) h
  have h158 := isForked_mono (s := c.eip158Block) h
  have h150 := isForked_mono (s := c.eip150Block) h
  simp only [ChainConfig.gasTable, ChainConfig.isConstantinople, ChainConfig.isEIP158, ChainConfig.isEIP150]
  split_ifs <;> simp_all [GasTable.rank]

theorem gasTable_monotone_constantinople :
    (4 : Int) ≤ 5 ∧ (({ eip150Block := some 0, constantinopleBlock := some 5 } : ChainConfig).gasTable (some 4)).rank ≤
      (({ eip150Block := some 0, constantinopleBlock := some 5 } : ChainConfig).gasTable (some 5)).rank :=
  ⟨by decide, gasTable_monotone { eip150Block := some 0, constantinopleBlock := some 5 } (by decide)⟩

end SmiloBft.Params
