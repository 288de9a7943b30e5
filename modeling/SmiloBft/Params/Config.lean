import SmiloBft.Types

/-! `CheckCompatible` of the params package: whether a stored chain configuration
and a new one agree on every fork the chain has passed, and the block to rewind to
when they do not. A `*big.Int` field is an `Option Int`, `nil` being `none`; the
head passed to `checkCompatible` is never `nil`.

Every fork-block check rewinds below the head (`checkCompatible_rewindsBelow`),
which makes the loop of `CheckCompatible` stop within `height + 2` iterations
(`CheckCompatible_terminates`). The chain-ID check of EIP155 passes the chain IDs
where the others pass fork blocks, so its rewind target is the smaller chain ID
whatever the head; with another conflict below that target the loop never leaves
(`CheckCompatible_never_leaves`). -/

namespace SmiloBft.Params

set_option autoImplicit false

structure IstanbulConfig where
  ceil2Nby3Block : Option Int := none
deriving DecidableEq

structure ChainConfig where
  chainID : Option Int := none
  homesteadBlock : Option Int := none
  daoForkBlock : Option Int := none
  daoForkSupport : Bool := false
  eip150Block : Option Int := none
  eip155Block : Option Int := none
  eip158Block : Option Int := none
  byzantiumBlock : Option Int := none
  constantinopleBlock : Option Int := none
  petersburgBlock : Option Int := none
  istanbulBlock : Option Int := none
  ewasmBlock : Option Int := none
  istanbul : Option IstanbulConfig := none
  qip714Block : Option Int := none
  maxCodeSizeChangeBlock : Option Int := none
deriving DecidableEq

def isForked (s : Option Int) (head : Int) : Bool :=
  match s with
  | some s => s ≤ head
  | none => false

def configNumEqual : Option Int → Option Int → Bool
  | none, y => y.isNone
  | some _, none => false
  | some x, some y => x = y

def isForkIncompatible (s1 s2 : Option Int) (head : Int) : Bool :=
  (isForked s1 head || isForked s2 head) && !configNumEqual s1 s2

def ChainConfig.isDAOFork (c : ChainConfig) (num : Int) : Bool := isForked c.daoForkBlock num

def ChainConfig.isEIP155 (c : ChainConfig) (num : Int) : Bool := isForked c.eip155Block num

def ChainConfig.isEIP158 (c : ChainConfig) (num : Int) : Bool := isForked c.eip158Block num

structure ConfigCompatError where
  what : String
  storedConfig : Option Int
  newConfig : Option Int
  rewindTo : UInt64
deriving DecidableEq

/-- `big.Int.Uint64`: the low 64 bits of the absolute value. -/
def bigUint64 (x : Int) : UInt64 := UInt64.ofNat x.natAbs

/-- `rew` of `newCompatError`: the earlier of the two blocks, or the one that is set. -/
def rewindBlock : Option Int → Option Int → Option Int
  | none, newblock => newblock
  | some s, none => some s
  | some s, some n => if s < n then some s else some n

def newCompatError (what : String) (storedblock newblock : Option Int) : ConfigCompatError :=
  { what, storedConfig := storedblock, newConfig := newblock,
    rewindTo := match rewindBlock storedblock newblock with
      | some rew => if 0 < rew then bigUint64 rew - 1 else 0
      | none => 0 }

def forkCheck (what : String) (s1 s2 : Option Int) (head : Int) : Option ConfigCompatError :=
  if isForkIncompatible s1 s2 head then some (newCompatError what s1 s2) else none

/-- `checkCompatible`: the first of its checks, in the source's order, that fails. -/
def ChainConfig.checkCompatible (c newcfg : ChainConfig) (head : Int) (isSmiloEIP155Activated : Bool) :
    Option ConfigCompatError :=
  [forkCheck "Homestead fork block" c.homesteadBlock newcfg.homesteadBlock head,
   forkCheck "DAO fork block" c.daoForkBlock newcfg.daoForkBlock head,
   (if c.isDAOFork head && c.daoForkSupport != newcfg.daoForkSupport then
      some (newCompatError "DAO fork support flag" c.daoForkBlock newcfg.daoForkBlock) else none),
   forkCheck "EIP150 fork block" c.eip150Block newcfg.eip150Block head,
   (if isSmiloEIP155Activated && c.chainID.isSome then
      forkCheck "EIP155 fork block" c.eip155Block newcfg.eip155Block head else none),
   (if isSmiloEIP155Activated && c.chainID.isSome && c.isEIP155 head &&
        !configNumEqual c.chainID newcfg.chainID then
      some (newCompatError "EIP155 chain ID" c.chainID newcfg.chainID) else none),
   forkCheck "EIP158 fork block" c.eip158Block newcfg.eip158Block head,
   (if c.isEIP158 head && !configNumEqual c.chainID newcfg.chainID then
      some (newCompatError "EIP158 chain ID" c.eip158Block newcfg.eip158Block) else none),
   forkCheck "Byzantium fork block" c.byzantiumBlock newcfg.byzantiumBlock head,
   forkCheck "Constantinople fork block" c.constantinopleBlock newcfg.constantinopleBlock head,
   forkCheck "Petersburg fork block" c.petersburgBlock newcfg.petersburgBlock head,
   forkCheck "Istanbul fork block" c.istanbulBlock newcfg.istanbulBlock head,
   forkCheck "ewasm fork block" c.ewasmBlock newcfg.ewasmBlock head,
   (match c.istanbul, newcfg.istanbul with
      | some ci, some ni => forkCheck "Ceil 2N/3 fork block" ci.ceil2Nby3Block ni.ceil2Nby3Block head
      | _, _ => none),
   forkCheck "permissions fork block" c.qip714Block newcfg.qip714Block head,
   forkCheck "max code size change fork block" c.maxCodeSizeChangeBlock newcfg.maxCodeSizeChangeBlock
     head].findSome? id

def checkCompatibleLoop (c newcfg : ChainConfig) (isSmiloEIP155Activated : Bool) :
    Nat → Nat → Option ConfigCompatError → Option (Option ConfigCompatError)
  | 0, _, _ => none
  | fuel + 1, bhead, lasterr =>
    match c.checkCompatible newcfg bhead isSmiloEIP155Activated with
    | none => some lasterr
    | some err =>
      if lasterr.any (fun l => err.rewindTo == l.rewindTo) then some lasterr
      else checkCompatibleLoop c newcfg isSmiloEIP155Activated fuel err.rewindTo.toNat (some err)

/-- `CheckCompatible`, with `fuel` bounding the iterations of its unbounded loop. -/
def ChainConfig.CheckCompatible (c newcfg : ChainConfig) (height : UInt64) (isSmiloEIP155Activated : Bool)
    (fuel : Nat) : Option (Option ConfigCompatError) :=
  checkCompatibleLoop c newcfg isSmiloEIP155Activated fuel height.toNat none

theorem checkCompatibleLoop_succ {c newcfg : ChainConfig} {flag : Bool} :
    ∀ {fuel bhead lasterr r}, checkCompatibleLoop c newcfg flag fuel bhead lasterr = some r →
      checkCompatibleLoop c newcfg flag (fuel + 1) bhead lasterr = some r
  | 0, _, _, _, h => by cases h
  | fuel + 1, bhead, lasterr, r, h => by
    rw [checkCompatibleLoop.eq_2] at h ⊢
    revert h
    cases c.checkCompatible newcfg bhead flag with
    | none => exact id
    | some err =>
      dsimp only
      split_ifs
      · exact id
      · exact checkCompatibleLoop_succ

theorem checkCompatibleLoop_mono {c newcfg : ChainConfig} {flag : Bool} {fuel fuel' bhead lasterr r}
    (h : checkCompatibleLoop c newcfg flag fuel bhead lasterr = some r) (hle : fuel ≤ fuel') :
    checkCompatibleLoop c newcfg flag fuel' bhead lasterr = some r := by
  induction hle with
  | refl => exact h
  | step _ ih => exact checkCompatibleLoop_succ ih

/-- An error found at `head` rewinds below it, or to 0 at the genesis head. -/
def RewindsBelow (head : Nat) (err : ConfigCompatError) : Prop :=
  err.rewindTo.toNat < head ∨ head = 0 ∧ err.rewindTo.toNat = 0

theorem rewindBlock_le {s1 s2 : Option Int} {head : Int}
    (h : isForked s1 head = true ∨ isForked s2 head = true) : ∃ r, rewindBlock s1 s2 = some r ∧ r ≤ head := by
  rcases s1 with _ | s <;> rcases s2 with _ | n <;> simp only [isForked, decide_eq_true_eq] at h <;>
    simp only [rewindBlock]
  · simp at h
  · exact ⟨n, rfl, by simpa using h⟩
  · exact ⟨s, rfl, by simpa using h⟩
  · split_ifs <;> exact ⟨_, rfl, by omega⟩

theorem bigUint64_sub_one {r : Int} (h0 : 0 < r) (h : r < 2 ^ 64) : (bigUint64 r - 1).toNat = r.toNat - 1 := by
  have hr : (bigUint64 r).toNat = r.toNat := by
    rw [bigUint64, UInt64.toNat_ofNat_of_lt (show r.natAbs < 18446744073709551616 by omega)]
    omega
  rw [UInt64.toNat_sub_of_le _ _ (show 1 ≤ (bigUint64 r).toNat by omega), hr]
  rfl

theorem newCompatError_rewindsBelow {what : String} {s1 s2 : Option Int} {head : Nat} (hh : head < 2 ^ 64)
    (h : ∃ r, rewindBlock s1 s2 = some r ∧ r ≤ head) : RewindsBelow head (newCompatError what s1 s2) := by
  obtain ⟨r, hr, hle⟩ := h
  simp only [RewindsBelow, newCompatError, hr]
  split_ifs with h0
  · rw [bigUint64_sub_one h0 (by omega)]
    omega
  · rcases Nat.eq_zero_or_pos head with rfl | hpos
    · exact .inr ⟨rfl, rfl⟩
    · exact .inl hpos

theorem forkCheck_rewindsBelow {what : String} {s1 s2 : Option Int} {head : Nat} (hh : head < 2 ^ 64) :
    ∀ e ∈ forkCheck what s1 s2 head, RewindsBelow head e := by
  intro e he
  simp only [forkCheck, isForkIncompatible, Bool.and_eq_true, Bool.or_eq_true] at he
  split_ifs at he with hinc
  · cases he
    exact newCompatError_rewindsBelow hh (rewindBlock_le hinc.1)
  · cases he

theorem forkedCheck_rewindsBelow {what : String} {s1 s2 : Option Int} {b : Bool} {head : Nat}
    (hh : head < 2 ^ 64) :
    ∀ e ∈ (if isForked s1 head && b then some (newCompatError what s1 s2) else none), RewindsBelow head e := by
  intro e he
  simp only [Bool.and_eq_true] at he
  split_ifs at he with hd
  · cases he
    exact newCompatError_rewindsBelow hh (rewindBlock_le (.inl hd.1))
  · cases he

theorem forall_mem_findSome {α : Type} {P : α → Prop} {l : List (Option α)} (h : ∀ o ∈ l, ∀ x ∈ o, P x) :
    ∀ x ∈ l.findSome? id, P x := fun x hx =>
  let ⟨o, ho, hox⟩ := List.exists_of_findSome?_eq_some hx
  h o ho x hox

/-- The chain-ID check of EIP155 is on and the two configs' chain IDs differ. -/
def ChainIdsDiffer (c newcfg : ChainConfig) (isSmiloEIP155Activated : Bool) : Prop :=
  isSmiloEIP155Activated = true ∧ c.chainID.isSome = true ∧ configNumEqual c.chainID newcfg.chainID = false

theorem checkCompatible_rewindsBelow (c newcfg : ChainConfig) (head : Nat) (hh : head < 2 ^ 64)
    (flag : Bool) : ∀ e ∈ c.checkCompatible newcfg head flag,
      RewindsBelow head e ∨
        ChainIdsDiffer c newcfg flag ∧ e = newCompatError "EIP155 chain ID" c.chainID newcfg.chainID := by
  have fork : ∀ what s1 s2, ∀ e ∈ forkCheck what s1 s2 head, RewindsBelow head e ∨
      ChainIdsDiffer c newcfg flag ∧ e = newCompatError "EIP155 chain ID" c.chainID newcfg.chainID :=
    fun _ _ _ e he => .inl (forkCheck_rewindsBelow hh e he)
  have forked : ∀ what s1 s2 b,
      ∀ e ∈ (if isForked s1 head && b then some (newCompatError what s1 s2) else none), RewindsBelow head e ∨
        ChainIdsDiffer c newcfg flag ∧ e = newCompatError "EIP155 chain ID" c.chainID newcfg.chainID :=
    fun _ _ _ _ e he => .inl (forkedCheck_rewindsBelow hh e he)
  refine forall_mem_findSome ?_
  simp only [List.forall_mem_cons, List.not_mem_nil, false_implies, implies_true, and_true]
  refine ⟨fork _ _ _, fork _ _ _, forked _ _ _ _, fork _ _ _, ?eip155, ?chainId, fork _ _ _, forked _ _ _ _,
    fork _ _ _, fork _ _ _, fork _ _ _, fork _ _ _, fork _ _ _, ?ceil, fork _ _ _, fork _ _ _⟩
  case eip155 =>
    intro e he
    split_ifs at he
    · exact fork _ _ _ e he
    · cases he
  case chainId =>
    intro e he
    simp only [Bool.and_eq_true, Bool.not_eq_true'] at he
    split_ifs at he with hid
    · cases he
      exact .inr ⟨⟨hid.1.1.1, hid.1.1.2, hid.2⟩, rfl⟩
    · cases he
  case ceil =>
    intro e he
    split at he
    · exact fork _ _ _ e he
    · cases he

theorem checkCompatible_rewindsBelow_of_not_differ {c newcfg : ChainConfig} {flag : Bool}
    (hid : ¬ ChainIdsDiffer c newcfg flag) (head : Nat) (hh : head < 2 ^ 64) :
    ∀ e ∈ c.checkCompatible newcfg head flag, RewindsBelow head e :=
  fun e he => (checkCompatible_rewindsBelow c newcfg head hh flag e he).resolve_right fun h => hid h.1

section Loop

variable {c newcfg : ChainConfig} {flag : Bool}
  (hrew : ∀ head : Nat, head < 2 ^ 64 → ∀ e ∈ c.checkCompatible newcfg head flag, RewindsBelow head e)
include hrew

theorem checkCompatibleLoop_leaves : ∀ (fuel : Nat) (last : ConfigCompatError), last.rewindTo.toNat < fuel →
    ∃ e, checkCompatibleLoop c newcfg flag fuel last.rewindTo.toNat (some last) = some (some e) ∧
      e.rewindTo.toNat ≤ last.rewindTo.toNat ∧
      (c.checkCompatible newcfg e.rewindTo.toNat flag = none ∨ e.rewindTo.toNat = 0) ∧
      (e = last ∨ ∃ b : Nat, b < 2 ^ 64 ∧ c.checkCompatible newcfg b flag = some e)
  | 0, _, h => absurd h (Nat.not_lt_zero _)
  | fuel + 1, last, h => by
    rw [checkCompatibleLoop.eq_2]
    cases he : c.checkCompatible newcfg last.rewindTo.toNat flag with
    | none => exact ⟨last, rfl, le_rfl, .inl he, .inl rfl⟩
    | some err =>
      have hb := hrew _ last.rewindTo.toNat_lt_size err he
      dsimp only
      split_ifs with heq <;> simp only [Option.any_some, beq_iff_eq] at heq
      · refine ⟨last, rfl, le_rfl, .inr ?_, .inl rfl⟩
        rcases hb with hlt | ⟨hz, -⟩
        · rw [heq] at hlt
          omega
        · exact hz
      · rcases hb with hlt | ⟨hz, h0⟩
        · obtain ⟨e, hl, hle, hc, hfrom⟩ := checkCompatibleLoop_leaves fuel err (by omega)
          refine ⟨e, hl, by omega, hc, .inr ?_⟩
          rcases hfrom with rfl | hfrom
          · exact ⟨_, last.rewindTo.toNat_lt_size, he⟩
          · exact hfrom
        · exact absurd (UInt64.toNat.inj (by omega)) heq

/-- When every error rewinds below its head, `CheckCompatible` leaves its loop within
`height + 2` iterations. -/
theorem CheckCompatible_terminates (height : UInt64) :
    ∃ r, c.CheckCompatible newcfg height flag (height.toNat + 2) = some r ∧ ∀ e ∈ r, e.rewindTo ≤ height := by
  rw [ChainConfig.CheckCompatible, checkCompatibleLoop.eq_2]
  cases he : c.checkCompatible newcfg height.toNat flag with
  | none => exact ⟨none, rfl, by simp⟩
  | some err =>
    have hb := hrew _ height.toNat_lt_size err he
    obtain ⟨e, hl, hle, -, -⟩ :=
      checkCompatibleLoop_leaves hrew (height.toNat + 1) err (by unfold RewindsBelow at hb; omega)
    refine ⟨some e, hl, fun e' he' => ?_⟩
    cases he'
    rw [uint64_le_iff]
    unfold RewindsBelow at hb
    omega

end Loop

/-! An error's rewind target is one below the block of the fork it names, so every
head above the target still has the conflict; the loop stops where there is none. -/

theorem rewindBlock_mem {s1 s2 : Option Int} {r : Int} (h : rewindBlock s1 s2 = some r) :
    s1 = some r ∨ s2 = some r := by
  rcases s1 with _ | a <;> rcases s2 with _ | b <;> simp only [rewindBlock] at h
  · cases h
  · exact .inr h
  · exact .inl h
  · split_ifs at h <;> cases h
    · exact .inl rfl
    · exact .inr rfl

theorem rewindBlock_le_of_rewindTo_lt {what : String} {s1 s2 : Option Int} {r : Int} {x : Nat}
    (hr : rewindBlock s1 s2 = some r) (h64 : r < 2 ^ 64) (hx : (newCompatError what s1 s2).rewindTo.toNat < x) :
    r ≤ x := by
  simp only [newCompatError, hr] at hx
  split_ifs at hx with h0
  · rw [bigUint64_sub_one h0 h64] at hx
    omega
  · omega

theorem forkCheck_conflicts_above {what : String} {s1 s2 : Option Int} {head x : Nat} (hh : head < 2 ^ 64)
    {e : ConfigCompatError} (he : e ∈ forkCheck what s1 s2 head) (hx : e.rewindTo.toNat < x) :
    isForkIncompatible s1 s2 x = true := by
  simp only [forkCheck] at he
  split_ifs at he with hinc
  · cases he
    simp only [isForkIncompatible, Bool.and_eq_true, Bool.or_eq_true] at hinc ⊢
    obtain ⟨r, hr, hle⟩ := rewindBlock_le hinc.1
    have hrx := rewindBlock_le_of_rewindTo_lt hr (by omega) hx
    refine ⟨?_, hinc.2⟩
    rcases rewindBlock_mem hr with h | h <;> simp [isForked, h, hrx]
  · cases he

theorem forkedCheck_conflicts_above {what : String} {s1 s2 : Option Int} {b : Bool} {head x : Nat}
    (hh : head < 2 ^ 64) {e : ConfigCompatError}
    (he : e ∈ (if isForked s1 head && b then some (newCompatError what s1 s2) else none))
    (hx : e.rewindTo.toNat < x) : isForkIncompatible s1 s2 x = true ∨ (isForked s1 x && b) = true := by
  simp only [Bool.and_eq_true] at he
  split_ifs at he with hd
  · cases he
    obtain ⟨r, hr, hle⟩ := @rewindBlock_le s1 s2 _ (.inl hd.1)
    have hrx := rewindBlock_le_of_rewindTo_lt hr (by omega) hx
    rcases s1 with _ | a
    · simp [isForked] at hd
    rcases s2 with _ | n
    · cases hr
      exact .inr (by simp [isForked, hrx, hd.2])
    · simp only [rewindBlock] at hr
      by_cases hna : n = a
      · subst hna
        split_ifs at hr <;> cases hr <;> exact .inr (by simp [isForked, hrx, hd.2])
      · split_ifs at hr <;> cases hr
        · exact .inr (by simp [isForked, hrx, hd.2])
        · exact .inl (by simp [isForkIncompatible, isForked, configNumEqual, hrx, Ne.symm hna])
  · cases he

theorem checkCompatible_conflicts_above {c newcfg : ChainConfig} {flag : Bool}
    (hid : ¬ ChainIdsDiffer c newcfg flag) {head : Nat} (hh : head < 2 ^ 64) :
    ∀ e ∈ c.checkCompatible newcfg head flag, ∀ x : Nat, e.rewindTo.toNat < x →
      c.checkCompatible newcfg x flag ≠ none := by
  have fork : ∀ what s1 s2, ∀ e ∈ forkCheck what s1 s2 head, ∀ x : Nat, e.rewindTo.toNat < x →
      isForkIncompatible s1 s2 x = true := fun _ _ _ _ he _ hx => forkCheck_conflicts_above hh he hx
  intro e he x hx hnone
  simp only [ChainConfig.checkCompatible, List.findSome?_eq_none_iff, List.mem_cons, List.mem_singleton,
    forall_eq_or_imp, forall_eq, id, List.not_mem_nil, false_implies, implies_true, and_true] at hnone
  obtain ⟨h1, h2, h3, h4, h5, h6, h7, h8, h9, h10, h11, h12, h13, h14, h15, h16⟩ := hnone
  revert e
  refine forall_mem_findSome ?_
  simp only [List.forall_mem_cons, List.not_mem_nil, false_implies, implies_true, and_true]
  refine ⟨?homestead, ?dao, ?daoFlag, ?eip150, ?eip155, ?chainId, ?eip158, ?eip158Id, ?byzantium,
    ?constantinople, ?petersburg, ?istanbul, ?ewasm, ?ceil, ?qip714, ?maxCode⟩
  all_goals intro e he hx
  case daoFlag =>
    rcases forkedCheck_conflicts_above hh he hx with h | h <;> simp [forkCheck, ChainConfig.isDAOFork, h] at h2 h3
  case eip155 =>
    split_ifs at he with hg
    · simp [forkCheck, hg, fork _ _ _ e he x hx] at h5
    · cases he
  case chainId =>
    simp only [Bool.and_eq_true, Bool.not_eq_true'] at he
    split_ifs at he with hc
    · exact hid ⟨hc.1.1.1, hc.1.1.2, hc.2⟩
    · cases he
  case eip158Id =>
    rcases forkedCheck_conflicts_above hh he hx with h | h <;>
      simp [forkCheck, ChainConfig.isEIP158, h] at h7 h8
  case ceil =>
    split at he
    · rename_i ci ni hci hni
      simp [forkCheck, hci, hni, fork _ _ _ e he x hx] at h14
    · cases he
  -- a plain fork check fires again at `x`, against its entry of `hnone`
  all_goals simp [forkCheck, fork _ _ _ e he x hx] at h1 h2 h4 h7 h9 h10 h11 h12 h13 h15 h16

/-- Without a chain-ID conflict, `CheckCompatible` returns nil exactly when the configs
are compatible at the height, and otherwise rewinds to the highest compatible head. -/
theorem CheckCompatible_rewinds_to_highest_compatible {c newcfg : ChainConfig} {flag : Bool}
    (hid : ¬ ChainIdsDiffer c newcfg flag) (height : UInt64) :
    ∃ r, c.CheckCompatible newcfg height flag (height.toNat + 2) = some r ∧
      (r = none ↔ c.checkCompatible newcfg height.toNat flag = none) ∧
      ∀ e ∈ r, (c.checkCompatible newcfg e.rewindTo.toNat flag = none ∨ e.rewindTo = 0) ∧
        ∀ x : Nat, e.rewindTo.toNat < x → c.checkCompatible newcfg x flag ≠ none := by
  have hrew := checkCompatible_rewindsBelow_of_not_differ hid
  rw [ChainConfig.CheckCompatible, checkCompatibleLoop.eq_2]
  cases he : c.checkCompatible newcfg height.toNat flag with
  | none => exact ⟨none, rfl, iff_of_true rfl rfl, fun _ h => by cases h⟩
  | some err =>
    have hb := hrew _ height.toNat_lt_size err he
    obtain ⟨e, hl, -, hc, hfrom⟩ :=
      checkCompatibleLoop_leaves hrew (height.toNat + 1) err (by unfold RewindsBelow at hb; omega)
    refine ⟨some e, hl, iff_of_false (by simp) (by simp), fun e' he' => ?_⟩
    cases he'
    refine ⟨hc.imp_right UInt64.toNat.inj, ?_⟩
    rcases hfrom with rfl | ⟨b, hb64, hbe⟩
    · exact checkCompatible_conflicts_above hid height.toNat_lt_size e he
    · exact checkCompatible_conflicts_above hid hb64 e hbe

def homesteadAt5 : ChainConfig := { homesteadBlock := some 5 }

def homesteadAt6 : ChainConfig := { homesteadBlock := some 6 }

theorem CheckCompatible_rewinds_to_highest_compatible_homestead :
    ¬ ChainIdsDiffer homesteadAt5 homesteadAt6 true ∧
      ∃ r, homesteadAt5.CheckCompatible homesteadAt6 10 true ((10 : UInt64).toNat + 2) = some r ∧
        (r = none ↔ homesteadAt5.checkCompatible homesteadAt6 (10 : UInt64).toNat true = none) ∧
        ∀ e ∈ r, (homesteadAt5.checkCompatible homesteadAt6 e.rewindTo.toNat true = none ∨ e.rewindTo = 0) ∧
          ∀ x : Nat, e.rewindTo.toNat < x → homesteadAt5.checkCompatible homesteadAt6 x true ≠ none :=
  have hid : ¬ ChainIdsDiffer homesteadAt5 homesteadAt6 true := by
    simp [ChainIdsDiffer, homesteadAt5]
  ⟨hid, CheckCompatible_rewinds_to_highest_compatible hid 10⟩

/-- `Copy`: the fields `Copy` copies; the others keep their zero value, `nil`. -/
def ChainConfig.Copy (c : ChainConfig) : ChainConfig :=
  { daoForkSupport := c.daoForkSupport, istanbul := c.istanbul, chainID := c.chainID,
    homesteadBlock := c.homesteadBlock, daoForkBlock := c.daoForkBlock, eip150Block := c.eip150Block,
    eip155Block := c.eip155Block, eip158Block := c.eip158Block, byzantiumBlock := c.byzantiumBlock,
    constantinopleBlock := c.constantinopleBlock, petersburgBlock := c.petersburgBlock,
    ewasmBlock := c.ewasmBlock }

theorem configNumEqual_self (s : Option Int) : configNumEqual s s = true := by
  cases s <;> simp [configNumEqual]

theorem isForkIncompatible_self (s : Option Int) (head : Int) : isForkIncompatible s s head = false := by
  simp [isForkIncompatible, configNumEqual_self]

theorem isForkIncompatible_none (s : Option Int) (head : Int) :
    isForkIncompatible s none head = isForked s head := by
  cases s <;> simp [isForkIncompatible, isForked, configNumEqual]

/-- A config conflicts with its own `Copy` exactly at the heads past one of the three
forks `Copy` leaves out: Istanbul, QIP714 and the max code size change. -/
theorem checkCompatible_copy (c : ChainConfig) (head : Int) (flag : Bool) :
    c.checkCompatible c.Copy head flag = none ↔
      isForked c.istanbulBlock head = false ∧ isForked c.qip714Block head = false ∧
        isForked c.maxCodeSizeChangeBlock head = false := by
  cases hi : c.istanbul <;>
    simp [ChainConfig.checkCompatible, ChainConfig.Copy, List.findSome?_eq_none_iff, forkCheck,
      isForkIncompatible_self, isForkIncompatible_none, configNumEqual_self, hi]

def chainIdStored : ChainConfig := { chainID := some 11, eip155Block := some 0 }

def chainIdNew : ChainConfig := { chainID := some 12, eip155Block := some 0 }

theorem checkCompatible_rewinds_above_head :
    chainIdStored.checkCompatible chainIdNew 0 true = some ⟨"EIP155 chain ID", some 11, some 12, 10⟩ ∧
      chainIdStored.checkCompatible chainIdNew 3 true = some ⟨"EIP155 chain ID", some 11, some 12, 10⟩ ∧
      chainIdStored.CheckCompatible chainIdNew 3 true 2 =
        some (some ⟨"EIP155 chain ID", some 11, some 12, 10⟩) := by
  decide

def homesteadStored : ChainConfig := { chainIdStored with homesteadBlock := some 5 }

def homesteadNew : ChainConfig := { chainIdNew with homesteadBlock := some 6 }

theorem homestead_checkCompatible (h : Nat) :
    homesteadStored.checkCompatible homesteadNew h true =
      if 5 ≤ h then some (newCompatError "Homestead fork block" (some 5) (some 6))
      else some (newCompatError "EIP155 chain ID" (some 11) (some 12)) := by
  have h0 : (0 : Int) ≤ h := by omega
  by_cases h5 : 5 ≤ h
  · have h5' : (5 : Int) ≤ h := by omega
    simp [h5, h5', h0, ChainConfig.checkCompatible, forkCheck, isForkIncompatible, isForked, configNumEqual,
      ChainConfig.isDAOFork, ChainConfig.isEIP155, ChainConfig.isEIP158, homesteadStored, homesteadNew,
      chainIdStored, chainIdNew]
  · have h5' : ¬ (5 : Int) ≤ h := by omega
    have h6 : ¬ (6 : Int) ≤ h := by omega
    have h6' : ¬ 6 ≤ h := by omega
    simp [h5, h5', h6, h6', h0, ChainConfig.checkCompatible, forkCheck, isForkIncompatible, isForked,
      configNumEqual, ChainConfig.isDAOFork, ChainConfig.isEIP155, ChainConfig.isEIP158, homesteadStored,
      homesteadNew, chainIdStored, chainIdNew]

theorem homestead_loop_cycles (fuel : Nat) :
    checkCompatibleLoop homesteadStored homesteadNew true fuel 10
        (some (newCompatError "EIP155 chain ID" (some 11) (some 12))) = none ∧
      checkCompatibleLoop homesteadStored homesteadNew true fuel 4
        (some (newCompatError "Homestead fork block" (some 5) (some 6))) = none := by
  induction fuel with
  | zero => exact ⟨rfl, rfl⟩
  | succ fuel ih =>
    rw [checkCompatibleLoop.eq_2, checkCompatibleLoop.eq_2, homestead_checkCompatible, homestead_checkCompatible]
    exact ⟨ih.2, ih.1⟩

/-- The Homestead conflict rewinds to 4, where the chain-ID conflict rewinds to 10,
and back: from every height, the loop never leaves. -/
theorem CheckCompatible_never_leaves (height : UInt64) (fuel : Nat) :
    homesteadStored.CheckCompatible homesteadNew height true fuel = none := by
  cases fuel with
  | zero => rfl
  | succ fuel =>
    rw [ChainConfig.CheckCompatible, checkCompatibleLoop.eq_2, homestead_checkCompatible]
    split_ifs
    · exact (homestead_loop_cycles fuel).2
    · exact (homestead_loop_cycles fuel).1

end SmiloBft.Params
