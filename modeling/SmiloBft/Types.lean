import Mathlib.Data.List.Basic
import Mathlib.Algebra.Group.Int

/-!
# Byte arrays, headers and errors of the smilobft backends

Fixed-width byte arrays carry their width as a field. Header numbers, times and
the block period are `UInt64`, as in the Go code, so that `parent.Time +
BlockPeriod` wraps and `int64(header.Time)` goes negative exactly as there.
-/

namespace SmiloBft

set_option autoImplicit false

/-- A Go byte array `[n]byte`. -/
structure FixedBytes (n : Nat) where
  bytes : List UInt8
  length_eq : bytes.length = n
deriving DecidableEq

abbrev Address := FixedBytes 20
abbrev Hash := FixedBytes 32
abbrev BlockNonce := FixedBytes 8

def FixedBytes.zero (n : Nat) : FixedBytes n := ⟨List.replicate n 0, List.length_replicate n 0⟩

def FixedBytes.fill (n : Nat) (b : UInt8) : FixedBytes n :=
  ⟨List.replicate n b, List.length_replicate n b⟩

/-- The header fields the backends read or write; `number` and `difficulty` may be nil. -/
structure Header where
  parentHash : Hash
  uncleHash : Hash
  coinbase : Address
  difficulty : Option Int
  number : Option UInt64
  time : UInt64
  extra : List UInt8
  mixDigest : Hash
  nonce : BlockNonce
deriving DecidableEq

/-- `consensus.ChainReader`, as far as the backends read it. -/
structure ChainReader where
  getHeader : Hash → UInt64 → Option Header
  getHeaderByNumber : UInt64 → Option Header

/-- `types.SportExtra` and `types.BFTExtra`, the record behind the vanity. -/
structure ConsensusExtra where
  validators : List Address
  proposerSeal : List UInt8
  committedSeal : List (List UInt8)
deriving DecidableEq

/-- The errors returned; `nilDereference` is the panic of a nil pointer dereference. -/
inductive Error where
  | errUnknownBlock
  | errUnauthorized
  | errInvalidDifficulty
  | errInvalidExtraDataFormat
  | errInvalidMixDigest
  | errInvalidNonce
  | errInvalidUncleHash
  | errInvalidTimestamp
  | errFutureBlock
  | errUnknownAncestor
  | errEmptyCommittedSeals
  | errInvalidSignature
  | errInvalidCommittedSeals
  | errStartedEngine
  | errStoppedEngine
  | errInvalidSportHeaderExtra
  | errRlpDecode
  | nilDereference
deriving DecidableEq, Repr

instance instDecidableEqExcept {ε α : Type} [DecidableEq ε] [DecidableEq α] : DecidableEq (Except ε α)
  | .error a, .error b => decidable_of_iff (a = b) ⟨congrArg _, Except.error.inj⟩
  | .ok a, .ok b => decidable_of_iff (a = b) ⟨congrArg _, Except.ok.inj⟩
  | .error _, .ok _ => isFalse Except.noConfusion
  | .ok _, .error _ => isFalse Except.noConfusion

@[simp] theorem except_bind_ok {ε α β : Type} (a : α) (f : α → Except ε β) :
    (Except.ok a >>= f) = f a := rfl

@[simp] theorem except_bind_error {ε α β : Type} (e : ε) (f : α → Except ε β) :
    (Except.error e >>= f) = Except.error e := rfl

@[simp] theorem except_pure {ε α : Type} (a : α) : (pure a : Except ε α) = .ok a := rfl

@[simp] theorem except_throw {ε α : Type} (e : ε) : (throw e : Except ε α) = .error e := rfl

theorem except_bind_eq_ok {ε α β : Type} {m : Except ε α} {f : α → Except ε β} {b : β} :
    (m >>= f) = .ok b ↔ ∃ a, m = .ok a ∧ f a = .ok b := by
  cases m <;> simp

theorem ite_error_eq_ok {ε α : Type} {c : Prop} [Decidable c] {e : ε} {r : Except ε α} {x : α} :
    (if c then .error e else r) = .ok x ↔ ¬c ∧ r = .ok x := by
  split_ifs <;> simp [*]

/-- `header.Number.Uint64()`, which panics on a nil number. -/
def Header.numberU64 (h : Header) : Except Error UInt64 :=
  match h.number with
  | some n => .ok n
  | none => .error .nilDereference

theorem uint64_le_iff {a b : UInt64} : a ≤ b ↔ a.toNat ≤ b.toNat := .rfl

/-- Go's conversion `int64(x)` of a `uint64`: values from `2^63` on become negative. -/
def toInt64 (x : UInt64) : Int :=
  if x.toNat < 2 ^ 63 then x.toNat else x.toNat - 2 ^ 64

def toUInt64 (x : Int) : UInt64 := UInt64.ofNat (x % 2 ^ 64).toNat

theorem toInt64_neg {x : UInt64} (h : 2 ^ 63 ≤ x.toNat) : toInt64 x < 0 := by
  have : x.toNat < 18446744073709551616 := x.toNat_lt_size
  simp only [toInt64, Nat.not_lt.mpr h, if_false]
  omega

end SmiloBft
