import SmiloBft.Types
import Mathlib.Data.List.Dedup

/-!
# Validator sets and the committed-seal loop

Modelled from the spec: `validator.Set` (tendermint) and `sport.FullnodeSet` are
not in the repository's files. A set is a duplicate-free sequence of addresses,
`N` is its current length, `F = ⌊(N−1)/3⌋`, `Q = ⌈2N/3⌉`, and `remove` deletes
an address and says whether it was there. Both backends run the same loop over
the committed seals, `removeSigners`.
-/

namespace SmiloBft

set_option autoImplicit false

/-- Modelled from the spec: a validator (fullnode) set, deduplicated. Its order
is read only by speaker selection, which is not modelled. -/
structure ValidatorSet where
  validators : List Address
  nodup : validators.Nodup

namespace ValidatorSet

def newSet (addrs : List Address) : ValidatorSet := ⟨addrs.dedup, List.nodup_dedup addrs⟩

def size (s : ValidatorSet) : Nat := s.validators.length

/-- `Quorum`: `⌈2N/3⌉` of the current size. -/
def quorum (s : ValidatorSet) : Nat := (2 * s.size + 2) / 3

/-- `F`: `⌊(N−1)/3⌋`. -/
def f (s : ValidatorSet) : Nat := (s.size - 1) / 3

/-- `RemoveValidator` (`RemoveFullnode`): whether `addr` was a member, and the set without it. -/
def removeValidator (s : ValidatorSet) (addr : Address) : Bool × ValidatorSet :=
  if addr ∈ s.validators then (true, ⟨s.validators.erase addr, s.nodup.erase addr⟩) else (false, s)

theorem removeValidator_of_mem {s : ValidatorSet} {addr : Address} (h : addr ∈ s.validators) :
    s.removeValidator addr = (true, ⟨s.validators.erase addr, s.nodup.erase addr⟩) := by
  simp [removeValidator, h]

theorem removeValidator_of_not_mem {s : ValidatorSet} {addr : Address} (h : addr ∉ s.validators) :
    s.removeValidator addr = (false, s) := by
  simp [removeValidator, h]

theorem size_erase {s : ValidatorSet} {addr : Address} (h : addr ∈ s.validators) :
    (ValidatorSet.mk (s.validators.erase addr) (s.nodup.erase addr)).size + 1 = s.size := by
  simp only [size, List.length_erase_of_mem h]
  have := List.length_pos_of_mem h
  omega

end ValidatorSet

/-- The loop of `verifyCommittedSeals`: remove each seal's signer from `validators`,
counting the removals; an unrecovered signer or a non-member ends it with an error. -/
def removeSigners (recover : List UInt8 → Except Error Address)
    (invalidSignature invalidCommittedSeals : Error) :
    Nat → ValidatorSet → List (List UInt8) → Except Error (Nat × ValidatorSet)
  | validSeal, validators, [] => .ok (validSeal, validators)
  | validSeal, validators, sig :: sigs =>
    match recover sig with
    | .error _ => .error invalidSignature
    | .ok addr =>
      match validators.removeValidator addr with
      | (true, validators) =>
        removeSigners recover invalidSignature invalidCommittedSeals (validSeal + 1) validators sigs
      | (false, _) => .error invalidCommittedSeals

def Recovers (recover : List UInt8 → Except Error Address) (sigs : List (List UInt8))
    (signers : List Address) : Prop :=
  List.Forall₂ (fun sig a => recover sig = .ok a) sigs signers

theorem Recovers.nil {recover : List UInt8 → Except Error Address} : Recovers recover [] [] :=
  List.Forall₂.nil

theorem Recovers.cons {recover : List UInt8 → Except Error Address} {sig : List UInt8}
    {sigs : List (List UInt8)} {a : Address} {signers : List Address} (h : recover sig = .ok a)
    (t : Recovers recover sigs signers) : Recovers recover (sig :: sigs) (a :: signers) :=
  List.Forall₂.cons h t

section Loop

variable (recover : List UInt8 → Except Error Address) (e₁ e₂ : Error)

/-- The loop succeeds exactly when the signers are recovered, distinct and members, and
then removes and counts exactly them. -/
theorem removeSigners_ok_iff (sigs : List (List UInt8)) :
    ∀ (k k' : Nat) (S S' : ValidatorSet),
      removeSigners recover e₁ e₂ k S sigs = .ok (k', S') ↔
        ∃ signers, Recovers recover sigs signers ∧ signers.Nodup ∧
          (∀ a ∈ signers, a ∈ S.validators) ∧ k' = k + signers.length ∧
          S'.validators = S.validators.diff signers := by
  induction sigs with
  | nil =>
    intro k k' S S'
    constructor
    · intro h
      cases h
      exact ⟨[], .nil, .nil, by simp, rfl, rfl⟩
    · rintro ⟨signers, hr, -, -, hk, hS⟩
      cases hr
      cases S'
      cases S
      simp_all [removeSigners]
  | cons sig sigs ih =>
    intro k k' S S'
    cases hrec : recover sig with
    | error err =>
      simp only [removeSigners, hrec, reduceCtorEq, false_iff, not_exists, not_and]
      intro signers hr
      cases hr with
      | cons ha _ => simp [hrec] at ha
    | ok addr =>
      by_cases hmem : addr ∈ S.validators
      · simp only [removeSigners, hrec, ValidatorSet.removeValidator_of_mem hmem, ih]
        constructor
        · rintro ⟨signers, hr, hnd, hsub, hk, hS⟩
          refine ⟨addr :: signers, .cons hrec hr, ?_, ?_, by simp [hk]; omega, ?_⟩
          · exact List.nodup_cons.mpr ⟨fun h => S.nodup.not_mem_erase (hsub _ h), hnd⟩
          · intro a ha
            rcases List.mem_cons.mp ha with rfl | ha
            · exact hmem
            · exact List.mem_of_mem_erase (hsub a ha)
          · simp [hS, List.diff_cons]
        · rintro ⟨signers', hr', hnd, hsub, hk, hS⟩
          cases hr' with
          | cons ha hr =>
            rw [hrec] at ha
            cases ha
            rename_i signers
            refine ⟨signers, hr, (List.nodup_cons.mp hnd).2, fun a h => ?_, by simp at hk; omega, ?_⟩
            · exact (S.nodup.mem_erase_iff).mpr
                ⟨fun he => (List.nodup_cons.mp hnd).1 (he ▸ h), hsub a (List.mem_cons_of_mem _ h)⟩
            · simp [hS, List.diff_cons]
      · simp only [removeSigners, hrec, ValidatorSet.removeValidator_of_not_mem hmem, reduceCtorEq,
          false_iff, not_exists, not_and]
        rintro _ (_ | ⟨ha, _⟩) _ hsub
        rw [hrec] at ha
        cases ha
        exact absurd (hsub addr (List.mem_cons_self _ _)) hmem

theorem removeSigners_error (sigs : List (List UInt8)) :
    ∀ (k : Nat) (S : ValidatorSet) (err : Error),
      removeSigners recover e₁ e₂ k S sigs = .error err → err = e₁ ∨ err = e₂ := by
  induction sigs with
  | nil => intro k S err h; cases h
  | cons sig sigs ih =>
    intro k S err h
    unfold removeSigners at h
    split at h
    · cases h; exact .inl rfl
    · split at h
      · exact ih _ _ _ h
      · cases h; exact .inr rfl

theorem diff_length_add {S : List Address} {signers : List Address} (hnd : signers.Nodup)
    (hsub : ∀ a ∈ signers, a ∈ S) : (S.diff signers).length + signers.length = S.length := by
  induction signers generalizing S with
  | nil => simp
  | cons a signers ih =>
    have ha := hsub a (List.mem_cons_self _ _)
    rw [List.diff_cons, List.length_cons]
    have h := ih (S := S.erase a) (List.nodup_cons.mp hnd).2 fun b hb =>
      (List.mem_erase_of_ne (fun (he : b = a) => (List.nodup_cons.mp hnd).1 (he ▸ hb))).mpr
        (hsub b (List.mem_cons_of_mem _ hb))
    rw [List.length_erase_of_mem ha] at h
    have := List.length_pos_of_mem ha
    omega

end Loop

/-- The spec's commit certificate: distinct members of the set, at least `Q` of them. -/
def Certified (S : ValidatorSet) (signers : List Address) : Prop :=
  signers.Nodup ∧ (∀ a ∈ signers, a ∈ S.validators) ∧ S.quorum ≤ signers.length

end SmiloBft
