import SmiloBft.HeaderCodec
import SmiloBft.ValidatorSet
import Mathlib.Data.List.Forall2

/-!
# Header verification of the tendermint backend

`verifyHeader`, `verifyCascadingFields`, `verifySigner`, `verifyCommittedSeals`
and the two validator lookups of `engine.go`. Hashing and signature recovery
are parameters, so every result holds for any implementation of them; the
chain is any `ChainReader` and the clock any `now`.
-/

namespace SmiloBft.Tendermint

open Rlp

set_option autoImplicit false

/-- `Header.Hash`, `types.GetSignatureAddress`, `types.Ecrecover`, `types.BFTDigest` and
`types.CalcUncleHash(nil)`, which are not in the repository's files. -/
structure Crypto where
    hash : Header → Hash
    getSignatureAddress : List UInt8 → List UInt8 → Except Error Address
    ecrecover : Header → Except Error Address
    bftDigest : Hash
    nilUncleHash : Hash

structure Config where
  blockPeriod : UInt64

def emptyNonce : BlockNonce := .zero 8

def nonceAuthVote : BlockNonce := .fill 8 0xff

def nonceDropVote : BlockNonce := .zero 8

/-- `retrieveSavedValidators`: the validators of the canonical header at `number - 1`. -/
def retrieveSavedValidators (chain : ChainReader) (number : UInt64) : Except Error (List Address) :=
  let number := if number = 0 then 1 else number
  match chain.getHeaderByNumber (number - 1) with
  | none => .error .errUnknownBlock
  | some header => (extractExtra header).map (·.validators)

def retrieveValidators (chain : ChainReader) (header : Header) (parents : List Header) :
    Except Error (List Address) :=
  match parents.getLast? with
  | some parent => (extractExtra parent).map (·.validators)
  | none => do retrieveSavedValidators chain (← header.numberU64)

def verifySigner (C : Crypto) (chain : ChainReader) (header : Header) (parents : List Header) :
    Except Error Unit := do
  let number ← header.numberU64
  if number = 0 then throw .errUnknownBlock
  let validators ← retrieveValidators chain header parents
  let signer ← C.ecrecover header
  if signer ∈ validators then pure () else throw .errUnauthorized

/-- `verifyCommittedSeals`: the quorum is read from the set the loop removed the signers from. -/
def verifyCommittedSeals (C : Crypto) (chain : ChainReader) (header : Header) (parents : List Header) :
    Except Error Unit := do
  let number ← header.numberU64
  if number = 0 then return ()
  let validatorAddresses ← retrieveValidators chain header parents
  let validators := ValidatorSet.newSet validatorAddresses
  let extra ← extractExtra header
  if extra.committedSeal = [] then throw .errEmptyCommittedSeals
  let proposalSeal := prepareCommittedSeal (C.hash header)
  let (validSeal, validators) ← removeSigners (C.getSignatureAddress proposalSeal)
    .errInvalidSignature .errInvalidCommittedSeals 0 validators extra.committedSeal
  if validSeal < validators.quorum then throw .errInvalidCommittedSeals
  pure ()

/-- The parent `verifyCascadingFields` checks: the last of `parents`, or the one found by hash. -/
def parentHeader (chain : ChainReader) (header : Header) (parents : List Header) (number : UInt64) :
    Option Header :=
  match parents.getLast? with
  | some parent => some parent
  | none => chain.getHeader header.parentHash (number - 1)

def verifyCascadingFields (C : Crypto) (cfg : Config) (chain : ChainReader) (header : Header)
    (parents : List Header) : Except Error Unit := do
  let number ← header.numberU64
  if number = 0 then return ()
  match parentHeader chain header parents number with
  | none => throw .errUnknownAncestor
  | some parent =>
    if (← parent.numberU64) ≠ number - 1 ∨ C.hash parent ≠ header.parentHash then
      throw .errUnknownAncestor
    if parent.time + cfg.blockPeriod > header.time then throw .errInvalidTimestamp
    verifySigner C chain header parents
    verifyCommittedSeals C chain header parents

/-- `verifyHeader`, with `now` the clock's `Unix()` value. -/
def verifyHeader (C : Crypto) (cfg : Config) (now : Int) (chain : ChainReader) (header : Header)
    (parents : List Header) : Except Error Unit := do
  if header.number = none then throw .errUnknownBlock
  if toInt64 header.time > now then throw .errFutureBlock
  if (extractExtra header).toOption = none then throw .errInvalidExtraDataFormat
  if header.nonce ≠ emptyNonce ∧ header.nonce ≠ nonceAuthVote ∧ header.nonce ≠ nonceDropVote then
    throw .errInvalidNonce
  if header.mixDigest ≠ C.bftDigest then throw .errInvalidMixDigest
  if header.uncleHash ≠ C.nilUncleHash then throw .errInvalidUncleHash
  if header.difficulty ≠ some 1 then throw .errInvalidDifficulty
  verifyCascadingFields C cfg chain header parents

theorem numberU64_of_eq {h : Header} {n : UInt64} (hn : h.number = some n) : h.numberU64 = .ok n := by
  simp [Header.numberU64, hn]

theorem verifyCommittedSeals_ok_iff_loop (C : Crypto) (chain : ChainReader) {h : Header}
    {parents : List Header} {n : UInt64} (hn : h.number = some n) (hn0 : n ≠ 0) {V : List Address}
    (hV : retrieveValidators chain h parents = .ok V) {e : ConsensusExtra} (he : extractExtra h = .ok e) :
    verifyCommittedSeals C chain h parents = .ok () ↔
      e.committedSeal ≠ [] ∧ ∃ k S', removeSigners (C.getSignatureAddress (prepareCommittedSeal (C.hash h)))
        .errInvalidSignature .errInvalidCommittedSeals 0 (ValidatorSet.newSet V) e.committedSeal =
          .ok (k, S') ∧ S'.quorum ≤ k := by
  by_cases hc : e.committedSeal = []
  · simp [verifyCommittedSeals, numberU64_of_eq hn, hn0, hV, he, hc]
  · simp [verifyCommittedSeals, numberU64_of_eq hn, hn0, hV, he, hc, except_bind_eq_ok]

theorem verifyCommittedSeals_ok_iff (C : Crypto) (chain : ChainReader) {h : Header}
    {parents : List Header} {n : UInt64} (hn : h.number = some n) (hn0 : n ≠ 0) {V : List Address}
    (hV : retrieveValidators chain h parents = .ok V) {e : ConsensusExtra} (he : extractExtra h = .ok e) :
    verifyCommittedSeals C chain h parents = .ok () ↔
      e.committedSeal ≠ [] ∧ ∃ signers,
        Recovers (C.getSignatureAddress (prepareCommittedSeal (C.hash h))) e.committedSeal signers ∧
        signers.Nodup ∧ (∀ a ∈ signers, a ∈ V) ∧
        (2 * (V.dedup.length - signers.length) + 2) / 3 ≤ signers.length := by
  rw [verifyCommittedSeals_ok_iff_loop C chain hn hn0 hV he]
  refine and_congr_right fun _ => ⟨?_, ?_⟩
  · rintro ⟨k, S', hloop, hq⟩
    obtain ⟨signers, hr, hnd, hsub, rfl, hS⟩ := (removeSigners_ok_iff _ _ _ _ _ _ _ _).mp hloop
    have hlen := diff_length_add hnd hsub
    refine ⟨signers, hr, hnd, fun a ha => List.mem_dedup.mp (hsub a ha), ?_⟩
    simp only [ValidatorSet.quorum, ValidatorSet.size, hS, ValidatorSet.newSet] at hq hlen
    omega
  · rintro ⟨signers, hr, hnd, hsub, hq⟩
    have hsub' : ∀ a ∈ signers, a ∈ (ValidatorSet.newSet V).validators :=
      fun a ha => List.mem_dedup.mpr (hsub a ha)
    have hlen := diff_length_add hnd hsub'
    refine ⟨0 + signers.length, ⟨V.dedup.diff signers, (List.nodup_dedup V).diff⟩,
      (removeSigners_ok_iff _ _ _ _ _ _ _ _).mpr ⟨signers, hr, hnd, hsub', rfl, rfl⟩, ?_⟩
    simp only [ValidatorSet.quorum, ValidatorSet.size, ValidatorSet.newSet] at hlen ⊢
    omega

theorem verifyCommittedSeals_ok_of_signers (C : Crypto) (chain : ChainReader) {h : Header}
    {parents : List Header} {n : UInt64} (hn : h.number = some n) (hn0 : n ≠ 0) {V : List Address}
    (hV : retrieveValidators chain h parents = .ok V) {e : ConsensusExtra} (he : extractExtra h = .ok e)
    {signers : List Address}
    (hr : Recovers (C.getSignatureAddress (prepareCommittedSeal (C.hash h))) e.committedSeal signers)
    (hne : signers ≠ []) (hnd : signers.Nodup) (hsub : ∀ a ∈ signers, a ∈ V)
    (hq : 2 * V.dedup.length ≤ 5 * signers.length) :
    verifyCommittedSeals C chain h parents = .ok () := by
  refine (verifyCommittedSeals_ok_iff C chain hn hn0 hV he).mpr
    ⟨fun h0 => hne (List.eq_nil_of_length_eq_zero (by rw [← hr.length_eq, h0]; rfl)),
      signers, hr, hnd, hsub, by omega⟩

def sampleCrypto : Crypto where
  hash _ := .zero 32
  getSignatureAddress _ sig := .ok (.fill 20 (sig.headD 0))
  ecrecover _ := .ok (.fill 20 1)
  bftDigest := .zero 32
  nilUncleHash := .zero 32

def sampleValidators : List Address := [.fill 20 1, .fill 20 2, .fill 20 3, .fill 20 4]

/-- The code accepts every certificate the spec accepts: distinct members, at least `Q`. -/
theorem verifyCommittedSeals_ok_of_certified (C : Crypto) (chain : ChainReader) {h : Header}
    {parents : List Header} {n : UInt64} (hn : h.number = some n) (hn0 : n ≠ 0) {V : List Address}
    (hV : retrieveValidators chain h parents = .ok V) {e : ConsensusExtra} (he : extractExtra h = .ok e)
    {signers : List Address}
    (hr : Recovers (C.getSignatureAddress (prepareCommittedSeal (C.hash h))) e.committedSeal signers)
    (hS : 0 < (ValidatorSet.newSet V).size) (hc : Certified (ValidatorSet.newSet V) signers) :
    verifyCommittedSeals C chain h parents = .ok () := by
  obtain ⟨hnd, hsub, hq⟩ := hc
  simp only [ValidatorSet.quorum, ValidatorSet.size, ValidatorSet.newSet] at hS hq
  exact verifyCommittedSeals_ok_of_signers C chain hn hn0 hV he hr
    (fun h0 => by simp [h0] at hq; omega) hnd (fun a ha => List.mem_dedup.mp (hsub a ha)) (by omega)

set_option maxRecDepth 20000 in
theorem verifyCommittedSeals_ok_of_certified_three :
    Certified (ValidatorSet.newSet sampleValidators) [.fill 20 1, .fill 20 2, .fill 20 3] ∧
      verifyCommittedSeals sampleCrypto ⟨fun _ _ => none, fun _ => none⟩
        (.withExtra 1 ⟨[], [], [[1], [2], [3]]⟩) [.withExtra 0 ⟨sampleValidators, [], []⟩] = .ok () :=
  have hc : Certified (ValidatorSet.newSet sampleValidators) [.fill 20 1, .fill 20 2, .fill 20 3] :=
    ⟨by decide, by decide, by decide⟩
  ⟨hc, verifyCommittedSeals_ok_of_certified sampleCrypto ⟨fun _ _ => none, fun _ => none⟩
    (h := .withExtra 1 ⟨[], [], [[1], [2], [3]]⟩) (n := 1) rfl (by decide) (V := sampleValidators) rfl
    (e := ⟨[], [], [[1], [2], [3]]⟩) (by decide) (.cons rfl (.cons rfl (.cons rfl .nil))) (by decide) hc⟩

/-- Two seals of four validators pass: the loop leaves two validators, whose quorum is two. -/
theorem verifyCommittedSeals_two_of_four (C : Crypto) (chain : ChainReader) (h : Header)
    (parents : List Header) (n : UInt64) (hn : h.number = some n) (hn0 : n ≠ 0)
    (V : List Address) (hV : retrieveValidators chain h parents = .ok V) (hnd : V.Nodup)
    (h4 : V.length = 4) (e : ConsensusExtra) (he : extractExtra h = .ok e) (a b : Address)
    (hab : a ≠ b) (ha : a ∈ V) (hb : b ∈ V)
    (hr : Recovers (C.getSignatureAddress (prepareCommittedSeal (C.hash h))) e.committedSeal [a, b]) :
    verifyCommittedSeals C chain h parents = .ok () ∧
      e.committedSeal.length < (ValidatorSet.newSet V).quorum := by
  have hd : V.dedup = V := List.dedup_eq_self.mpr hnd
  refine ⟨verifyCommittedSeals_ok_of_signers C chain hn hn0 hV he hr (List.cons_ne_nil _ _)
    (by simp [hab]) (by simp [ha, hb]) (by simp [hd, h4]), ?_⟩
  simp [ValidatorSet.quorum, ValidatorSet.size, ValidatorSet.newSet, hd, h4, hr.length_eq]

set_option maxRecDepth 20000 in
theorem verifyCommittedSeals_two_of_four_sample :
    verifyCommittedSeals sampleCrypto ⟨fun _ _ => none, fun _ => none⟩
        (.withExtra 1 ⟨[], [], [[1], [2]]⟩) [.withExtra 0 ⟨sampleValidators, [], []⟩] = .ok () ∧
      2 < (ValidatorSet.newSet sampleValidators).quorum :=
  verifyCommittedSeals_two_of_four sampleCrypto ⟨fun _ _ => none, fun _ => none⟩
    (.withExtra 1 ⟨[], [], [[1], [2]]⟩) [.withExtra 0 ⟨sampleValidators, [], []⟩] 1 rfl (by decide)
    sampleValidators (by decide) (by decide) rfl ⟨[], [], [[1], [2]]⟩ (by decide) (.fill 20 1) (.fill 20 2)
    (by decide) (by decide) (by decide) (.cons rfl (.cons rfl .nil))

/-- Two headers on one parent both pass with disjoint signers, although `F + 1 = 2`. -/
theorem verifyCommittedSeals_disjoint_signers (C : Crypto) (chain : ChainReader) (h₁ h₂ : Header)
    (parents : List Header) (n : UInt64) (hn₁ : h₁.number = some n) (hn₂ : h₂.number = some n)
    (hn0 : n ≠ 0) (a b c d : Address) (hnd : [a, b, c, d].Nodup)
    (hV₁ : retrieveValidators chain h₁ parents = .ok [a, b, c, d])
    (hV₂ : retrieveValidators chain h₂ parents = .ok [a, b, c, d])
    (e₁ e₂ : ConsensusExtra) (he₁ : extractExtra h₁ = .ok e₁) (he₂ : extractExtra h₂ = .ok e₂)
    (hr₁ : Recovers (C.getSignatureAddress (prepareCommittedSeal (C.hash h₁))) e₁.committedSeal [a, b])
    (hr₂ : Recovers (C.getSignatureAddress (prepareCommittedSeal (C.hash h₂))) e₂.committedSeal [c, d]) :
    verifyCommittedSeals C chain h₁ parents = .ok () ∧ verifyCommittedSeals C chain h₂ parents = .ok () ∧
      List.Disjoint [a, b] [c, d] ∧ (ValidatorSet.newSet [a, b, c, d]).f + 1 = 2 := by
  have hd : [a, b, c, d].dedup = [a, b, c, d] := List.dedup_eq_self.mpr hnd
  simp only [List.nodup_cons, List.mem_cons, List.mem_singleton, not_or] at hnd
  refine ⟨verifyCommittedSeals_ok_of_signers C chain hn₁ hn0 hV₁ he₁ hr₁ (List.cons_ne_nil _ _)
      (by simp [hnd]) (by simp) (by simp [hd]),
    verifyCommittedSeals_ok_of_signers C chain hn₂ hn0 hV₂ he₂ hr₂ (List.cons_ne_nil _ _)
      (by simp [hnd]) (by simp) (by simp [hd]), ?_, ?_⟩
  · simp [List.Disjoint]
    tauto
  · simp [ValidatorSet.f, ValidatorSet.size, ValidatorSet.newSet, hd]

set_option maxRecDepth 20000 in
theorem verifyCommittedSeals_disjoint_signers_sample :
    verifyCommittedSeals sampleCrypto ⟨fun _ _ => none, fun _ => none⟩
        (.withExtra 1 ⟨[], [], [[1], [2]]⟩) [.withExtra 0 ⟨sampleValidators, [], []⟩] = .ok () ∧
      verifyCommittedSeals sampleCrypto ⟨fun _ _ => none, fun _ => none⟩
        (.withExtra 1 ⟨[], [], [[3], [4]]⟩) [.withExtra 0 ⟨sampleValidators, [], []⟩] = .ok () ∧
      List.Disjoint ([.fill 20 1, .fill 20 2] : List Address) [.fill 20 3, .fill 20 4] ∧
      (ValidatorSet.newSet sampleValidators).f + 1 = 2 :=
  verifyCommittedSeals_disjoint_signers sampleCrypto ⟨fun _ _ => none, fun _ => none⟩
    (.withExtra 1 ⟨[], [], [[1], [2]]⟩) (.withExtra 1 ⟨[], [], [[3], [4]]⟩)
    [.withExtra 0 ⟨sampleValidators, [], []⟩] 1 rfl rfl (by decide) (.fill 20 1) (.fill 20 2) (.fill 20 3)
    (.fill 20 4) (by decide) (by decide) (by decide) ⟨[], [], [[1], [2]]⟩ ⟨[], [], [[3], [4]]⟩ (by decide)
    (by decide) (.cons rfl (.cons rfl .nil)) (.cons rfl (.cons rfl .nil))

theorem retrieveValidators_last (chain : ChainReader) (h : Header) (ps : List Header) (p : Header) :
    retrieveValidators chain h (ps ++ [p]) = (extractExtra p).map (·.validators) := by
  simp [retrieveValidators]

theorem retrieveValidators_canonical {chain : ChainReader} {h : Header} {n : UInt64}
    (hn : h.number = some n) (hn0 : n ≠ 0) {p : Header} (hc : chain.getHeaderByNumber (n - 1) = some p) :
    retrieveValidators chain h [] = (extractExtra p).map (·.validators) := by
  simp [retrieveValidators, retrieveSavedValidators, numberU64_of_eq hn, hn0, hc]

/-- The two paths agree when the parent found by hash is the canonical header. -/
theorem verifyHeader_canonical_parent (C : Crypto) (cfg : Config) (now : Int) (chain : ChainReader)
    (h : Header) (n : UInt64) (hn : h.number = some n) (hn0 : n ≠ 0) (p : Header) (ps : List Header)
    (hp : chain.getHeader h.parentHash (n - 1) = some p)
    (hc : chain.getHeaderByNumber (n - 1) = some p) :
    verifyHeader C cfg now chain h [] = verifyHeader C cfg now chain h (ps ++ [p]) := by
  have hV : retrieveValidators chain h [] = retrieveValidators chain h (ps ++ [p]) := by
    rw [retrieveValidators_last, retrieveValidators_canonical hn hn0 hc]
  have hP : parentHeader chain h [] n = parentHeader chain h (ps ++ [p]) n := by
    simp [parentHeader, hp]
  simp only [verifyHeader, verifyCascadingFields, verifySigner, verifyCommittedSeals, numberU64_of_eq hn,
    except_bind_ok, hV, hP]

def chainOf (C : Crypto) (stored canonical : List Header) : ChainReader where
  getHeader hash number := stored.find? fun x => C.hash x = hash ∧ x.number = some number
  getHeaderByNumber number := canonical.find? fun x => x.number = some number

def numberedCrypto : Crypto :=
  { sampleCrypto with
    hash := fun h => ⟨UInt8.ofNat (h.number.getD 0).toNat :: h.extra.foldl (· + ·) 0 :: List.replicate 30 0, rfl⟩ }

/-- A chain forked at height 1: the canonical block's validators are `[fill 20 2]`, the side
block's `[fill 20 1]`, and the side block's child is signed and sealed by `fill 20 1`. -/
def forkGenesis : Header := .withExtra 0 ⟨[.fill 20 1, .fill 20 2], [], []⟩

def forkCanonical : Header :=
  { Header.withExtra 1 ⟨[.fill 20 2], [], []⟩ with parentHash := numberedCrypto.hash forkGenesis }

def forkSide : Header :=
  { Header.withExtra 1 ⟨[.fill 20 1], [], []⟩ with parentHash := numberedCrypto.hash forkGenesis }

def forkChild : Header :=
  { Header.withExtra 2 ⟨[], [], [[1]]⟩ with parentHash := numberedCrypto.hash forkSide }

def forkChain : ChainReader :=
  chainOf numberedCrypto [forkGenesis, forkCanonical, forkSide] [forkGenesis, forkCanonical]

set_option maxRecDepth 20000 in
/-- The side block's child is accepted with the side block as its parent, and refused when
the side block is found by hash, since the validators are read from the canonical block. -/
theorem verifyHeader_side_parent_disagrees :
    numberedCrypto.hash forkCanonical ≠ numberedCrypto.hash forkSide ∧
      forkChain.getHeader forkChild.parentHash 1 = some forkSide ∧
      forkChain.getHeaderByNumber 1 = some forkCanonical ∧
      verifyHeader numberedCrypto ⟨0⟩ 0 forkChain forkChild [] = .error .errUnauthorized ∧
      verifyHeader numberedCrypto ⟨0⟩ 0 forkChain forkChild [forkSide] = .ok () := by
  decide

theorem verifyHeader_eq (C : Crypto) (cfg : Config) (now : Int) (chain : ChainReader) (h : Header)
    (parents : List Header) :
    verifyHeader C cfg now chain h parents =
      if h.number = none then .error .errUnknownBlock
      else if toInt64 h.time > now then .error .errFutureBlock
      else if (extractExtra h).toOption = none then .error .errInvalidExtraDataFormat
      else if h.nonce ≠ emptyNonce ∧ h.nonce ≠ nonceAuthVote ∧ h.nonce ≠ nonceDropVote then
        .error .errInvalidNonce
      else if h.mixDigest ≠ C.bftDigest then .error .errInvalidMixDigest
      else if h.uncleHash ≠ C.nilUncleHash then .error .errInvalidUncleHash
      else if h.difficulty ≠ some 1 then .error .errInvalidDifficulty
      else verifyCascadingFields C cfg chain h parents := rfl

theorem verifyHeader_ok {C : Crypto} {cfg : Config} {now : Int} {chain : ChainReader} {h : Header}
    {parents : List Header} (hok : verifyHeader C cfg now chain h parents = .ok ()) :
    h.number ≠ none ∧ ¬ now < toInt64 h.time ∧ (extractExtra h).toOption ≠ none ∧
      (h.nonce = emptyNonce ∨ h.nonce = nonceAuthVote ∨ h.nonce = nonceDropVote) ∧
      h.mixDigest = C.bftDigest ∧ h.uncleHash = C.nilUncleHash ∧ h.difficulty = some 1 ∧
      verifyCascadingFields C cfg chain h parents = .ok () := by
  simpa only [verifyHeader_eq, ite_error_eq_ok, not_and_or, not_not] using hok

theorem verifyCascadingFields_ok {C : Crypto} {cfg : Config} {chain : ChainReader} {h : Header}
    {parents : List Header} {n : UInt64} (hn : h.number = some n) (hn0 : n ≠ 0)
    (hok : verifyCascadingFields C cfg chain h parents = .ok ()) :
    ∃ p, parentHeader chain h parents n = some p ∧ p.number = some (n - 1) ∧ C.hash p = h.parentHash ∧
      ¬ h.time < p.time + cfg.blockPeriod ∧ verifySigner C chain h parents = .ok () ∧
      verifyCommittedSeals C chain h parents = .ok () := by
  simp only [verifyCascadingFields, numberU64_of_eq hn, hn0, except_bind_ok, if_false] at hok
  split at hok
  · simp at hok
  · rename_i p hp
    cases hpn : p.number with
    | none => simp [Header.numberU64, hpn] at hok
    | some m =>
      simp only [Header.numberU64, hpn, except_bind_ok, except_throw, except_bind_error] at hok
      split_ifs at hok with h1 h2 <;> simp only [except_pure, except_bind_ok, reduceCtorEq] at hok
      simp only [not_or, not_not] at h1
      obtain ⟨a, hs, hc⟩ := except_bind_eq_ok.mp hok
      exact ⟨p, hp, hpn.trans (congrArg some h1.1), h1.2, h2, hs, hc⟩

set_option maxRecDepth 20000 in
/-- Outside those ranges: a header at `2^63` is accepted at clock 0, and one at 0 after a
parent at `2^64 - 1` with period 1. -/
theorem verifyHeader_timestamp_wraps :
    verifyHeader sampleCrypto ⟨0⟩ 0 ⟨fun _ _ => none, fun _ => none⟩
        { Header.withExtra 1 ⟨[], [], [[1]]⟩ with time := 9223372036854775808 }
        [.withExtra 0 ⟨[.fill 20 1], [], []⟩] = .ok () ∧
      ¬ ((9223372036854775808 : UInt64).toNat : Int) ≤ 0 ∧
      verifyHeader sampleCrypto ⟨1⟩ 0 ⟨fun _ _ => none, fun _ => none⟩
        (.withExtra 1 ⟨[], [], [[1]]⟩)
        [{ Header.withExtra 0 ⟨[.fill 20 1], [], []⟩ with time := 18446744073709551615 }] = .ok () ∧
      ¬ ((18446744073709551615 : UInt64).toNat + (1 : UInt64).toNat ≤ (0 : UInt64).toNat) := by
  decide

end SmiloBft.Tendermint
