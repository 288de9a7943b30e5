import SmiloBft.Tendermint.Prepare

/-!
# `Finalize` of the tendermint backend

`Finalize` writes the validators of the autonity contract into the extra-data with
`types.PrepareExtra`, over the sorted list `Prepare` wrote there, and sets the uncle
hash. A header `Prepare` and `Finalize` produce carries the contract's list, in the
contract's order, and passes every check of `verifyHeader` that does not read the
clock or the chain (`verifyHeader_finalized`): what is left is the timestamp
against the clock, and the parent, seals and signer checks of
`verifyCascadingFields`.
-/

namespace SmiloBft.Tendermint

open Rlp

set_option autoImplicit false

/-- `Finalize` on the header: `getValidators` is `sb.getValidators` and `redistribution` the
contract's `ApplyPerformRedistribution`; the state root and the block are not modelled. -/
def finalize (C : Crypto) (getValidators : Header → Except Error (List Address))
    (redistribution : Option (Header → Except Error Unit)) (header : Header) : Except Error Header := do
  let _ ← header.numberU64
  let validators ← getValidators header
  match redistribution with
  | some applyPerformRedistribution =>
    if (← header.numberU64) > 1 then applyPerformRedistribution header
  | none => pure ()
  let extra := prepareExtraBytes header.extra validators
  pure { header with extra := extra, uncleHash := C.nilUncleHash }

theorem finalize_ok {C : Crypto} {getValidators : Header → Except Error (List Address)}
    {redistribution : Option (Header → Except Error Unit)} {header h' : Header}
    (hok : finalize C getValidators redistribution header = .ok h') :
    ∃ V, getValidators header = .ok V ∧
      h' = { header with extra := prepareExtraBytes header.extra V, uncleHash := C.nilUncleHash } := by
  cases hn : header.numberU64 with
  | error err => simp [finalize, hn] at hok
  | ok n =>
    simp only [finalize, hn, except_bind_ok] at hok
    obtain ⟨V, hV, hok⟩ := except_bind_eq_ok.mp hok
    refine ⟨V, hV, ?_⟩
    cases redistribution with
    | none => exact (Except.ok.inj hok).symm
    | some apply =>
      simp only [except_bind_ok] at hok
      split_ifs at hok
      · obtain ⟨_, -, hok⟩ := except_bind_eq_ok.mp hok
        exact (Except.ok.inj hok).symm
      · exact (Except.ok.inj hok).symm

theorem extractExtra_prepareExtraBytes (header : Header) (V : List Address) (he : Encodable ⟨V, [], []⟩) :
    extractExtra { header with extra := prepareExtraBytes header.extra V } = .ok ⟨V, [], []⟩ :=
  extractExtra_written { header with extra := header.extra ++ List.replicate (sportExtraVanity - header.extra.length) 0 }
    _ (by simp only [List.length_append, List.length_replicate]; omega) he

theorem prepare_fields {C : Crypto} {cfg : Config} {now₁ now₂ : Int} {address : Address} {chain : ChainReader}
    {header : Header} (hok : (prepare C cfg now₁ now₂ address chain header).2 = none) :
    (prepare C cfg now₁ now₂ address chain header).1.number = header.number ∧
      (prepare C cfg now₁ now₂ address chain header).1.nonce = emptyNonce ∧
      (prepare C cfg now₁ now₂ address chain header).1.mixDigest = C.bftDigest ∧
      (prepare C cfg now₁ now₂ address chain header).1.difficulty = some 1 := by
  cases hn : header.number with
  | none => simp [prepare, Header.numberU64, hn] at hok
  | some n =>
    cases hp : chain.getHeader header.parentHash (n - 1) with
    | none => simp [prepare, Header.numberU64, hn, hp] at hok
    | some p =>
      obtain ⟨vals, -, heq⟩ := prepare_ok hn hp hok
      simp [heq, hn]

/-- A header `Prepare` and `Finalize` produce holds the contract's validators, and
`verifyHeader` on it does only the clock check and `verifyCascadingFields`. -/
theorem verifyHeader_finalized (C : Crypto) (cfg : Config) (now₁ now₂ : Int) (address : Address)
    (chain : ChainReader) (header : Header) (getValidators : Header → Except Error (List Address))
    (redistribution : Option (Header → Except Error Unit)) (h' : Header)
    (hprep : (prepare C cfg now₁ now₂ address chain header).2 = none)
    (hfin : finalize C getValidators redistribution (prepare C cfg now₁ now₂ address chain header).1 = .ok h')
    (V : List Address) (hV : getValidators (prepare C cfg now₁ now₂ address chain header).1 = .ok V)
    (he : Encodable ⟨V, [], []⟩) :
    extractExtra h' = .ok ⟨V, [], []⟩ ∧
      ∀ (now' : Int) (chain' : ChainReader) (parents : List Header),
        verifyHeader C cfg now' chain' h' parents =
          if toInt64 h'.time > now' then .error .errFutureBlock else verifyCascadingFields C cfg chain' h' parents := by
  obtain ⟨hnum, hnonce, hmix, hdiff⟩ := prepare_fields hprep
  have hnum' : header.number ≠ none := fun h0 => by simp [prepare, Header.numberU64, h0] at hprep
  obtain ⟨V', hV', rfl⟩ := finalize_ok hfin
  rw [hV] at hV'
  cases hV'
  generalize (prepare C cfg now₁ now₂ address chain header).1 = h₀ at hnum hnonce hmix hdiff
  have hx : extractExtra { h₀ with extra := prepareExtraBytes h₀.extra V, uncleHash := C.nilUncleHash } =
      .ok ⟨V, [], []⟩ :=
    extractExtra_prepareExtraBytes { h₀ with uncleHash := C.nilUncleHash } V he
  refine ⟨hx, fun now' chain' parents => ?_⟩
  rw [verifyHeader_eq]
  simp only [hx, Except.toOption]
  simp only [hnum, hnum', hnonce, hmix, hdiff, ne_eq, not_true_eq_false, false_and, if_false, reduceCtorEq]

set_option maxRecDepth 20000 in
theorem verifyHeader_finalized_sample :
    (prepare sampleCrypto ⟨2⟩ 5 5 (.fill 20 9)
        ⟨fun _ _ => some (.withExtra 0 ⟨[.fill 20 2, .fill 20 1], [], []⟩), fun _ => none⟩
        (.withExtra 1 ⟨[], [], []⟩)).2 = none ∧
      ∃ h', finalize sampleCrypto (fun _ => .ok [.fill 20 3]) none
          (prepare sampleCrypto ⟨2⟩ 5 5 (.fill 20 9)
            ⟨fun _ _ => some (.withExtra 0 ⟨[.fill 20 2, .fill 20 1], [], []⟩), fun _ => none⟩
            (.withExtra 1 ⟨[], [], []⟩)).1 = .ok h' ∧
        extractExtra h' = .ok ⟨[.fill 20 3], [], []⟩ ∧
        ∀ (now' : Int) (chain' : ChainReader) (parents : List Header),
          verifyHeader sampleCrypto ⟨2⟩ now' chain' h' parents =
            if toInt64 h'.time > now' then .error .errFutureBlock
            else verifyCascadingFields sampleCrypto ⟨2⟩ chain' h' parents :=
  have hprep : (prepare sampleCrypto ⟨2⟩ 5 5 (.fill 20 9)
      ⟨fun _ _ => some (.withExtra 0 ⟨[.fill 20 2, .fill 20 1], [], []⟩), fun _ => none⟩
      (.withExtra 1 ⟨[], [], []⟩)).2 = none := rfl
  ⟨hprep, _, rfl, verifyHeader_finalized sampleCrypto ⟨2⟩ 5 5 (.fill 20 9)
    ⟨fun _ _ => some (.withExtra 0 ⟨[.fill 20 2, .fill 20 1], [], []⟩), fun _ => none⟩
    (.withExtra 1 ⟨[], [], []⟩) (fun _ => .ok [.fill 20 3]) none _ hprep rfl [.fill 20 3] rfl (by decide)⟩

end SmiloBft.Tendermint
