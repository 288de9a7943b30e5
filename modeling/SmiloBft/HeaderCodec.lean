import SmiloBft.Rlp

/-!
# Consensus extra-data of a header

`extractExtra` and the signing-hash header are modelled from the spec; the
writers `prepareExtra`, `writeSeal` and `writeCommittedSeals` are the sport
backend's. A Go function that mutates its `*types.Header` returns the header
it leaves behind together with its error.
-/

namespace SmiloBft

open Rlp

set_option autoImplicit false

def sportExtraVanity : Nat := 32

def sportExtraSeal : Nat := 65

/-- Modelled from the spec: `types.ExtractSportExtra` and `types.ExtractBFTHeaderExtra`
are not in the repository's files. The extra is `vanity[32] ‖ RLP(ConsensusExtra)`. -/
def extractExtra (h : Header) : Except Error ConsensusExtra :=
  if h.extra.length < sportExtraVanity then .error .errInvalidSportHeaderExtra
  else match decodeExtra (h.extra.drop sportExtraVanity) with
    | some e => .ok e
    | none => .error .errRlpDecode

/-- Modelled from the spec: `types.SportFilteredHeader(h, false)`, the header with both
seals cleared, or nil. -/
def sportFilteredHeader (h : Header) : Option Header :=
  match extractExtra h with
  | .error _ => none
  | .ok e => some { h with
      extra := h.extra.take sportExtraVanity ++ encodeExtra { e with proposerSeal := [], committedSeal := [] } }

def sigHash (rlpHash : Option Header → Hash) (h : Header) : Hash := rlpHash (sportFilteredHeader h)

/-- `prepareExtra`: pads `header.Extra` to the vanity through the pointer, and returns
the vanity followed by the fullnodes with empty seals. -/
def prepareExtra (header : Header) (vals : List Address) : Header × List UInt8 :=
  let header := if header.extra.length < sportExtraVanity then
      { header with extra := header.extra ++ List.replicate (sportExtraVanity - header.extra.length) 0 }
    else header
  (header, header.extra.take sportExtraVanity ++ encodeExtra ⟨vals, [], []⟩)

def writeSeal (h : Header) (sig : List UInt8) : Header × Option Error :=
  if sig.length % sportExtraSeal ≠ 0 then (h, some .errInvalidSignature)
  else match extractExtra h with
    | .error err => (h, some err)
    | .ok sportExtra =>
      ({ h with extra := h.extra.take sportExtraVanity ++ encodeExtra { sportExtra with proposerSeal := sig } },
        none)

def writeCommittedSeals (h : Header) (committedSeals : List (List UInt8)) : Header × Option Error :=
  if committedSeals = [] then (h, some .errInvalidCommittedSeals)
  else if committedSeals.any (fun sig => sig.length ≠ sportExtraSeal) then
    (h, some .errInvalidCommittedSeals)
  else match extractExtra h with
    | .error err => (h, some err)
    | .ok sportExtra =>
      ({ h with
          extra := h.extra.take sportExtraVanity ++ encodeExtra { sportExtra with committedSeal := committedSeals } },
        none)

/-- Modelled from the spec: `types.PrepareExtra`, the caller's extra padded to the
vanity, followed by the validators with empty seals. -/
def prepareExtraBytes (extra : List UInt8) (vals : List Address) : List UInt8 :=
  (extra ++ List.replicate (sportExtraVanity - extra.length) 0).take sportExtraVanity ++
    encodeExtra ⟨vals, [], []⟩

/-- Modelled from the spec: `PrepareCommittedSeal`, the block hash followed by `0x02`. -/
def prepareCommittedSeal (hash : Hash) : List UInt8 := hash.bytes ++ [0x02]

def Header.ofExtra (extra : List UInt8) : Header :=
  { parentHash := .zero 32, uncleHash := .zero 32, coinbase := .zero 20, difficulty := some 1,
    number := some 1, time := 0, extra := extra, mixDigest := .zero 32, nonce := .zero 8 }

def Header.withExtra (number : UInt64) (e : ConsensusExtra) : Header :=
  { Header.ofExtra (List.replicate 32 0 ++ encodeExtra e) with number := some number }

theorem extractExtra_length {h : Header} {e : ConsensusExtra} (hx : extractExtra h = .ok e) :
    sportExtraVanity ≤ h.extra.length := by
  unfold extractExtra at hx
  split_ifs at hx with hl
  exact Nat.le_of_not_lt hl

theorem take_vanity_append {bs : List UInt8} (hl : sportExtraVanity ≤ bs.length) (tail : List UInt8) :
    (bs.take sportExtraVanity ++ tail).take sportExtraVanity = bs.take sportExtraVanity := by
  simp [List.take_append_eq_append_take, hl]

theorem extractExtra_written (h : Header) (e : ConsensusExtra) (hl : sportExtraVanity ≤ h.extra.length)
    (he : Encodable e) :
    extractExtra { h with extra := h.extra.take sportExtraVanity ++ encodeExtra e } = .ok e := by
  have hv : (h.extra.take sportExtraVanity).length = sportExtraVanity := by simp [hl]
  simp [extractExtra, List.drop_left' hv, decodeExtra_encodeExtra e he]
  omega

theorem sportFilteredHeader_written {h : Header} {e : ConsensusExtra} (hx : extractExtra h = .ok e)
    (e' : ConsensusExtra) (hv : e'.validators = e.validators) (he' : Encodable e') :
    sportFilteredHeader { h with extra := h.extra.take sportExtraVanity ++ encodeExtra e' } =
      sportFilteredHeader h := by
  have hl := extractExtra_length hx
  simp only [sportFilteredHeader, extractExtra_written h e' hl he', hx, take_vanity_append hl, hv]

theorem writeSeal_ok {h : Header} {e : ConsensusExtra} (hx : extractExtra h = .ok e) {sig : List UInt8}
    (hs : sig.length % sportExtraSeal = 0) :
    writeSeal h sig =
      ({ h with extra := h.extra.take sportExtraVanity ++ encodeExtra { e with proposerSeal := sig } }, none) := by
  simp [writeSeal, hs, hx]

theorem writeCommittedSeals_ok {h : Header} {e : ConsensusExtra} (hx : extractExtra h = .ok e)
    {committedSeals : List (List UInt8)} (hne : committedSeals ≠ [])
    (hs : ∀ sig ∈ committedSeals, sig.length = sportExtraSeal) :
    writeCommittedSeals h committedSeals =
      ({ h with extra := h.extra.take sportExtraVanity ++ encodeExtra { e with committedSeal := committedSeals } },
        none) := by
  simp [writeCommittedSeals, hne, hx]
  exact hs

theorem writeSeal_error (h : Header) (sig : List UInt8) (herr : (writeSeal h sig).2 ≠ none) :
    (writeSeal h sig).1 = h := by
  unfold writeSeal at herr ⊢
  split_ifs at herr ⊢
  · rfl
  · split <;> simp_all

theorem writeCommittedSeals_error (h : Header) (committedSeals : List (List UInt8))
    (herr : (writeCommittedSeals h committedSeals).2 ≠ none) :
    (writeCommittedSeals h committedSeals).1 = h := by
  unfold writeCommittedSeals at herr ⊢
  split_ifs at herr ⊢
  · rfl
  · rfl
  · split <;> simp_all

theorem prepareExtra_vanity (header : Header) (vals : List Address) :
    (prepareExtra header vals).2.take sportExtraVanity =
      (header.extra ++ List.replicate (sportExtraVanity - header.extra.length) 0).take sportExtraVanity := by
  unfold prepareExtra
  split_ifs with h
  · have hl : sportExtraVanity ≤
        (header.extra ++ List.replicate (sportExtraVanity - header.extra.length) 0).length := by
      simp only [List.length_append, List.length_replicate]; omega
    simp [take_vanity_append hl]
  · have hl : sportExtraVanity ≤ header.extra.length := Nat.le_of_not_lt h
    simp [take_vanity_append hl, Nat.sub_eq_zero_of_le hl]

theorem prepareExtra_extract (header : Header) (vals : List Address) (he : Encodable ⟨vals, [], []⟩) :
    extractExtra { (prepareExtra header vals).1 with extra := (prepareExtra header vals).2 } =
      .ok ⟨vals, [], []⟩ := by
  unfold prepareExtra
  split_ifs with h
  · exact extractExtra_written { header with extra := header.extra ++ _ } _
      (by simp only [List.length_append, List.length_replicate]; omega) he
  · exact extractExtra_written header _ (Nat.le_of_not_lt h) he

/-- `writeSeal` and `writeCommittedSeals` replace their own field and nothing else, and
change nothing when they fail; `prepareExtra` writes the fullnodes with empty seals. -/
theorem sport_extra_writes_roundtrip (rlpHash : Option Header → Hash) (h : Header)
    (V : List Address) (s : List UInt8) (cs : List (List UInt8))
    (hx : extractExtra h = .ok ⟨V, s, cs⟩) :
    (∀ s', s'.length % sportExtraSeal = 0 → Encodable ⟨V, s', cs⟩ →
      (writeSeal h s').2 = none ∧ extractExtra (writeSeal h s').1 = .ok ⟨V, s', cs⟩ ∧
      (writeSeal h s').1.extra.take sportExtraVanity = h.extra.take sportExtraVanity ∧
      sigHash rlpHash (writeSeal h s').1 = sigHash rlpHash h) ∧
    (∀ cs', cs' ≠ [] → (∀ c ∈ cs', c.length = sportExtraSeal) → Encodable ⟨V, s, cs'⟩ →
      (writeCommittedSeals h cs').2 = none ∧
      extractExtra (writeCommittedSeals h cs').1 = .ok ⟨V, s, cs'⟩ ∧
      (writeCommittedSeals h cs').1.extra.take sportExtraVanity = h.extra.take sportExtraVanity ∧
      sigHash rlpHash (writeCommittedSeals h cs').1 = sigHash rlpHash h) ∧
    (∀ (h₀ : Header) (vals : List Address), Encodable ⟨vals, [], []⟩ →
      extractExtra { (prepareExtra h₀ vals).1 with extra := (prepareExtra h₀ vals).2 } =
        .ok ⟨vals, [], []⟩ ∧
      (prepareExtra h₀ vals).2.take sportExtraVanity =
        (h₀.extra ++ List.replicate (sportExtraVanity - h₀.extra.length) 0).take sportExtraVanity) ∧
    (∀ (h₀ : Header) (sig : List UInt8), (writeSeal h₀ sig).2 ≠ none → (writeSeal h₀ sig).1 = h₀) ∧
    (∀ (h₀ : Header) (css : List (List UInt8)),
      (writeCommittedSeals h₀ css).2 ≠ none → (writeCommittedSeals h₀ css).1 = h₀) := by
  have hl := extractExtra_length hx
  refine ⟨fun s' hs he => ?_, fun cs' hne hcs he => ?_,
    fun h₀ vals he => ⟨prepareExtra_extract h₀ vals he, prepareExtra_vanity h₀ vals⟩,
    writeSeal_error, writeCommittedSeals_error⟩
  · rw [writeSeal_ok hx hs]
    exact ⟨rfl, extractExtra_written h _ hl he, take_vanity_append hl _,
      congrArg rlpHash (sportFilteredHeader_written hx _ rfl he)⟩
  · rw [writeCommittedSeals_ok hx hne hcs]
    exact ⟨rfl, extractExtra_written h _ hl he, take_vanity_append hl _,
      congrArg rlpHash (sportFilteredHeader_written hx _ rfl he)⟩

set_option maxRecDepth 20000 in
theorem sport_extra_writes_roundtrip_one_fullnode :
    extractExtra (.ofExtra (List.replicate 32 0 ++ encodeExtra ⟨[.fill 20 1], [], []⟩)) =
        .ok ⟨[.fill 20 1], [], []⟩ ∧
      extractExtra (writeSeal (.ofExtra (List.replicate 32 0 ++ encodeExtra ⟨[.fill 20 1], [], []⟩))
        (List.replicate 65 7)).1 = .ok ⟨[.fill 20 1], List.replicate 65 7, []⟩ := by
  have hx : extractExtra (.ofExtra (List.replicate 32 0 ++ encodeExtra ⟨[.fill 20 1], [], []⟩)) =
      .ok ⟨[.fill 20 1], [], []⟩ := by decide
  exact ⟨hx, ((sport_extra_writes_roundtrip (fun _ => .zero 32) _ _ _ _ hx).1 _
    (by decide) (by decide)).2.1⟩

end SmiloBft
