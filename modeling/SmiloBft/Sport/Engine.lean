import SmiloBft.HeaderCodec
import SmiloBft.ValidatorSet

/-! The sport backend's `backend_engine_sport.go`: `verifySigner`,
`verifyCommittedSeals`, `updateBlock`, and `ecrecover` with its process-wide
cache `recentAddresses`. Hashing, signature recovery, signing and the voting
snapshot are parameters. -/

namespace SmiloBft.Sport

open Rlp

set_option autoImplicit false

/-- `Header.Hash`, `rlpHash` and `sport.GetSignatureAddress`, which are not in the
repository's files. -/
structure Crypto where
  hash : Header → Hash
  rlpHash : Option Header → Hash
  getSignatureAddress : List UInt8 → List UInt8 → Except Error Address

/-- Modelled from the spec: the voting snapshot, of which only the fullnode set is read. -/
structure Snapshot where
  fullnodeSet : ValidatorSet

abbrev SnapshotFn := UInt64 → Hash → List Header → Except Error Snapshot

/-- Modelled from the spec: `recentAddresses`, an LRU cache from header hash to signer. -/
abbrev AddressCache := List (Hash × Address)

def AddressCache.get (cache : AddressCache) (key : Hash) : Option Address × AddressCache :=
  match cache.find? (fun p => p.1 = key) with
  | some (_, addr) => (some addr, (key, addr) :: cache.filter (fun p => p.1 ≠ key))
  | none => (none, cache)

def AddressCache.add (size : Nat) (cache : AddressCache) (key : Hash) (addr : Address) : AddressCache :=
  ((key, addr) :: cache.filter (fun p => p.1 ≠ key)).take size

/-- `ecrecover` past the cache: the signer of the proposer seal over `sigHash`. -/
def recoverSigner (S : Crypto) (header : Header) : Except Error Address := do
  let sportExtra ← extractExtra header
  S.getSignatureAddress (sigHash S.rlpHash header).bytes sportExtra.proposerSeal

/-- `ecrecover`, with the cache it leaves; `size` is `inmemoryAddresses`. -/
def ecrecover (S : Crypto) (size : Nat) (cache : AddressCache) (header : Header) :
    Except Error Address × AddressCache :=
  let hash := S.hash header
  match cache.get hash with
  | (some addr, cache) => (.ok addr, cache)
  | (none, cache) =>
    match recoverSigner S header with
    | .error err => (.error err, cache)
    | .ok addr => (.ok addr, cache.add size hash addr)

def recentAddresses (S : Crypto) (size : Nat) (history : List Header) : AddressCache :=
  history.foldl (fun cache header => (ecrecover S size cache header).2) []

def verifySigner (S : Crypto) (size : Nat) (snapshot : SnapshotFn) (cache : AddressCache)
    (header : Header) (parents : List Header) : Except Error Unit × AddressCache :=
  match header.numberU64 with
  | .error err => (.error err, cache)
  | .ok number =>
    if number = 0 then (.error .errUnknownBlock, cache)
    else match snapshot (number - 1) header.parentHash parents with
      | .error err => (.error err, cache)
      | .ok snap =>
        match ecrecover S size cache header with
        | (.error err, cache) => (.error err, cache)
        | (.ok signer, cache) =>
          (if signer ∈ snap.fullnodeSet.validators then .ok () else .error .errUnauthorized, cache)

/-- `verifyCommittedSeals`: the count of seals is compared with `2F` of the snapshot's set. -/
def verifyCommittedSeals (S : Crypto) (snapshot : SnapshotFn) (header : Header) (parents : List Header) :
    Except Error Unit := do
  let number ← header.numberU64
  if number = 0 then return ()
  let snap ← snapshot (number - 1) header.parentHash parents
  let extra ← extractExtra header
  if extra.committedSeal = [] then throw .errEmptyCommittedSeals
  let proposalSeal := prepareCommittedSeal (S.hash header)
  let (validSeal, _) ← removeSigners (S.getSignatureAddress proposalSeal)
    .errInvalidSignature .errInvalidCommittedSeals 0 snap.fullnodeSet extra.committedSeal
  if validSeal < 2 * snap.fullnodeSet.f then throw .errInvalidCommittedSeals
  pure ()

/-- `updateBlock`: signs `sigHash` of the header with `sb.Sign` and writes the seal. -/
def updateBlock (S : Crypto) (sign : List UInt8 → Except Error (List UInt8)) (header : Header) :
    Except Error Header := do
  let sig ← sign (sigHash S.rlpHash header).bytes
  match writeSeal header sig with
  | (header, none) => pure header
  | (_, some err) => throw err

theorem verifyCommittedSeals_ok_iff_loop (S : Crypto) (snapshot : SnapshotFn) {h : Header}
    {parents : List Header} {n : UInt64} (hn : h.number = some n) (hn0 : n ≠ 0) {snap : Snapshot}
    (hsnap : snapshot (n - 1) h.parentHash parents = .ok snap) {e : ConsensusExtra}
    (he : extractExtra h = .ok e) :
    verifyCommittedSeals S snapshot h parents = .ok () ↔
      e.committedSeal ≠ [] ∧ ∃ k S', removeSigners (S.getSignatureAddress (prepareCommittedSeal (S.hash h)))
        .errInvalidSignature .errInvalidCommittedSeals 0 snap.fullnodeSet e.committedSeal = .ok (k, S') ∧
          2 * snap.fullnodeSet.f ≤ k := by
  by_cases hc : e.committedSeal = []
  · simp [verifyCommittedSeals, Header.numberU64, hn, hn0, hsnap, he, hc]
  · simp [verifyCommittedSeals, Header.numberU64, hn, hn0, hsnap, he, hc, except_bind_eq_ok]

theorem verifyCommittedSeals_ok_iff (S : Crypto) (snapshot : SnapshotFn) {h : Header}
    {parents : List Header} {n : UInt64} (hn : h.number = some n) (hn0 : n ≠ 0) {snap : Snapshot}
    (hsnap : snapshot (n - 1) h.parentHash parents = .ok snap) {e : ConsensusExtra}
    (he : extractExtra h = .ok e) :
    verifyCommittedSeals S snapshot h parents = .ok () ↔
      e.committedSeal ≠ [] ∧ ∃ signers,
        Recovers (S.getSignatureAddress (prepareCommittedSeal (S.hash h))) e.committedSeal signers ∧
        signers.Nodup ∧ (∀ a ∈ signers, a ∈ snap.fullnodeSet.validators) ∧
        2 * snap.fullnodeSet.f ≤ signers.length := by
  rw [verifyCommittedSeals_ok_iff_loop S snapshot hn hn0 hsnap he]
  refine and_congr_right fun _ => ⟨?_, ?_⟩
  · rintro ⟨k, S', hloop, hq⟩
    obtain ⟨signers, hr, hnd, hsub, rfl, -⟩ := (removeSigners_ok_iff _ _ _ _ _ _ _ _).mp hloop
    exact ⟨signers, hr, hnd, hsub, by simpa using hq⟩
  · rintro ⟨signers, hr, hnd, hsub, hq⟩
    exact ⟨0 + signers.length, ⟨snap.fullnodeSet.validators.diff signers, snap.fullnodeSet.nodup.diff⟩,
      (removeSigners_ok_iff _ _ _ _ _ _ _ _).mpr ⟨signers, hr, hnd, hsub, rfl, rfl⟩, by simpa using hq⟩

def sampleCrypto : Crypto where
  hash _ := .zero 32
  rlpHash _ := .zero 32
  getSignatureAddress _ sig := .ok (.fill 20 (sig.headD 0))

/-- The code accepts every certificate the spec accepts: `Q ≥ 2F`. -/
theorem verifyCommittedSeals_accepts_certified (S : Crypto) (snapshot : SnapshotFn) {h : Header}
    {parents : List Header} {n : UInt64} (hn : h.number = some n) (hn0 : n ≠ 0) {snap : Snapshot}
    (hsnap : snapshot (n - 1) h.parentHash parents = .ok snap) {e : ConsensusExtra}
    (he : extractExtra h = .ok e) {signers : List Address}
    (hr : Recovers (S.getSignatureAddress (prepareCommittedSeal (S.hash h))) e.committedSeal signers)
    (hS : 0 < snap.fullnodeSet.size) (hc : Certified snap.fullnodeSet signers) :
    verifyCommittedSeals S snapshot h parents = .ok () := by
  obtain ⟨hnd, hsub, hq⟩ := hc
  have hlen := hr.length_eq
  simp only [ValidatorSet.quorum, ValidatorSet.f] at hq
  exact (verifyCommittedSeals_ok_iff S snapshot hn hn0 hsnap he).mpr
    ⟨fun h0 => by simp [h0] at hlen; omega, signers, hr, hnd, hsub, by simp only [ValidatorSet.f]; omega⟩

set_option maxRecDepth 20000 in
theorem verifyCommittedSeals_accepts_certified_three :
    Certified (ValidatorSet.newSet [.fill 20 1, .fill 20 2, .fill 20 3, .fill 20 4])
        [.fill 20 1, .fill 20 2, .fill 20 3] ∧
      verifyCommittedSeals sampleCrypto
        (fun _ _ _ => .ok ⟨.newSet [.fill 20 1, .fill 20 2, .fill 20 3, .fill 20 4]⟩)
        (.withExtra 1 ⟨[], [], [[1], [2], [3]]⟩) [] = .ok () :=
  have hc : Certified (ValidatorSet.newSet [.fill 20 1, .fill 20 2, .fill 20 3, .fill 20 4])
      [.fill 20 1, .fill 20 2, .fill 20 3] := ⟨by decide, by decide, by decide⟩
  ⟨hc, verifyCommittedSeals_accepts_certified sampleCrypto
    (fun _ _ _ => .ok ⟨.newSet [.fill 20 1, .fill 20 2, .fill 20 3, .fill 20 4]⟩)
    (h := .withExtra 1 ⟨[], [], [[1], [2], [3]]⟩) (n := 1) rfl (by decide) rfl (e := ⟨[], [], [[1], [2], [3]]⟩)
    (by decide) (.cons rfl (.cons rfl (.cons rfl .nil))) (by decide) hc⟩

/-- For every fullnode set of at least two, `max 1 (2F)` distinct signers pass,
although they are fewer than `Q = ⌈2N/3⌉`. -/
theorem verifyCommittedSeals_below_quorum (S : Crypto) (snapshot : SnapshotFn) (h : Header)
    (parents : List Header) (n : UInt64) (hn : h.number = some n) (hn0 : n ≠ 0) (snap : Snapshot)
    (hsnap : snapshot (n - 1) h.parentHash parents = .ok snap) (hN : 2 ≤ snap.fullnodeSet.size)
    (e : ConsensusExtra) (he : extractExtra h = .ok e) (signers : List Address)
    (hr : Recovers (S.getSignatureAddress (prepareCommittedSeal (S.hash h))) e.committedSeal signers)
    (hnd : signers.Nodup) (hsub : ∀ a ∈ signers, a ∈ snap.fullnodeSet.validators)
    (hk : signers.length = max 1 (2 * snap.fullnodeSet.f)) :
    verifyCommittedSeals S snapshot h parents = .ok () ∧
      e.committedSeal.length < snap.fullnodeSet.quorum := by
  have hlen := hr.length_eq
  refine ⟨(verifyCommittedSeals_ok_iff S snapshot hn hn0 hsnap he).mpr
    ⟨fun h0 => by simp [h0] at hlen; omega, signers, hr, hnd, hsub, by omega⟩, ?_⟩
  simp only [ValidatorSet.quorum, ValidatorSet.f] at hk ⊢
  omega

set_option maxRecDepth 20000 in
theorem verifyCommittedSeals_below_quorum_sample :
    verifyCommittedSeals sampleCrypto
        (fun _ _ _ => .ok ⟨.newSet [.fill 20 1, .fill 20 2, .fill 20 3, .fill 20 4]⟩)
        (.withExtra 1 ⟨[], [], [[1], [2]]⟩) [] = .ok () ∧
      2 < (ValidatorSet.newSet [.fill 20 1, .fill 20 2, .fill 20 3, .fill 20 4]).quorum :=
  verifyCommittedSeals_below_quorum sampleCrypto
    (fun _ _ _ => .ok ⟨.newSet [.fill 20 1, .fill 20 2, .fill 20 3, .fill 20 4]⟩)
    (.withExtra 1 ⟨[], [], [[1], [2]]⟩) [] 1 rfl (by decide)
    ⟨.newSet [.fill 20 1, .fill 20 2, .fill 20 3, .fill 20 4]⟩ rfl (by decide) ⟨[], [], [[1], [2]]⟩
    (by decide) [.fill 20 1, .fill 20 2] (.cons rfl (.cons rfl .nil)) (by decide) (by decide) (by decide)

/-- Every cached signer was recovered, without the cache, from a header of
`history` with that hash. -/
def CacheSound (S : Crypto) (history : List Header) (cache : AddressCache) : Prop :=
  ∀ key addr, (key, addr) ∈ cache → ∃ g ∈ history, S.hash g = key ∧ recoverSigner S g = .ok addr

theorem AddressCache.get_some {cache : AddressCache} {key : Hash} {addr : Address} {cache' : AddressCache}
    (h : cache.get key = (some addr, cache')) : (key, addr) ∈ cache ∧ ∀ x ∈ cache', x ∈ cache := by
  unfold AddressCache.get at h
  split at h
  · rename_i k a hfind
    cases h
    have hk : k = key := by simpa using List.find?_some hfind
    subst hk
    refine ⟨List.mem_of_find?_eq_some hfind, fun x hx => ?_⟩
    rcases List.mem_cons.mp hx with rfl | hx
    · exact List.mem_of_find?_eq_some hfind
    · exact List.mem_of_mem_filter hx
  · cases h

theorem AddressCache.get_none {cache : AddressCache} {key : Hash} {cache' : AddressCache}
    (h : cache.get key = (none, cache')) : cache' = cache := by
  unfold AddressCache.get at h
  split at h <;> cases h
  rfl

theorem AddressCache.mem_add {size : Nat} {cache : AddressCache} {key : Hash} {addr : Address}
    {x : Hash × Address} (hx : x ∈ cache.add size key addr) : x = (key, addr) ∨ x ∈ cache :=
  (List.mem_cons.mp (List.mem_of_mem_take hx)).imp_right List.mem_of_mem_filter

theorem CacheSound.mono {S : Crypto} {history : List Header} {cache cache' : AddressCache}
    (hc : CacheSound S history cache) (hsub : ∀ x ∈ cache', x ∈ cache) : CacheSound S history cache' :=
  fun key addr hx => hc key addr (hsub _ hx)

theorem ecrecover_sound {S : Crypto} {size : Nat} {history : List Header} {cache : AddressCache}
    (hc : CacheSound S history cache) {h : Header} (hh : h ∈ history) :
    CacheSound S history (ecrecover S size cache h).2 := by
  rcases hg : cache.get (S.hash h) with ⟨_ | addr, cache'⟩
  · obtain rfl := AddressCache.get_none hg
    cases hr : recoverSigner S h with
    | error err => simpa [ecrecover, hg, hr] using hc
    | ok addr =>
      simp only [ecrecover, hg, hr]
      intro key a hx
      rcases AddressCache.mem_add hx with hx | hx
      · cases hx
        exact ⟨h, hh, rfl, hr⟩
      · exact hc key a hx
  · simpa [ecrecover, hg] using hc.mono (AddressCache.get_some hg).2

theorem recentAddresses_sound (S : Crypto) (size : Nat) (history : List Header) :
    CacheSound S history (recentAddresses S size history) := by
  suffices ∀ (gs : List Header) (cache : AddressCache), CacheSound S history cache →
      (∀ g ∈ gs, g ∈ history) →
      CacheSound S history (gs.foldl (fun cache header => (ecrecover S size cache header).2) cache) from
    this history [] (fun _ _ h => by cases h) fun _ h => h
  intro gs
  induction gs with
  | nil => exact fun _ hc _ => hc
  | cons g gs ih =>
    exact fun cache hc hgs => ih _ (ecrecover_sound hc (hgs g (List.mem_cons_self _ _)))
      fun x hx => hgs x (List.mem_cons_of_mem _ hx)

/-- What `Header.Hash` gives the cache: it covers the proposer seal and the signed
data, so headers with equal hashes never recover to different signers. -/
def HashBindsSigner (S : Crypto) : Prop :=
  ∀ g g' a a', S.hash g = S.hash g' → recoverSigner S g = .ok a → recoverSigner S g' = .ok a' → a = a'

theorem ecrecover_of_sound {S : Crypto} (hS : HashBindsSigner S) {size : Nat} {history : List Header}
    {cache : AddressCache} (hc : CacheSound S history cache) {h : Header} {a : Address}
    (hr : recoverSigner S h = .ok a) : (ecrecover S size cache h).1 = .ok a := by
  rcases hg : cache.get (S.hash h) with ⟨_ | addr, cache'⟩
  · simp [ecrecover, hg, hr]
  · obtain ⟨g, -, hhash, hrec⟩ := hc _ _ (AddressCache.get_some hg).1
    simp [ecrecover, hg, hS g h addr a hhash hrec hr]

theorem verifySigner_fst {S : Crypto} {size : Nat} {snapshot : SnapshotFn} {cache : AddressCache}
    {h : Header} {parents : List Header} {n : UInt64} (hn : h.number = some n) (hn0 : n ≠ 0)
    {snap : Snapshot} (hsnap : snapshot (n - 1) h.parentHash parents = .ok snap) :
    (verifySigner S size snapshot cache h parents).1 =
      ((ecrecover S size cache h).1 >>= fun signer =>
        if signer ∈ snap.fullnodeSet.validators then .ok () else .error .errUnauthorized) := by
  simp only [verifySigner, Header.numberU64, hn, hn0, hsnap, if_false]
  rcases ecrecover S size cache h with ⟨_ | _, _⟩ <;> rfl

theorem updateBlock_ok {S : Crypto} {sign : List UInt8 → Except Error (List UInt8)} {h : Header}
    {e : ConsensusExtra} (hx : extractExtra h = .ok e) {sig : List UInt8}
    (hsign : sign (sigHash S.rlpHash h).bytes = .ok sig) (hlen : sig.length = sportExtraSeal) :
    updateBlock S sign h =
      .ok { h with extra := h.extra.take sportExtraVanity ++ encodeExtra { e with proposerSeal := sig } } := by
  simp [updateBlock, hsign, writeSeal_ok hx (show sig.length % sportExtraSeal = 0 by simp [hlen])]

theorem recoverSigner_sealed {S : Crypto} {h : Header} {e : ConsensusExtra} (hx : extractExtra h = .ok e)
    {sig : List UInt8} (he : Encodable { e with proposerSeal := sig }) :
    recoverSigner S { h with extra := h.extra.take sportExtraVanity ++ encodeExtra { e with proposerSeal := sig } } =
      S.getSignatureAddress (sigHash S.rlpHash h).bytes sig := by
  simp [recoverSigner, extractExtra_written h _ (extractExtra_length hx) he, sigHash,
    sportFilteredHeader_written hx { e with proposerSeal := sig } rfl he]

/-- Whatever `ecrecover` calls came before, a header `updateBlock` seals is attributed to
its signer, and `verifySigner` accepts it exactly when the signer is a fullnode. -/
theorem updateBlock_ecrecover (S : Crypto) (hS : HashBindsSigner S) (size : Nat)
    (sign : List UInt8 → Except Error (List UInt8)) (address : Address) (h : Header) (e : ConsensusExtra)
    (hx : extractExtra h = .ok e) (sig : List UInt8) (hsign : sign (sigHash S.rlpHash h).bytes = .ok sig)
    (hlen : sig.length = sportExtraSeal) (haddr : S.getSignatureAddress (sigHash S.rlpHash h).bytes sig = .ok address)
    (he : Encodable { e with proposerSeal := sig }) :
    ∃ sealed, updateBlock S sign h = .ok sealed ∧
      ∀ history : List Header,
        (ecrecover S size (recentAddresses S size history) sealed).1 = .ok address ∧
        ∀ (snapshot : SnapshotFn) (parents : List Header) (n : UInt64) (snap : Snapshot),
          h.number = some n → n ≠ 0 → snapshot (n - 1) h.parentHash parents = .ok snap →
          ((verifySigner S size snapshot (recentAddresses S size history) sealed parents).1 = .ok () ↔
            address ∈ snap.fullnodeSet.validators) := by
  obtain ⟨sealed, hu, hs, hn', hp'⟩ : ∃ sealed, updateBlock S sign h = .ok sealed ∧
      recoverSigner S sealed = .ok address ∧ sealed.number = h.number ∧ sealed.parentHash = h.parentHash :=
    ⟨_, updateBlock_ok hx hsign hlen, (recoverSigner_sealed hx he).trans haddr, rfl, rfl⟩
  refine ⟨sealed, hu, fun history => ?_⟩
  have hrec : (ecrecover S size (recentAddresses S size history) sealed).1 = .ok address :=
    ecrecover_of_sound hS (recentAddresses_sound S size history) hs
  refine ⟨hrec, fun snapshot parents n snap hn hn0 hsnap => ?_⟩
  rw [verifySigner_fst (hn' ▸ hn) hn0 (hp' ▸ hsnap), hrec]
  by_cases hm : address ∈ snap.fullnodeSet.validators <;> simp [hm]

def signerHashCrypto : Crypto where
  hash g := match recoverSigner sampleCrypto g with
    | .ok a => ⟨a.bytes ++ List.replicate 12 0, by rw [List.length_append, a.length_eq]; rfl⟩
    | .error _ => .zero 32
  rlpHash := sampleCrypto.rlpHash
  getSignatureAddress := sampleCrypto.getSignatureAddress

theorem signerHashCrypto_binds : HashBindsSigner signerHashCrypto := by
  intro g g' a a' hh hg hg'
  have hg₀ : recoverSigner sampleCrypto g = .ok a := hg
  have hg₀' : recoverSigner sampleCrypto g' = .ok a' := hg'
  simp only [signerHashCrypto, hg₀, hg₀', FixedBytes.mk.injEq, List.append_cancel_right_eq] at hh
  cases a; cases a'
  simpa using hh

set_option maxRecDepth 20000 in
theorem updateBlock_ecrecover_sample :
    HashBindsSigner signerHashCrypto ∧
      ∃ sealed, updateBlock signerHashCrypto (fun _ => .ok (7 :: List.replicate 64 0))
          (.withExtra 1 ⟨[.fill 20 7], [], []⟩) = .ok sealed ∧
        ∀ history : List Header,
          (ecrecover signerHashCrypto 4096 (recentAddresses signerHashCrypto 4096 history) sealed).1 =
            .ok (.fill 20 7) ∧
          ∀ (snapshot : SnapshotFn) (parents : List Header) (n : UInt64) (snap : Snapshot),
            (Header.withExtra 1 ⟨[.fill 20 7], [], []⟩).number = some n → n ≠ 0 →
            snapshot (n - 1) (Header.withExtra 1 ⟨[.fill 20 7], [], []⟩).parentHash parents = .ok snap →
            ((verifySigner signerHashCrypto 4096 snapshot (recentAddresses signerHashCrypto 4096 history) sealed
                parents).1 = .ok () ↔ .fill 20 7 ∈ snap.fullnodeSet.validators) :=
  ⟨signerHashCrypto_binds, updateBlock_ecrecover signerHashCrypto signerHashCrypto_binds 4096
    (fun _ => .ok (7 :: List.replicate 64 0)) (.fill 20 7) (.withExtra 1 ⟨[.fill 20 7], [], []⟩)
    ⟨[.fill 20 7], [], []⟩ (by decide) (7 :: List.replicate 64 0) rfl rfl rfl (by decide)⟩

end SmiloBft.Sport
