import SmiloBft.Tendermint.Verify

/-!
# The exported verifiers of the tendermint backend

`Author`, `VerifyHeader`, `VerifyHeaders`, `VerifyUncles` and `VerifySeal` of
`engine.go`, over the checks of `Tendermint.Verify`.

`VerifyHeaders`' goroutine checks header `i` with `headers[:i]` as its parents
and sends the errors in the order of the batch; a run that the caller does not
abort is the list of those errors. When the batch is a chain of consecutive
headers, each naming the one before as its parent, it sends what verifying the
headers one at a time with `VerifyHeader` gives, each written into the chain
before the next is verified (`verifyHeaders_eq_sequential`); for any batch, a header
it accepts after the first extends the one before it, unless numbered 0
(`verifyHeaders_accepts_linked`). `VerifySeal`
accepts exactly the headers whose proposer is a validator of the canonical
parent (`verifySeal_ok_iff`), so every non-genesis header `VerifyHeader`
accepts passes it.
-/

namespace SmiloBft.Tendermint

set_option autoImplicit false

def author (C : Crypto) (header : Header) : Except Error Address := C.ecrecover header

def VerifyHeader (C : Crypto) (cfg : Config) (now : Int) (chain : ChainReader) (header : Header) :
    Except Error Unit :=
  verifyHeader C cfg now chain header []

/-- `VerifyHeaders`: what its goroutine sends for each header, in order, when not aborted. -/
def VerifyHeaders (C : Crypto) (cfg : Config) (now : Int) (chain : ChainReader) (headers : List Header) :
    List (Except Error Unit) :=
  headers.mapIdx fun i header => verifyHeader C cfg now chain header (headers.take i)

def VerifyUncles (uncles : List Header) : Except Error Unit :=
  if uncles.length > 0 then .error .errInvalidUncleHash else .ok ()

/-- `VerifySeal`. `Cmp` on a nil difficulty dereferences it; `defaultDifficulty` is 1. -/
def VerifySeal (C : Crypto) (chain : ChainReader) (header : Header) : Except Error Unit := do
  let number ← header.numberU64
  if number = 0 then throw .errUnknownBlock
  match header.difficulty with
  | none => throw .nilDereference
  | some difficulty => if difficulty ≠ 1 then throw .errInvalidDifficulty else verifySigner C chain header []

/-- The chain once `header` is written, by hash and as canonical at its number. -/
def writeHeader (C : Crypto) (chain : ChainReader) (header : Header) : ChainReader where
  getHeader hash number :=
    if hash = C.hash header ∧ header.number = some number then some header else chain.getHeader hash number
  getHeaderByNumber number :=
    if header.number = some number then some header else chain.getHeaderByNumber number

/-- What the batch is meant to compute: each header verified, then written. -/
def verifySequential (C : Crypto) (cfg : Config) (now : Int) : ChainReader → List Header → List (Except Error Unit)
  | _, [] => []
  | chain, header :: headers =>
    VerifyHeader C cfg now chain header :: verifySequential C cfg now (writeHeader C chain header) headers

/-- `header` comes right after `parent`, by number and by parent hash. -/
def Extends (C : Crypto) (parent header : Header) : Prop :=
  ∃ n, header.number = some n ∧ n ≠ 0 ∧ parent.number = some (n - 1) ∧ header.parentHash = C.hash parent

def Written (C : Crypto) (chain : ChainReader) (p : Header) : Prop :=
  ∀ n, p.number = some n → chain.getHeader (C.hash p) n = some p ∧ chain.getHeaderByNumber n = some p

theorem written_insert (C : Crypto) (chain : ChainReader) (p : Header) : Written C (writeHeader C chain p) p :=
  fun n hn => by simp [writeHeader, hn]

theorem parentHeader_last (chain : ChainReader) (h : Header) (ps : List Header) (p : Header) (n : UInt64) :
    parentHeader chain h (ps ++ [p]) n = some p := by
  simp [parentHeader]

theorem verifyHeader_chain_of_ne_nil (C : Crypto) (cfg : Config) (now : Int) (chain chain' : ChainReader)
    (h : Header) {parents : List Header} (hp : parents ≠ []) :
    verifyHeader C cfg now chain h parents = verifyHeader C cfg now chain' h parents := by
  obtain ⟨ps, p, rfl⟩ := (List.eq_nil_or_concat parents).resolve_left hp
  simp only [List.concat_eq_append, verifyHeader, verifyCascadingFields, verifySigner, verifyCommittedSeals,
    retrieveValidators_last, parentHeader_last]

theorem verifyHeader_after_written {C : Crypto} {cfg : Config} {now : Int} {chain chain' : ChainReader}
    {done : List Header} {p h : Header} (hlast : done.getLast? = some p) (hw : Written C chain' p)
    (hext : Extends C p h) : verifyHeader C cfg now chain h done = VerifyHeader C cfg now chain' h := by
  obtain ⟨n, hn, hn0, hpn, hph⟩ := hext
  obtain ⟨ps, rfl⟩ := List.getLast?_eq_some_iff.mp hlast
  obtain ⟨hget, hcan⟩ := hw _ hpn
  rw [VerifyHeader, verifyHeader_chain_of_ne_nil C cfg now chain chain' h (by simp),
    verifyHeader_canonical_parent C cfg now chain' h n hn hn0 p ps (hph ▸ hget) hcan]

theorem mapIdx_verifyHeader_eq_sequential (C : Crypto) (cfg : Config) (now : Int) (chain : ChainReader) :
    ∀ (headers done : List Header) (chain' : ChainReader) (p : Header), done.getLast? = some p →
      Written C chain' p → (p :: headers).Chain' (Extends C) →
      headers.mapIdx (fun i header => verifyHeader C cfg now chain header (done ++ headers.take i)) =
        verifySequential C cfg now chain' headers
  | [], _, _, _, _, _, _ => rfl
  | h :: hs, done, chain', p, hlast, hw, hchain => by
    obtain ⟨hext, hchain⟩ := List.chain'_cons.mp hchain
    have htail := mapIdx_verifyHeader_eq_sequential C cfg now chain hs (done ++ [h]) (writeHeader C chain' h) h
      (by simp) (written_insert C chain' h) hchain
    simp only [List.mapIdx_cons, List.take_zero, List.append_nil, List.take_succ_cons, verifySequential,
      verifyHeader_after_written hlast hw hext, List.append_assoc, List.singleton_append] at htail ⊢
    rw [htail]

/-- For every linked batch, `VerifyHeaders` sends what verifying the headers one at a time
returns, each written into the chain before the next. -/
theorem verifyHeaders_eq_sequential (C : Crypto) (cfg : Config) (now : Int) (chain : ChainReader)
    (headers : List Header) (hchain : headers.Chain' (Extends C)) :
    VerifyHeaders C cfg now chain headers = verifySequential C cfg now chain headers := by
  cases headers with
  | nil => rfl
  | cons h hs =>
    have htail := mapIdx_verifyHeader_eq_sequential C cfg now chain hs [h] (writeHeader C chain h) h rfl
      (written_insert C chain h) hchain
    simp only [VerifyHeaders, List.mapIdx_cons, List.take_zero, List.take_succ_cons, verifySequential,
      VerifyHeader, List.singleton_append] at htail ⊢
    rw [htail]

theorem verifyHeaders_eq_sequential_two :
    [Header.withExtra 1 ⟨[], [], []⟩, Header.withExtra 2 ⟨[], [], []⟩].Chain' (Extends sampleCrypto) ∧
      VerifyHeaders sampleCrypto ⟨0⟩ 0 ⟨fun _ _ => none, fun _ => none⟩
          [.withExtra 1 ⟨[], [], []⟩, .withExtra 2 ⟨[], [], []⟩] =
        verifySequential sampleCrypto ⟨0⟩ 0 ⟨fun _ _ => none, fun _ => none⟩
          [.withExtra 1 ⟨[], [], []⟩, .withExtra 2 ⟨[], [], []⟩] :=
  have hchain : [Header.withExtra 1 ⟨[], [], []⟩, Header.withExtra 2 ⟨[], [], []⟩].Chain'
      (Extends sampleCrypto) := List.chain'_pair.mpr ⟨2, rfl, by decide, rfl, rfl⟩
  ⟨hchain, verifyHeaders_eq_sequential sampleCrypto ⟨0⟩ 0 ⟨fun _ _ => none, fun _ => none⟩ _ hchain⟩

/-- Every accepted header after the first extends the one before it in the batch, unless
its own number is 0. -/
theorem verifyHeaders_accepts_linked (C : Crypto) (cfg : Config) (now : Int) (chain : ChainReader)
    (headers : List Header) (i : Nat) (hi : 0 < i) (p h : Header) (hp : headers[i - 1]? = some p)
    (hh : headers[i]? = some h) (hok : (VerifyHeaders C cfg now chain headers)[i]? = some (.ok ())) :
    h.number = some 0 ∨ Extends C p h := by
  rw [VerifyHeaders, List.getElem?_mapIdx, hh, Option.map_some', Option.some.injEq] at hok
  have hlast : (headers.take i).getLast? = some p := by
    rw [List.getLast?_take, if_neg (Nat.pos_iff_ne_zero.mp hi), hp]
    rfl
  obtain ⟨hnum, -, -, -, -, -, -, hc⟩ := verifyHeader_ok hok
  obtain ⟨n, hn⟩ := Option.ne_none_iff_exists'.mp hnum
  by_cases hn0 : n = 0
  · exact .inl (hn0 ▸ hn)
  · obtain ⟨p', hp', hpn, hph, -⟩ := verifyCascadingFields_ok hn hn0 hc
    simp only [parentHeader, hlast, Option.some.injEq] at hp'
    subst hp'
    exact .inr ⟨n, hn, hn0, hpn, hph.symm⟩

set_option maxRecDepth 20000 in
theorem verifyHeaders_accepts_linked_pair :
    (0 : Nat) < 1 ∧
      [Header.withExtra 1 ⟨[.fill 20 1], [], []⟩, .withExtra 2 ⟨[], [], [[1]]⟩][1 - 1]? =
        some (.withExtra 1 ⟨[.fill 20 1], [], []⟩) ∧
      [Header.withExtra 1 ⟨[.fill 20 1], [], []⟩, .withExtra 2 ⟨[], [], [[1]]⟩][1]? = some (.withExtra 2 ⟨[], [], [[1]]⟩) ∧
      (VerifyHeaders sampleCrypto ⟨0⟩ 0 ⟨fun _ _ => none, fun _ => none⟩
        [.withExtra 1 ⟨[.fill 20 1], [], []⟩, .withExtra 2 ⟨[], [], [[1]]⟩])[1]? = some (.ok ()) ∧
      ((Header.withExtra 2 ⟨[], [], [[1]]⟩).number = some 0 ∨
        Extends sampleCrypto (.withExtra 1 ⟨[.fill 20 1], [], []⟩) (.withExtra 2 ⟨[], [], [[1]]⟩)) :=
  have hok : (VerifyHeaders sampleCrypto ⟨0⟩ 0 ⟨fun _ _ => none, fun _ => none⟩
      [.withExtra 1 ⟨[.fill 20 1], [], []⟩, .withExtra 2 ⟨[], [], [[1]]⟩])[1]? = some (.ok ()) := by decide
  ⟨by decide, rfl, rfl, hok, verifyHeaders_accepts_linked sampleCrypto ⟨0⟩ 0 ⟨fun _ _ => none, fun _ => none⟩ _ 1
    (by decide) _ _ rfl rfl hok⟩

theorem verifySigner_ok_iff {C : Crypto} {chain : ChainReader} {h : Header} {parents : List Header} :
    verifySigner C chain h parents = .ok () ↔
      ∃ n, h.number = some n ∧ n ≠ 0 ∧ ∃ V a, retrieveValidators chain h parents = .ok V ∧
        C.ecrecover h = .ok a ∧ a ∈ V := by
  cases hn : h.number with
  | none => simp [verifySigner, Header.numberU64, hn]
  | some n =>
    by_cases hn0 : n = 0
    · simp [verifySigner, numberU64_of_eq hn, hn0]
    · simp [verifySigner, numberU64_of_eq hn, hn0, except_bind_eq_ok]

theorem verifySeal_ok_iff (C : Crypto) (chain : ChainReader) (h : Header) :
    VerifySeal C chain h = .ok () ↔
      ∃ n, h.number = some n ∧ n ≠ 0 ∧ h.difficulty = some 1 ∧
        ∃ p e a, chain.getHeaderByNumber (n - 1) = some p ∧ extractExtra p = .ok e ∧ author C h = .ok a ∧
          a ∈ e.validators := by
  cases hn : h.number with
  | none => simp [VerifySeal, Header.numberU64, hn]
  | some n =>
    by_cases hn0 : n = 0
    · simp [VerifySeal, numberU64_of_eq hn, hn0]
    have hseal : VerifySeal C chain h = .ok () ↔ h.difficulty = some 1 ∧ verifySigner C chain h [] = .ok () := by
      cases hd : h.difficulty with
      | none => simp [VerifySeal, numberU64_of_eq hn, hn0, hd]
      | some d => by_cases hd1 : d = 1 <;> simp [VerifySeal, numberU64_of_eq hn, hn0, hd, hd1]
    rw [hseal, verifySigner_ok_iff]
    simp only [hn, retrieveValidators, retrieveSavedValidators, author, numberU64_of_eq hn, except_bind_ok]
    cases hc : chain.getHeaderByNumber (n - 1) with
    | none => simp [hc, hn0]
    | some p => cases he : extractExtra p <;> simp [hc, he, hn0, Except.map]

/-- Every header `VerifyHeader` accepts passes `VerifySeal`, except the genesis. -/
theorem verifySeal_of_verifyHeader {C : Crypto} {cfg : Config} {now : Int} {chain : ChainReader} {h : Header}
    (hok : VerifyHeader C cfg now chain h = .ok ()) :
    VerifySeal C chain h = if h.number = some 0 then .error .errUnknownBlock else .ok () := by
  obtain ⟨hnum, -, -, -, -, -, hd, hc⟩ := verifyHeader_ok hok
  obtain ⟨n, hn⟩ := Option.ne_none_iff_exists'.mp hnum
  by_cases hn0 : n = 0
  · simp [VerifySeal, numberU64_of_eq hn, hn0, hn]
  · obtain ⟨-, -, -, -, -, hs, -⟩ := verifyCascadingFields_ok hn hn0 hc
    simp [VerifySeal, numberU64_of_eq hn, hn0, hn, hd, hs]

set_option maxRecDepth 20000 in
theorem verifySeal_of_verifyHeader_sample :
    VerifyHeader sampleCrypto ⟨0⟩ 0
        ⟨fun _ _ => some (.withExtra 0 ⟨[.fill 20 1], [], []⟩), fun _ => some (.withExtra 0 ⟨[.fill 20 1], [], []⟩)⟩
        (.withExtra 1 ⟨[], [], [[1]]⟩) = .ok () ∧
      VerifySeal sampleCrypto
          ⟨fun _ _ => some (.withExtra 0 ⟨[.fill 20 1], [], []⟩), fun _ => some (.withExtra 0 ⟨[.fill 20 1], [], []⟩)⟩
          (.withExtra 1 ⟨[], [], [[1]]⟩) =
        if (Header.withExtra 1 ⟨[], [], [[1]]⟩).number = some 0 then .error .errUnknownBlock else .ok () :=
  have hok : VerifyHeader sampleCrypto ⟨0⟩ 0
      ⟨fun _ _ => some (.withExtra 0 ⟨[.fill 20 1], [], []⟩), fun _ => some (.withExtra 0 ⟨[.fill 20 1], [], []⟩)⟩
      (.withExtra 1 ⟨[], [], [[1]]⟩) = .ok () := by decide
  ⟨hok, verifySeal_of_verifyHeader hok⟩

end SmiloBft.Tendermint
