import SmiloBft.Tendermint.Verify
import Mathlib.Data.List.Sort

/-! `Prepare` of the tendermint backend: the header fields it fills in, the
exchange sort of the parent's validators, which leaves them in `bytes.Compare`
order (`sortFullnodes_sorted`), so computes what insertion sort computes and writes
one list for every order of its input (`sortFullnodes_eq_insertionSort`), and the timestamp it chooses, which
`verifyCascadingFields` later checks against the same parent. -/

namespace SmiloBft.Tendermint

set_option autoImplicit false

/-- `bytes.Compare`: lexicographic order, a proper prefix first. -/
def bytesCompare : List UInt8 → List UInt8 → Ordering
  | [], [] => .eq
  | [], _ :: _ => .lt
  | _ :: _, [] => .gt
  | a :: as, b :: bs => if a < b then .lt else if b < a then .gt else bytesCompare as bs

def swapIfGreater (fullnodes : List Address) (i j : Nat) : List Address :=
  match fullnodes[i]?, fullnodes[j]? with
  | some a, some b =>
    if bytesCompare a.bytes b.bytes = .gt then (fullnodes.set i b).set j a else fullnodes
  | _, _ => fullnodes

/-- The nested loop of `Prepare`: `for i < len`, `for i < j < len`, `swapIfGreater`. -/
def sortFullnodes (fullnodes : List Address) : List Address :=
  (List.range fullnodes.length).foldl
    (fun l i => (List.range' (i + 1) (fullnodes.length - (i + 1))).foldl (fun l j => swapIfGreater l i j) l)
    fullnodes

/-! After pass `i` of the outer loop, positions `0 .. i` hold the `i + 1` least
elements in `bytes.Compare` order. -/

theorem uint8_lt_iff {a b : UInt8} : a < b ↔ a.toNat < b.toNat := .rfl

theorem bytesCompare_swap : ∀ a b : List UInt8, bytesCompare b a = (bytesCompare a b).swap
  | [], [] => rfl
  | [], _ :: _ => rfl
  | _ :: _, [] => rfl
  | x :: as, y :: bs => by
    simp only [bytesCompare, uint8_lt_iff]
    split_ifs <;> first | rfl | omega | exact bytesCompare_swap as bs

theorem bytesCompare_le_trans : ∀ {a b c : List UInt8},
    bytesCompare a b ≠ .gt → bytesCompare b c ≠ .gt → bytesCompare a c ≠ .gt
  | [], _, [] => fun _ _ => nofun
  | [], _, _ :: _ => fun _ _ => nofun
  | _ :: _, [], _ => fun h => absurd rfl h
  | _ :: _, _ :: _, [] => fun _ h => absurd rfl h
  | x :: as, y :: bs, z :: cs => fun h1 h2 => by
    simp only [bytesCompare, uint8_lt_iff] at h1 h2 ⊢
    split_ifs at h1 h2 ⊢ <;> first | decide | omega | exact absurd rfl h1 | exact absurd rfl h2 |
      exact bytesCompare_le_trans h1 h2

/-- The order `Prepare` sorts in: `bytes.Compare` does not put `a` after `b`. -/
def AddressLe (a b : Address) : Prop := bytesCompare a.bytes b.bytes ≠ .gt

instance : DecidableRel AddressLe := fun _ _ => inferInstanceAs (Decidable (_ ≠ _))

theorem AddressLe.trans {a b c : Address} (h1 : AddressLe a b) (h2 : AddressLe b c) : AddressLe a c :=
  bytesCompare_le_trans h1 h2

theorem AddressLe.of_gt {a b : Address} (h : bytesCompare a.bytes b.bytes = .gt) : AddressLe b a := by
  rw [AddressLe, bytesCompare_swap, h]
  nofun

theorem swapIfGreater_eq {l : List Address} {i j : Nat} (hi : i < l.length) (hj : j < l.length) :
    swapIfGreater l i j =
      if bytesCompare l[i].bytes l[j].bytes = .gt then (l.set i l[j]).set j l[i] else l := by
  simp [swapIfGreater, List.getElem?_eq_getElem hi, List.getElem?_eq_getElem hj]

theorem perm_set_swap {α : Type} [DecidableEq α] (l : List α) {i j : Nat} (hi : i < l.length)
    (hj : j < l.length) : ((l.set i l[j]).set j l[i]).Perm l := by
  rw [List.perm_iff_count]
  intro x
  have hj' : j < (l.set i l[j]).length := by simpa using hj
  have hget : (l.set i l[j])[j] = l[j] := by
    rw [List.getElem_set]
    split_ifs with h
    · subst h; rfl
    · rfl
  have ha : (if l[i] == x then 1 else 0) ≤ l.count x := by
    split_ifs with h
    · exact List.count_pos_iff.mpr (beq_iff_eq.mp h ▸ List.getElem_mem hi)
    · exact Nat.zero_le _
  rw [List.count_set _ _ _ _ hj', hget, List.count_set _ _ _ _ hi]
  omega

theorem swapIfGreater_perm (l : List Address) (i j : Nat) : (swapIfGreater l i j).Perm l := by
  by_cases hi : i < l.length
  · by_cases hj : j < l.length
    · rw [swapIfGreater_eq hi hj]
      split_ifs
      · exact perm_set_swap l hi hj
      · rfl
    · simp [swapIfGreater, List.getElem?_eq_none (Nat.le_of_not_lt hj)]
  · simp [swapIfGreater, List.getElem?_eq_none (Nat.le_of_not_lt hi)]

theorem foldl_range'_induction {β : Type} (f : β → Nat → β) (P : Nat → β → Prop) (s : Nat) :
    ∀ (k : Nat) (b : β), P s b → (∀ j b, s ≤ j → j < s + k → P j b → P (j + 1) (f b j)) →
      P (s + k) ((List.range' s k).foldl f b)
  | 0, _, h, _ => h
  | k + 1, b, h, hstep => by
    rw [List.range'_concat, List.foldl_append, List.foldl_cons, List.foldl_nil, Nat.one_mul, ← Nat.add_assoc]
    exact hstep _ _ (Nat.le_add_right s k) (by omega)
      (foldl_range'_induction f P s k b h fun j b h1 h2 => hstep j b h1 (by omega))

def Settled (k : Nat) (l : List Address) : Prop :=
  ∀ p q (hp : p < l.length) (hq : q < l.length), p < k → p < q → AddressLe l[p] l[q]

def PassInv (i m : Nat) (l : List Address) : Prop :=
  Settled i l ∧ ∀ (hi : i < l.length) q (hq : q < l.length), i < q → q < m → AddressLe l[i] l[q]

theorem passInv_swapIfGreater {i j : Nat} {l : List Address} (hij : i < j) (h : PassInv i j l) :
    PassInv i (j + 1) (swapIfGreater l i j) := by
  obtain ⟨hset, hmin⟩ := h
  by_cases hj : j < l.length
  · have hi : i < l.length := by omega
    rw [swapIfGreater_eq hi hj]
    split_ifs with hgt
    · have hji := AddressLe.of_gt hgt
      refine ⟨fun p q hp hq hpi hpq => ?_, fun _ q hq hiq hqj => ?_⟩
      · simp only [List.getElem_set]
        split_ifs <;> first | omega | exact hset _ _ _ _ hpi (by omega)
      · simp only [List.getElem_set]
        split_ifs <;>
          first | omega | exact hji | exact hji.trans (hmin hi q (by simpa using hq) hiq (by omega))
    · refine ⟨hset, fun hi q hq hiq hqj => ?_⟩
      rcases Nat.lt_succ_iff_lt_or_eq.mp hqj with hqj | rfl
      · exact hmin hi q hq hiq hqj
      · exact hgt
  · have hid : swapIfGreater l i j = l := by
      simp [swapIfGreater, List.getElem?_eq_none (Nat.le_of_not_lt hj)]
    rw [hid]
    exact ⟨hset, fun hi q hq hiq _ => hmin hi q hq hiq (by omega)⟩

theorem passInv_start {i : Nat} {l : List Address} (h : Settled i l) : PassInv i (i + 1) l :=
  ⟨h, fun _ _ _ hiq hq => absurd hq (by omega)⟩

theorem settled_of_passInv {i n : Nat} {l : List Address} (hn : l.length = n) (h : PassInv i n l) :
    Settled (i + 1) l := by
  intro p q hp hq hpi hpq
  rcases Nat.lt_succ_iff_lt_or_eq.mp hpi with hpi | rfl
  · exact h.1 p q hp hq hpi hpq
  · exact h.2 hp q hq hpq (hn ▸ hq)

theorem settled_pass {fullnodes l : List Address} {i : Nat} (hi : i < fullnodes.length)
    (hl : l.Perm fullnodes) (h : Settled i l) :
    ((List.range' (i + 1) (fullnodes.length - (i + 1))).foldl (fun l j => swapIfGreater l i j) l).Perm
        fullnodes ∧
      Settled (i + 1)
        ((List.range' (i + 1) (fullnodes.length - (i + 1))).foldl (fun l j => swapIfGreater l i j) l) := by
  have hloop := foldl_range'_induction (fun l j => swapIfGreater l i j)
    (fun j l' => l'.Perm fullnodes ∧ PassInv i j l') (i + 1) (fullnodes.length - (i + 1)) l
    ⟨hl, passInv_start h⟩ fun j l' hj _ hj' =>
      ⟨(swapIfGreater_perm l' i j).trans hj'.1, passInv_swapIfGreater hj hj'.2⟩
  rw [show i + 1 + (fullnodes.length - (i + 1)) = fullnodes.length by omega] at hloop
  exact ⟨hloop.1, settled_of_passInv hloop.1.length_eq hloop.2⟩

/-- The nested loop leaves a permutation of its input in `bytes.Compare` order. -/
theorem sortFullnodes_sorted (fullnodes : List Address) :
    (sortFullnodes fullnodes).Perm fullnodes ∧ (sortFullnodes fullnodes).Pairwise AddressLe := by
  have hloop := foldl_range'_induction
    (fun l i => (List.range' (i + 1) (fullnodes.length - (i + 1))).foldl (fun l j => swapIfGreater l i j) l)
    (fun i l => l.Perm fullnodes ∧ Settled i l) 0 fullnodes.length fullnodes
    ⟨.refl _, fun _ _ _ _ h => absurd h (Nat.not_lt_zero _)⟩ fun i l _ hi h => settled_pass (by omega) h.1 h.2
  rw [Nat.zero_add, ← List.range_eq_range'] at hloop
  obtain ⟨hperm, hset⟩ := hloop
  refine ⟨hperm, List.pairwise_iff_getElem.mpr fun p q hp hq hpq => hset p q hp hq ?_ hpq⟩
  rwa [← hperm.length_eq]

theorem bytesCompare_eq : ∀ {a b : List UInt8}, bytesCompare a b = .eq → a = b
  | [], [] => fun _ => rfl
  | [], _ :: _ => nofun
  | _ :: _, [] => nofun
  | x :: as, y :: bs => fun h => by
    simp only [bytesCompare, uint8_lt_iff] at h
    split_ifs at h with h1 h2
    have hxy : x = y := UInt8.toNat.inj (by omega)
    rw [bytesCompare_eq h, hxy]

theorem AddressLe.antisymm {a b : Address} (h1 : AddressLe a b) (h2 : AddressLe b a) : a = b := by
  rw [AddressLe, bytesCompare_swap] at h2
  have heq : bytesCompare a.bytes b.bytes = .eq := by
    revert h1 h2
    unfold AddressLe
    cases bytesCompare a.bytes b.bytes <;> decide
  obtain ⟨a, _⟩ := a
  obtain ⟨b, _⟩ := b
  cases bytesCompare_eq heq
  rfl

theorem AddressLe.total (a b : Address) : AddressLe a b ∨ AddressLe b a := by
  by_cases h : bytesCompare a.bytes b.bytes = .gt
  · exact .inr (AddressLe.of_gt h)
  · exact .inl h

instance : IsAntisymm Address AddressLe := ⟨fun _ _ => AddressLe.antisymm⟩
instance : IsTotal Address AddressLe := ⟨AddressLe.total⟩
instance : IsTrans Address AddressLe := ⟨fun _ _ _ => AddressLe.trans⟩

/-- `Prepare`'s exchange sort computes what insertion sort by `bytes.Compare` computes. -/
theorem sortFullnodes_eq_insertionSort (fullnodes : List Address) :
    sortFullnodes fullnodes = fullnodes.insertionSort AddressLe :=
  List.eq_of_perm_of_sorted ((sortFullnodes_sorted fullnodes).1.trans (List.perm_insertionSort _ _).symm)
    (sortFullnodes_sorted fullnodes).2 (List.sorted_insertionSort _ _)

/-- The validators `Prepare` writes do not depend on the order the parent lists them in. -/
theorem sortFullnodes_perm_eq {L L' : List Address} (h : L'.Perm L) : sortFullnodes L' = sortFullnodes L :=
  List.eq_of_perm_of_sorted (((sortFullnodes_sorted L').1.trans h).trans (sortFullnodes_sorted L).1.symm)
    (sortFullnodes_sorted L').2 (sortFullnodes_sorted L).2

theorem sortFullnodes_perm_eq_swap :
    [FixedBytes.fill 20 2, .fill 20 1].Perm [.fill 20 1, .fill 20 2] ∧
      sortFullnodes [.fill 20 2, .fill 20 1] = sortFullnodes [.fill 20 1, .fill 20 2] :=
  ⟨.swap _ _ [], sortFullnodes_perm_eq (.swap _ _ [])⟩

/-- `Prepare`, which fills the header in place: the header keeps the fields set before an
error. `now₁` and `now₂` are its two reads of `time.Now().Unix()`. -/
def prepare (C : Crypto) (cfg : Config) (now₁ now₂ : Int) (address : Address) (chain : ChainReader)
    (header : Header) : Header × Option Error :=
  let header := { header with coinbase := address, nonce := emptyNonce, mixDigest := C.bftDigest }
  match header.numberU64 with
  | .error err => (header, some err)
  | .ok number =>
    match chain.getHeader header.parentHash (number - 1) with
    | none => (header, some .errUnknownAncestor)
    | some parent =>
      let header := { header with difficulty := some 1 }
      match retrieveValidators chain header [parent] with
      | .error err => (header, some err)
      | .ok fullnodeAddresses =>
        let header := { header with extra := prepareExtraBytes header.extra (sortFullnodes fullnodeAddresses) }
        let time := parent.time + cfg.blockPeriod
        ({ header with time := if toInt64 time < now₁ then toUInt64 now₂ else time }, none)

theorem prepare_ok {C : Crypto} {cfg : Config} {now₁ now₂ : Int} {address : Address} {chain : ChainReader}
    {header : Header} {n : UInt64} (hn : header.number = some n) {p : Header}
    (hp : chain.getHeader header.parentHash (n - 1) = some p)
    (hok : (prepare C cfg now₁ now₂ address chain header).2 = none) :
    ∃ vals, retrieveValidators chain header [p] = .ok vals ∧
      prepare C cfg now₁ now₂ address chain header =
        ({ header with
            coinbase := address, nonce := emptyNonce, mixDigest := C.bftDigest, difficulty := some 1,
            extra := prepareExtraBytes header.extra (sortFullnodes vals),
            time := if toInt64 (p.time + cfg.blockPeriod) < now₁ then toUInt64 now₂
              else p.time + cfg.blockPeriod }, none) := by
  have hV : ∀ h' : Header, retrieveValidators chain h' [p] = retrieveValidators chain header [p] :=
    fun _ => rfl
  simp only [prepare, Header.numberU64, hn, hp, hV] at hok ⊢
  split at hok
  · cases hok
  · exact ⟨_, ‹_›, rfl⟩

/-- For every validator list of the parent, `Prepare` writes a sorted permutation of it. -/
theorem prepare_sorts_validators (C : Crypto) (cfg : Config) (now₁ now₂ : Int) (address : Address)
    (chain : ChainReader) (header : Header) (n : UInt64) (hn : header.number = some n) (p : Header)
    (hp : chain.getHeader header.parentHash (n - 1) = some p) (L : List Address)
    (hL : retrieveValidators chain header [p] = .ok L) :
    (sortFullnodes L).Perm L ∧ (sortFullnodes L).Pairwise AddressLe ∧
      (prepare C cfg now₁ now₂ address chain header).2 = none ∧
      (prepare C cfg now₁ now₂ address chain header).1.extra = prepareExtraBytes header.extra (sortFullnodes L) := by
  refine ⟨(sortFullnodes_sorted L).1, (sortFullnodes_sorted L).2, ?_⟩
  have hV : ∀ h' : Header, retrieveValidators chain h' [p] = .ok L := fun _ => hL
  simp [prepare, Header.numberU64, hn, hp, hV]

set_option maxRecDepth 20000 in
theorem prepare_sorts_validators_sample :
    ∃ L, retrieveValidators ⟨fun _ _ => some (.withExtra 0 ⟨[.fill 20 2, .fill 20 1], [], []⟩), fun _ => none⟩
        (.withExtra 1 ⟨[], [], []⟩) [.withExtra 0 ⟨[.fill 20 2, .fill 20 1], [], []⟩] = .ok L ∧
      (sortFullnodes L).Perm L ∧ (sortFullnodes L).Pairwise AddressLe ∧
      (prepare sampleCrypto ⟨2⟩ 5 5 (.fill 20 9)
        ⟨fun _ _ => some (.withExtra 0 ⟨[.fill 20 2, .fill 20 1], [], []⟩), fun _ => none⟩
        (.withExtra 1 ⟨[], [], []⟩)).2 = none ∧
      (prepare sampleCrypto ⟨2⟩ 5 5 (.fill 20 9)
        ⟨fun _ _ => some (.withExtra 0 ⟨[.fill 20 2, .fill 20 1], [], []⟩), fun _ => none⟩
        (.withExtra 1 ⟨[], [], []⟩)).1.extra =
        prepareExtraBytes (Header.withExtra 1 ⟨[], [], []⟩).extra (sortFullnodes L) :=
  ⟨_, rfl, prepare_sorts_validators sampleCrypto ⟨2⟩ 5 5 (.fill 20 9)
    ⟨fun _ _ => some (.withExtra 0 ⟨[.fill 20 2, .fill 20 1], [], []⟩), fun _ => none⟩
    (.withExtra 1 ⟨[], [], []⟩) 1 rfl (.withExtra 0 ⟨[.fill 20 2, .fill 20 1], [], []⟩) rfl _ rfl⟩

set_option maxRecDepth 20000 in
/-- Outside that range the time falls below the parent's: clamped down to the clock when the
sum's `int64` cast is negative, or wrapped past `2^64`. -/
theorem prepare_time_clamps_down :
    (prepare sampleCrypto ⟨0⟩ 1 1 (.fill 20 9)
        ⟨fun _ _ => some { Header.withExtra 0 ⟨[.fill 20 1], [], []⟩ with time := 9223372036854775808 },
          fun _ => none⟩
        (.withExtra 1 ⟨[], [], []⟩)).2 = none ∧
      (prepare sampleCrypto ⟨0⟩ 1 1 (.fill 20 9)
        ⟨fun _ _ => some { Header.withExtra 0 ⟨[.fill 20 1], [], []⟩ with time := 9223372036854775808 },
          fun _ => none⟩
        (.withExtra 1 ⟨[], [], []⟩)).1.time = 1 ∧
      (9223372036854775808 : UInt64) + 0 > 1 ∧
      (prepare sampleCrypto ⟨11⟩ 5 5 (.fill 20 9)
        ⟨fun _ _ => some { Header.withExtra 0 ⟨[.fill 20 1], [], []⟩ with time := 18446744073709551615 },
          fun _ => none⟩
        (.withExtra 1 ⟨[], [], []⟩)).2 = none ∧
      (prepare sampleCrypto ⟨11⟩ 5 5 (.fill 20 9)
        ⟨fun _ _ => some { Header.withExtra 0 ⟨[.fill 20 1], [], []⟩ with time := 18446744073709551615 },
          fun _ => none⟩
        (.withExtra 1 ⟨[], [], []⟩)).1.time = 10 ∧
      (10 : Nat) < max (18446744073709551615 + 11) 5 := by
  decide

end SmiloBft.Tendermint
