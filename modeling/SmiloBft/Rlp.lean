import SmiloBft.Types
import Mathlib.Tactic.NormNum
import Mathlib.Tactic.Ring
import Mathlib.Tactic.Positivity

/-!
# RLP coding of the consensus extra-data

Modelled from the spec: the `rlp` package is not in the repository's files. The
encoder writes canonical RLP; the decoder is the strict one of `rlp.DecodeBytes`:
short forms where they fit, sizes without leading zeros, no trailing bytes. RLP
sizes are `uint64`, so a payload of `2^64` bytes or more has no encoding.
-/

namespace SmiloBft.Rlp

set_option autoImplicit false

def bigEndian : Nat → Nat → List UInt8
  | 0, _ => []
  | k + 1, i => bigEndian k (i / 256) ++ [UInt8.ofNat i]

def putintSize (i : Nat) : Nat :=
  if i < 2 ^ 8 then 1 else if i < 2 ^ 16 then 2 else if i < 2 ^ 24 then 3
  else if i < 2 ^ 32 then 4 else if i < 2 ^ 40 then 5 else if i < 2 ^ 48 then 6
  else if i < 2 ^ 56 then 7 else 8

/-- `putint`: a `uint64` in big-endian order without leading zeros. -/
def putint (i : Nat) : List UInt8 := bigEndian (putintSize i) i

def puthead (smalltag largetag size : Nat) : List UInt8 :=
  if size < 56 then [UInt8.ofNat (smalltag + size)]
  else UInt8.ofNat (largetag + putintSize size) :: putint size

def encodeString : List UInt8 → List UInt8
  | [b] => if b.toNat < 0x80 then [b] else puthead 0x80 0xB7 1 ++ [b]
  | b => puthead 0x80 0xB7 b.length ++ b

def encodeList (payload : List UInt8) : List UInt8 := puthead 0xC0 0xF7 payload.length ++ payload

def extraPayload (e : ConsensusExtra) : List UInt8 :=
  encodeList (e.validators.flatMap fun a => encodeString a.bytes) ++
    encodeString e.proposerSeal ++ encodeList (e.committedSeal.flatMap encodeString)

/-- `rlp.EncodeToBytes` of a `ConsensusExtra`. -/
def encodeExtra (e : ConsensusExtra) : List UInt8 := encodeList (extraPayload e)

/-- RLP sizes are `uint64`: the extra has an encoding when its payload is shorter than `2^64`. -/
def Encodable (e : ConsensusExtra) : Prop := (extraPayload e).length < 2 ^ 64

instance : DecidablePred Encodable := fun _ => inferInstanceAs (Decidable (_ < _))

inductive Kind where
  | byte
  | string
  | list
deriving DecidableEq

def bigEndianValue (bs : List UInt8) : Nat := bs.foldl (fun acc b => acc * 256 + b.toNat) 0

def readSize (k : Nat) (bs : List UInt8) : Option (Nat × List UInt8) :=
  if bs.length < k then none
  else if 2 ≤ k ∧ bs.head? = some 0 then none
  else if bigEndianValue (bs.take k) < 56 then none
  else some (bigEndianValue (bs.take k), bs.drop k)

def takeContent (kind : Kind) (n : Nat) (bs : List UInt8) : Option (Kind × List UInt8 × List UInt8) :=
  if n ≤ bs.length then some (kind, bs.take n, bs.drop n) else none

/-- `Stream.Kind` on the next value: its kind, its content and the bytes after it. -/
def readKind : List UInt8 → Option (Kind × List UInt8 × List UInt8)
  | [] => none
  | b :: bs =>
    if b.toNat < 0x80 then some (.byte, [b], bs)
    else if b.toNat < 0xB8 then takeContent .string (b.toNat - 0x80) bs
    else if b.toNat < 0xC0 then (readSize (b.toNat - 0xB7) bs).bind fun r => takeContent .string r.1 r.2
    else if b.toNat < 0xF8 then takeContent .list (b.toNat - 0xC0) bs
    else (readSize (b.toNat - 0xF7) bs).bind fun r => takeContent .list r.1 r.2

/-- `Stream.Bytes`: a `[]byte`, refusing a one-byte string that should have been a single byte. -/
def decodeByteSlice : Kind → List UInt8 → Option (List UInt8)
  | .byte, c => some c
  | .string, [b] => if b.toNat < 0x80 then none else some [b]
  | .string, c => some c
  | .list, _ => none

def decodeAddress : Kind → List UInt8 → Option Address
  | .string, c => if h : c.length = 20 then some ⟨c, h⟩ else none
  | _, _ => none

def decodeElems {α : Type} (dec : Kind → List UInt8 → Option α) : Nat → List UInt8 → Option (List α)
  | _, [] => some []
  | 0, _ :: _ => none
  | fuel + 1, b :: bs =>
    (readKind (b :: bs)).bind fun r =>
      (dec r.1 r.2.1).bind fun x => (decodeElems dec fuel r.2.2).map (x :: ·)

def decodeListSlice {α : Type} (dec : Kind → List UInt8 → Option α) : Kind → List UInt8 → Option (List α)
  | .list, c => decodeElems dec c.length c
  | _, _ => none

/-- `rlp.DecodeBytes` into a `ConsensusExtra`: one list of exactly three fields, nothing after it. -/
def decodeExtra (bs : List UInt8) : Option ConsensusExtra := do
  let (k, c, rest) ← readKind bs
  guard (k = .list ∧ rest = [])
  let (k₁, c₁, r₁) ← readKind c
  let validators ← decodeListSlice decodeAddress k₁ c₁
  let (k₂, c₂, r₂) ← readKind r₁
  let proposerSeal ← decodeByteSlice k₂ c₂
  let (k₃, c₃, r₃) ← readKind r₂
  let committedSeal ← decodeListSlice decodeByteSlice k₃ c₃
  guard (r₃ = [])
  pure ⟨validators, proposerSeal, committedSeal⟩

@[simp] theorem bigEndian_length (k i : Nat) : (bigEndian k i).length = k := by
  induction k generalizing i with
  | zero => rfl
  | succ k ih => simp [bigEndian, ih]

theorem toNat_ofNat (m : Nat) : (UInt8.ofNat m).toNat = m % 256 := BitVec.toNat_ofNat m 8

theorem toNat_ofNat_lt {m : Nat} (h : m < 256) : (UInt8.ofNat m).toNat = m := by
  rw [toNat_ofNat, Nat.mod_eq_of_lt h]

theorem bigEndianValue_append_singleton (bs : List UInt8) (b : UInt8) :
    bigEndianValue (bs ++ [b]) = bigEndianValue bs * 256 + b.toNat := by
  simp [bigEndianValue, List.foldl_append]

theorem bigEndianValue_bigEndian (k i : Nat) : bigEndianValue (bigEndian k i) = i % 256 ^ k := by
  induction k generalizing i with
  | zero => simp [bigEndian, bigEndianValue, Nat.mod_one]
  | succ k ih =>
    rw [bigEndian, bigEndianValue_append_singleton, ih, toNat_ofNat, Nat.pow_succ', Nat.mod_mul]
    ring

theorem bigEndian_head (k i : Nat) :
    (bigEndian (k + 1) i).head? = some (UInt8.ofNat (i / 256 ^ k)) := by
  induction k generalizing i with
  | zero => simp [bigEndian]
  | succ k ih =>
    rw [bigEndian, List.head?_append, ih, Nat.div_div_eq_div_mul, Nat.pow_succ']
    rfl

theorem putint_spec {n : Nat} (h56 : 56 ≤ n) (h64 : n < 2 ^ 64) :
    1 ≤ putintSize n ∧ putintSize n ≤ 8 ∧ n < 256 ^ putintSize n ∧
      (2 ≤ putintSize n → 256 ^ (putintSize n - 1) ≤ n) := by
  rw [putintSize]
  by_cases h1 : n < 2 ^ 8
  · rw [if_pos h1]; omega
  by_cases h2 : n < 2 ^ 16
  · rw [if_neg h1, if_pos h2]; omega
  by_cases h3 : n < 2 ^ 24
  · rw [if_neg h1, if_neg h2, if_pos h3]; omega
  by_cases h4 : n < 2 ^ 32
  · rw [if_neg h1, if_neg h2, if_neg h3, if_pos h4]; omega
  by_cases h5 : n < 2 ^ 40
  · rw [if_neg h1, if_neg h2, if_neg h3, if_neg h4, if_pos h5]; omega
  by_cases h6 : n < 2 ^ 48
  · rw [if_neg h1, if_neg h2, if_neg h3, if_neg h4, if_neg h5, if_pos h6]; omega
  by_cases h7 : n < 2 ^ 56
  · rw [if_neg h1, if_neg h2, if_neg h3, if_neg h4, if_neg h5, if_neg h6, if_pos h7]; omega
  rw [if_neg h1, if_neg h2, if_neg h3, if_neg h4, if_neg h5, if_neg h6, if_neg h7]; omega

theorem putint_length (n : Nat) : (putint n).length = putintSize n := bigEndian_length _ _

theorem bigEndianValue_putint {n : Nat} (h56 : 56 ≤ n) (h64 : n < 2 ^ 64) :
    bigEndianValue (putint n) = n := by
  rw [putint, bigEndianValue_bigEndian, Nat.mod_eq_of_lt (putint_spec h56 h64).2.2.1]

theorem putint_head_ne_zero {n : Nat} (h56 : 56 ≤ n) (h64 : n < 2 ^ 64) (h2 : 2 ≤ putintSize n) :
    (putint n).head? ≠ some 0 := by
  obtain ⟨h1, -, hlt, hle⟩ := putint_spec h56 h64
  obtain ⟨k, hk⟩ : ∃ k, putintSize n = k + 1 := ⟨putintSize n - 1, by omega⟩
  rw [putint, hk, bigEndian_head]
  rw [hk, Nat.add_sub_cancel] at hle
  rw [hk, Nat.pow_succ] at hlt
  rw [hk] at h2
  have hpos : 0 < 256 ^ k := by positivity
  have hq1 : 1 ≤ n / 256 ^ k := (Nat.le_div_iff_mul_le hpos).mpr (by simpa using hle h2)
  have hq2 : n / 256 ^ k < 256 := (Nat.div_lt_iff_lt_mul hpos).mpr (by rwa [mul_comm])
  intro h
  have := congrArg UInt8.toNat (Option.some.inj h)
  rw [toNat_ofNat_lt hq2] at this
  exact absurd this (by simp; omega)

theorem readSize_putint {n : Nat} (h56 : 56 ≤ n) (h64 : n < 2 ^ 64) (rest : List UInt8) :
    readSize (putintSize n) (putint n ++ rest) = some (n, rest) := by
  have hl := putint_length n
  have hv := bigEndianValue_putint h56 h64
  have hz := putint_head_ne_zero h56 h64
  have hne : putint n ≠ [] := by
    intro h; have := (putint_spec h56 h64).1; rw [← hl, h] at this; simp at this
  unfold readSize
  rw [List.take_left' hl, List.drop_left' hl, hv, List.head?_append_of_ne_nil _ hne]
  simp only [List.length_append, hl]
  split_ifs with h1 h2 h3 <;> first | omega | exact absurd h2.2 (hz h2.1) | rfl

theorem takeContent_append (kind : Kind) (c rest : List UInt8) :
    takeContent kind c.length (c ++ rest) = some (kind, c, rest) := by
  simp [takeContent]

theorem readKind_puthead {smalltag largetag : Nat} {kind : Kind} (c rest : List UInt8)
    (hc : c.length < 2 ^ 64)
    (hshort : ∀ n, n < 56 → readKind (UInt8.ofNat (smalltag + n) :: (c ++ rest)) =
      takeContent kind n (c ++ rest))
    (hlong : ∀ s, 1 ≤ s → s ≤ 8 → ∀ bs, readKind (UInt8.ofNat (largetag + s) :: bs) =
      (readSize s bs).bind fun r => takeContent kind r.1 r.2) :
    readKind (puthead smalltag largetag c.length ++ c ++ rest) = some (kind, c, rest) := by
  unfold puthead
  split_ifs with h
  · rw [List.singleton_append, List.cons_append, hshort _ h, takeContent_append]
  · obtain ⟨h1, h8, -⟩ := putint_spec (Nat.le_of_not_lt h) hc
    simp only [List.cons_append, List.append_assoc]
    rw [hlong _ h1 h8, readSize_putint (Nat.le_of_not_lt h) hc, Option.some_bind, takeContent_append]

theorem readKind_stringHead (c rest : List UInt8) (hc : c.length < 2 ^ 64) :
    readKind (puthead 0x80 0xB7 c.length ++ c ++ rest) = some (.string, c, rest) := by
  refine readKind_puthead c rest hc (fun n hn => ?_) (fun s h1 h8 bs => ?_)
  · rw [readKind, toNat_ofNat_lt (show 0x80 + n < 256 by omega), if_neg (by omega : ¬ 0x80 + n < 0x80),
      if_pos (by omega : 0x80 + n < 0xB8), Nat.add_sub_cancel_left]
  · rw [readKind, toNat_ofNat_lt (show 0xB7 + s < 256 by omega), if_neg (by omega : ¬ 0xB7 + s < 0x80),
      if_neg (by omega : ¬ 0xB7 + s < 0xB8), if_pos (by omega : 0xB7 + s < 0xC0), Nat.add_sub_cancel_left]

theorem readKind_encodeList (p rest : List UInt8) (hp : p.length < 2 ^ 64) :
    readKind (encodeList p ++ rest) = some (.list, p, rest) := by
  refine readKind_puthead p rest hp (fun n hn => ?_) (fun s h1 h8 bs => ?_)
  · rw [readKind, toNat_ofNat_lt (show 0xC0 + n < 256 by omega), if_neg (by omega : ¬ 0xC0 + n < 0x80),
      if_neg (by omega : ¬ 0xC0 + n < 0xB8), if_neg (by omega : ¬ 0xC0 + n < 0xC0),
      if_pos (by omega : 0xC0 + n < 0xF8), Nat.add_sub_cancel_left]
  · rw [readKind, toNat_ofNat_lt (show 0xF7 + s < 256 by omega), if_neg (by omega : ¬ 0xF7 + s < 0x80),
      if_neg (by omega : ¬ 0xF7 + s < 0xB8), if_neg (by omega : ¬ 0xF7 + s < 0xC0),
      if_neg (by omega : ¬ 0xF7 + s < 0xF8), Nat.add_sub_cancel_left]

def RoundTrips {α : Type} (P : α → Prop) (enc : α → List UInt8)
    (dec : Kind → List UInt8 → Option α) : Prop :=
  ∀ x, P x → ∀ rest, ∃ k c, readKind (enc x ++ rest) = some (k, c, rest) ∧ dec k c = some x

theorem encodeString_roundTrips :
    RoundTrips (fun b : List UInt8 => b.length < 2 ^ 64) encodeString decodeByteSlice := by
  intro b hb rest
  match b with
  | [x] =>
    by_cases hx : x.toNat < 0x80
    · exact ⟨.byte, [x], by simp [encodeString, hx, readKind], rfl⟩
    · refine ⟨.string, [x], ?_, by simp [decodeByteSlice, hx]⟩
      simpa [encodeString, hx] using readKind_stringHead [x] rest hb
  | [] => exact ⟨.string, [], by simpa [encodeString] using readKind_stringHead [] rest hb, rfl⟩
  | x :: y :: t =>
    exact ⟨.string, x :: y :: t, by simpa [encodeString] using readKind_stringHead _ rest hb, rfl⟩

theorem encodeAddress_roundTrips :
    RoundTrips (fun _ : Address => True) (fun a => encodeString a.bytes) decodeAddress := by
  rintro ⟨_ | ⟨x, _ | ⟨y, t⟩⟩, hl⟩ - rest
  · simp at hl
  · simp at hl
  · exact ⟨.string, x :: y :: t, by simpa [encodeString] using readKind_stringHead (x :: y :: t) rest (by simp_all),
      by simp [decodeAddress, hl]⟩

theorem takeContent_rest {kind : Kind} {n : Nat} {bs : List UInt8}
    {r : Kind × List UInt8 × List UInt8} (h : takeContent kind n bs = some r) :
    r.2.2.length ≤ bs.length := by
  unfold takeContent at h
  split_ifs at h
  cases h
  simp

theorem readSize_rest {k : Nat} {bs : List UInt8} {r : Nat × List UInt8}
    (h : readSize k bs = some r) : r.2.length ≤ bs.length := by
  unfold readSize at h
  split_ifs at h
  cases h
  simp

theorem readKind_shorter {bs : List UInt8} {k : Kind} {c rest : List UInt8}
    (h : readKind bs = some (k, c, rest)) : rest.length < bs.length := by
  match bs with
  | [] => simp [readKind] at h
  | b :: bs =>
    have hlen : rest.length ≤ bs.length := by
      simp only [readKind] at h
      split_ifs at h
      · cases h; exact le_refl _
      · exact takeContent_rest h
      · obtain ⟨r, hr, ht⟩ := Option.bind_eq_some.mp h
        exact (takeContent_rest ht).trans (readSize_rest hr)
      · exact takeContent_rest h
      · obtain ⟨r, hr, ht⟩ := Option.bind_eq_some.mp h
        exact (takeContent_rest ht).trans (readSize_rest hr)
    simp only [List.length_cons]
    omega

theorem decodeElems_flatMap {α : Type} {P : α → Prop} {enc : α → List UInt8}
    {dec : Kind → List UInt8 → Option α} (hrt : RoundTrips P enc dec) :
    ∀ (xs : List α), (∀ x ∈ xs, P x) → ∀ fuel, xs.length ≤ fuel →
      decodeElems dec fuel (xs.flatMap enc) = some xs
  | [], _, fuel, _ => by cases fuel <;> rfl
  | x :: xs, hP, fuel, hf => by
    obtain ⟨k, c, hr, hd⟩ := hrt x (hP x (List.mem_cons_self x xs)) (xs.flatMap enc)
    obtain ⟨fuel, rfl⟩ : ∃ f, fuel = f + 1 := ⟨fuel - 1, by simp at hf; omega⟩
    have ih := decodeElems_flatMap hrt xs (fun y hy => hP y (List.mem_cons_of_mem x hy)) fuel
      (by simp at hf; omega)
    rw [List.flatMap_cons]
    match hb : enc x ++ xs.flatMap enc, hr with
    | [], hr => simp [readKind] at hr
    | b :: bs, hr => simp [decodeElems, hr, hd, ih]

theorem length_le_length_flatMap {α : Type} {P : α → Prop} {enc : α → List UInt8}
    {dec : Kind → List UInt8 → Option α} (hrt : RoundTrips P enc dec) :
    ∀ (xs : List α), (∀ x ∈ xs, P x) → xs.length ≤ (xs.flatMap enc).length
  | [], _ => le_refl _
  | x :: xs, hP => by
    obtain ⟨k, c, hr, -⟩ := hrt x (hP x (List.mem_cons_self x xs)) []
    have h1 := readKind_shorter hr
    have h2 := length_le_length_flatMap hrt xs (fun y hy => hP y (List.mem_cons_of_mem x hy))
    simp only [List.flatMap_cons, List.length_append, List.length_cons, List.append_nil] at h1 ⊢
    omega

theorem decodeListSlice_encodeList {α : Type} {P : α → Prop} {enc : α → List UInt8}
    {dec : Kind → List UInt8 → Option α} (hrt : RoundTrips P enc dec) (xs : List α)
    (hP : ∀ x ∈ xs, P x) : decodeListSlice dec .list (xs.flatMap enc) = some xs :=
  decodeElems_flatMap hrt xs hP _ (length_le_length_flatMap hrt xs hP)

theorem length_le_encodeString (b : List UInt8) : b.length ≤ (encodeString b).length := by
  unfold encodeString
  split
  · split <;> simp
  · simp

theorem length_le_encodeList (p : List UInt8) : p.length ≤ (encodeList p).length := by
  simp [encodeList]

theorem length_le_flatMap_of_mem {α : Type} (f : α → List UInt8) {xs : List α} {x : α}
    (hx : x ∈ xs) : (f x).length ≤ (xs.flatMap f).length := by
  induction xs with
  | nil => cases hx
  | cons y ys ih =>
    rw [List.flatMap_cons, List.length_append]
    rcases List.mem_cons.mp hx with rfl | hx
    · omega
    · have := ih hx; omega

/-- The decoder reads back every encodable extra. -/
theorem decodeExtra_encodeExtra (e : ConsensusExtra) (he : Encodable e) :
    decodeExtra (encodeExtra e) = some e := by
  have hP : (extraPayload e).length < 2 ^ 64 := he
  have hv := length_le_encodeList (e.validators.flatMap fun a => encodeString a.bytes)
  have hs := length_le_encodeString e.proposerSeal
  have hc := length_le_encodeList (e.committedSeal.flatMap encodeString)
  simp only [extraPayload, List.length_append] at hP
  have r₀ : readKind (encodeExtra e) = some (.list, extraPayload e, []) := by
    simpa using readKind_encodeList (extraPayload e) [] he
  have r₁ := readKind_encodeList (e.validators.flatMap fun a => encodeString a.bytes)
    (encodeString e.proposerSeal ++ encodeList (e.committedSeal.flatMap encodeString)) (by omega)
  obtain ⟨k₂, c₂, r₂, d₂⟩ := encodeString_roundTrips e.proposerSeal (by omega)
    (encodeList (e.committedSeal.flatMap encodeString))
  have r₃ : readKind (encodeList (e.committedSeal.flatMap encodeString)) =
      some (.list, e.committedSeal.flatMap encodeString, []) := by
    simpa using readKind_encodeList _ [] (by omega)
  have dv := decodeListSlice_encodeList encodeAddress_roundTrips e.validators (fun _ _ => trivial)
  have dc := decodeListSlice_encodeList encodeString_roundTrips e.committedSeal fun x hx =>
    lt_of_le_of_lt ((length_le_encodeString x).trans (length_le_flatMap_of_mem _ hx)) (by omega)
  rw [extraPayload, List.append_assoc] at r₀
  simp [decodeExtra, r₀, r₁, r₂, r₃, dv, dc, d₂]

end SmiloBft.Rlp
