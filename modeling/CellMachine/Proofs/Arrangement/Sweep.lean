import Mathlib.GroupTheory.Perm.Cycle.Basic
import CellMachine.Arrangement

/-! # Sweeps

A sweep of the first `k` places is the sequence of rearrangements of these places that the counters
below place `k` go through before the counter of place `k` is looked at. A sweep of one place more
is made of `k + 1` sweeps of the first `k` places, with an exchange at place `k` between each and
the next. It is complete and free of repetitions because the `k + 1` parts bring different places to
place `k`.

Why they do depends on the parity of `k`. When `k` is odd, a sweep of `k` places leaves its first
and last place exchanged, and the parts bring up `k`, `k - 1`, `1`, `2`, …, `k - 2`, `0`. When `k`
is even, a sweep of `k` places leaves them moved around one cycle, which the exchange with the first
place makes one longer.
-/

namespace Equiv.Perm

variable {α : Type*} [DecidableEq α]

/-- A cycle is made one longer by exchanging one of its points with a point that is fixed. -/
theorem IsCycleOn.mul_swap {f : Perm α} {s : Finset α} (cycle : f.IsCycleOn s) {a b : α}
    (inside : a ∈ s) (outside : b ∉ s) (fixed : f b = b) :
    (f * swap a b).IsCycleOn (insert b s : Finset α) := by
  have ne : a ≠ b := fun same => outside (same ▸ inside)
  have atA : (f * swap a b) a = b := by simp [fixed]
  have atB : (f * swap a b) b = f a := by simp
  have elsewhere {x : α} (notA : x ≠ a) (notB : x ≠ b) : (f * swap a b) x = f x := by
    simp [swap_apply_of_ne_of_ne notA notB]
  have maps (x : α) : (f * swap a b) x ∈ (insert b s : Finset α) ↔ x ∈ (insert b s : Finset α) := by
    have stays (y : α) : f y ∈ s ↔ y ∈ s := by exact_mod_cast cycle.apply_mem_iff
    have moved (y : α) : f y = b ↔ y = b :=
      ⟨fun same => f.injective (same.trans fixed.symm), fun same => same ▸ fixed⟩
    by_cases isA : x = a
    · simp [isA, inside, fixed]
    by_cases isB : x = b
    · simp [isB, stays, inside]
    · simp [elsewhere isA isB, stays, moved]
  have sameCycle {x : α} (there : x ∈ (insert b s : Finset α)) :
      (f * swap a b).SameCycle a x := by
    have second : (f * swap a b).SameCycle a b := ⟨1, by rw [zpow_one, atA]⟩
    obtain rfl | old := Finset.mem_insert.mp there
    · exact second
    · obtain ⟨n, -, rfl⟩ := cycle.exists_pow_eq inside old
      clear there old
      -- Along the old cycle the new one goes the same way, with a detour by `b` after `a`.
      induction n with
      | zero => exact .rfl
      | succ n ih =>
        rw [pow_succ', mul_apply]
        have member : (f ^ n) a ∈ s := cycle.1.mapsTo.perm_pow n inside
        by_cases back : (f ^ n) a = a
        · rw [back, ← atB]
          exact sameCycle_apply_right.mpr second
        · rw [← elsewhere back (fun same => outside (same ▸ member))]
          exact sameCycle_apply_right.mpr ih
  refine ⟨(f * swap a b).bijOn (by exact_mod_cast maps), fun x hx y hy => ?_⟩
  exact (sameCycle (by exact_mod_cast hx)).symm.trans (sameCycle (by exact_mod_cast hy))

end Equiv.Perm

namespace CellMachine.Arrangement

open Equiv

/-- The exchange of two places, as a permutation of places. -/
def Exchange.perm (e : Exchange) : Perm ℕ :=
  swap e.partner e.place

/-- The rearrangement with which part number `c` of a sweep begins, when the sweep of the first `k`
places in each part ends with the rearrangement `final`. -/
def opening (final : Perm ℕ) (k : ℕ) : ℕ → Perm ℕ
  | 0 => 1
  | c + 1 => opening final k c * final * (Exchange.mk k c).perm

/-- The rearrangement with which a sweep of the first `k` places ends. -/
def ending : ℕ → Perm ℕ
  | 0 => 1
  | k + 1 => opening (ending k) k k * ending k

/-- The rearrangements of a sweep of the first `k` places, in order. -/
def sweep : ℕ → List (Perm ℕ)
  | 0 => [1]
  | k + 1 => (List.range (k + 1)).flatMap fun c => (sweep k).map (opening (ending k) k c * ·)

/-! ## Parity -/

/-- The exchanges at an even place are all with the first place. -/
theorem opening_of_even {k : ℕ} (even : Even k) (final : Perm ℕ) (c : ℕ) :
    opening final k c = (final * swap 0 k) ^ c := by
  induction c with
  | zero => rfl
  | succ c ih =>
    have partner : (Exchange.mk k c).partner = 0 := by
      simp [Exchange.partner, Nat.even_iff.mp even]
    rw [opening, ih, Exchange.perm, partner, pow_succ, mul_assoc]

/-- The product of the exchanges made before part number `c` at an odd place `k`, when every part
ends with the exchange of its first and last place: those exchanges cancel in pairs, and what is
left is one exchange with place `k` for each part. -/
def spokes (k c : ℕ) : Perm ℕ :=
  opening (swap 0 (k - 1)) k c * swap 0 (k - 1) ^ c

private theorem swap_pow_two_mul (a b n : ℕ) : (swap a b : Perm ℕ) ^ (2 * n) = 1 := by
  rw [pow_mul, sq, swap_mul_self, one_pow]

private theorem spokes_succ {k : ℕ} (odd : Odd k) (c : ℕ) :
    spokes k (c + 1) = spokes k c * swap k (swap 0 (k - 1) c) := by
  obtain ⟨m, rfl⟩ := odd
  have partner : (Exchange.mk (2 * m + 1) c).partner = c := by simp [Exchange.partner]
  have top : swap 0 (2 * m) (2 * m + 1) = 2 * m + 1 :=
    swap_apply_of_ne_of_ne (by omega) (by omega)
  simp only [spokes, opening, Exchange.perm, partner, Nat.add_sub_cancel]
  rw [mul_assoc, mul_assoc, mul_assoc]
  congr 1
  obtain ⟨n, even | odd⟩ := c.even_or_odd'
  · -- The exchange of the ends stands on both sides and moves the partner.
    have conj : swap (2 * m + 1) (swap 0 (2 * m) c) =
        swap 0 (2 * m) * swap c (2 * m + 1) * swap 0 (2 * m) := by
      have moved := swap_apply_apply (swap 0 (2 * m)) c (2 * m + 1)
      rw [top, swap_inv] at moved
      rw [swap_comm, moved]
    have one : (swap 0 (2 * m) : Perm ℕ) ^ c = 1 := even ▸ swap_pow_two_mul ..
    rw [pow_succ, one, one_mul, one_mul, conj, mul_assoc]
  · -- An odd partner is neither of the two ends.
    have kept : swap 0 (2 * m) c = c := swap_apply_of_ne_of_ne (by omega) (by omega)
    rw [kept, swap_comm (2 * m + 1), odd, pow_succ, pow_succ, swap_pow_two_mul, one_mul,
      swap_mul_self, mul_one]

/-- The exchanges with place `k` make one cycle of the places that they reach. -/
theorem spokes_isCycleOn {k : ℕ} (odd : Odd k) {c : ℕ} (le : c ≤ k) :
    (spokes k c).IsCycleOn
        (insert k ((Finset.range c).image (swap 0 (k - 1))) : Finset ℕ) ∧
      ∀ j ∉ (insert k ((Finset.range c).image (swap 0 (k - 1))) : Finset ℕ), spokes k c j = j := by
  induction c with
  | zero => simp [spokes, opening]
  | succ c ih =>
    obtain ⟨cycle, fixes⟩ := ih (by omega)
    obtain ⟨m, rfl⟩ := odd
    have below : swap 0 (2 * m) c ≠ 2 * m + 1 := by
      rw [swap_apply_def]
      split_ifs <;> omega
    have fresh : swap 0 (2 * m) c ∉
        (insert (2 * m + 1) ((Finset.range c).image (swap 0 (2 * m))) : Finset ℕ) := by
      simp [below]
    have grown : (insert (2 * m + 1) ((Finset.range (c + 1)).image (swap 0 (2 * m))) : Finset ℕ) =
        insert (swap 0 (2 * m) c)
          (insert (2 * m + 1) ((Finset.range c).image (swap 0 (2 * m)))) := by
      rw [Finset.range_add_one, Finset.image_insert, Finset.insert_comm]
    simp only [Nat.add_sub_cancel] at cycle fixes ⊢
    rw [spokes_succ (by simp), grown, Nat.add_sub_cancel]
    refine ⟨cycle.mul_swap (Finset.mem_insert_self ..) fresh (fixes _ fresh), ?_⟩
    intro j out
    simp only [Finset.mem_insert, not_or] at out
    rw [Perm.mul_apply, swap_apply_of_ne_of_ne out.2.1 out.1]
    exact fixes j (by simpa using out.2)

/-- At an odd place `k` the later parts bring up the places that the exchange of the ends gives. -/
theorem opening_apply_of_odd {k : ℕ} (odd : Odd k) {c : ℕ} (lt : c < k) :
    opening (swap 0 (k - 1)) k (c + 1) k = swap 0 (k - 1) c := by
  have top (n : ℕ) : (swap 0 (k - 1) ^ n) k = k := by
    refine Function.IsFixedPt.perm_pow ?_ n
    exact swap_apply_of_ne_of_ne (by omega) (by omega)
  have fresh : swap 0 (k - 1) c ∉
      (insert k ((Finset.range c).image (swap 0 (k - 1))) : Finset ℕ) := by
    have below : swap 0 (k - 1) c ≠ k := by
      rw [swap_apply_def]
      split_ifs <;> omega
    simp [below]
  calc opening (swap 0 (k - 1)) k (c + 1) k
      = spokes k (c + 1) k := by rw [spokes, Perm.mul_apply, top]
    _ = spokes k c (swap 0 (k - 1) c) := by rw [spokes_succ odd, Perm.mul_apply, swap_apply_left]
    _ = swap 0 (k - 1) c := (spokes_isCycleOn odd lt.le).2 _ fresh

/-- The exchanges of a sweep at place `k` do not reach beyond it. -/
theorem opening_fixes {k : ℕ} {final : Perm ℕ} (fixes : ∀ j, k < j → final j = j) {c : ℕ}
    (le : c ≤ k) {j : ℕ} (beyond : k < j) : opening final k c j = j := by
  induction c with
  | zero => rfl
  | succ c ih =>
    have partner : (Exchange.mk k c).partner ≤ k := by
      unfold Exchange.partner
      split_ifs
      · exact Nat.zero_le k
      · exact (Nat.lt_of_succ_le le).le
    have kept : (Exchange.mk k c).perm j = j :=
      swap_apply_of_ne_of_ne (by omega) (by dsimp only; omega)
    rw [opening, Perm.mul_apply, Perm.mul_apply, kept, fixes j beyond, ih (by omega)]

/-- A sweep of the first `k` places does not reach beyond them. -/
theorem ending_fixes {k j : ℕ} (le : k ≤ j) : ending k j = j := by
  induction k generalizing j with
  | zero => rfl
  | succ k ih =>
    rw [ending, Perm.mul_apply, ih (by omega)]
    exact opening_fixes (fun j beyond => ih (by omega)) le_rfl le

/-- The cycle made by a sweep of an even number of places is made longer by the exchange with the
first place. -/
theorem isCycleOn_ending_mul_swap {k : ℕ} (cycle : (ending k).IsCycleOn (Finset.range k)) :
    (ending k * swap 0 k).IsCycleOn (Finset.range (k + 1)) := by
  rcases k.eq_zero_or_pos with rfl | positive
  · simp [ending]
  · rw [Finset.range_add_one]
    exact cycle.mul_swap (Finset.mem_range.mpr positive) Finset.notMem_range_self
      (ending_fixes le_rfl)

/-- A sweep of an even number of places moves them around one cycle, and a sweep of an odd number of
places exchanges the first and the last. -/
theorem ending_parity (k : ℕ) :
    (Even k → (ending k).IsCycleOn (Finset.range k)) ∧ (Odd k → ending k = swap 0 (k - 1)) := by
  induction k with
  | zero => simp [ending]
  | succ k ih =>
    constructor
    · intro even
      have odd : Odd k := by grind
      have total : ending (k + 1) = spokes k k := by
        obtain ⟨n, count⟩ := odd
        have cancelled : (swap 0 (k - 1) : Perm ℕ) ^ k = swap 0 (k - 1) := by
          nth_rewrite 2 [count]
          rw [pow_succ, swap_pow_two_mul, one_mul]
        rw [spokes, cancelled, ending, ih.2 (by grind)]
      have reached : (insert k ((Finset.range k).image (swap 0 (k - 1))) : Finset ℕ) =
          Finset.range (k + 1) := by
        have inside : (Finset.range k).image (swap 0 (k - 1)) ⊆ Finset.range k := by
          intro j member
          obtain ⟨i, below, rfl⟩ := Finset.mem_image.mp member
          rw [Finset.mem_range] at below ⊢
          rw [swap_apply_def]
          split_ifs <;> omega
        rw [Finset.range_add_one, Finset.eq_of_subset_of_card_le inside
          (Finset.card_image_of_injective _ (Equiv.injective _)).ge]
      rw [total, ← reached]
      exact (spokes_isCycleOn odd le_rfl).1
    · intro odd
      have even : Even k := by grind
      have cycle := isCycleOn_ending_mul_swap (ih.1 even)
      have whole : (ending k * swap 0 k) ^ (k + 1) = 1 := by
        ext j
        rcases Nat.lt_or_ge j (k + 1) with inside | beyond
        · simpa using cycle.pow_card_apply (Finset.mem_range.mpr inside)
        · refine Function.IsFixedPt.perm_pow ?_ (k + 1)
          change ending k (swap 0 k j) = j
          rw [swap_apply_of_ne_of_ne (by omega) (by omega), ending_fixes (by omega)]
      have split : ending k = ending k * swap 0 k * swap 0 k := by
        rw [mul_assoc, swap_mul_self, mul_one]
      rw [ending, opening_of_even even]
      nth_rewrite 2 [split]
      rw [← mul_assoc, ← pow_succ, whole, one_mul, Nat.add_sub_cancel]

/-- The parts of a sweep bring different places to place `k`. -/
theorem opening_apply_injective {k c d : ℕ} (cLe : c ≤ k) (dLe : d ≤ k)
    (same : opening (ending k) k c k = opening (ending k) k d k) : c = d := by
  rcases k.even_or_odd with even | odd
  · rw [opening_of_even even, opening_of_even even] at same
    have cycle := isCycleOn_ending_mul_swap ((ending_parity k).1 even)
    have congruent := (cycle.pow_apply_eq_pow_apply (Finset.self_mem_range_succ k)).mp same
    rw [Finset.card_range] at congruent
    exact congruent.eq_of_lt_of_lt (by omega) (by omega)
  · rw [(ending_parity k).2 odd] at same
    have below {c : ℕ} (lt : c < k) : swap 0 (k - 1) c ≠ k := by
      rw [swap_apply_def]
      split_ifs <;> omega
    rcases c with _ | c <;> rcases d with _ | d
    · rfl
    · rw [opening_apply_of_odd odd dLe] at same
      exact (below dLe same.symm).elim
    · rw [opening_apply_of_odd odd cLe] at same
      exact (below cLe same).elim
    · rw [opening_apply_of_odd odd cLe, opening_apply_of_odd odd dLe] at same
      rw [(swap 0 (k - 1)).injective same]

/-! ## The rearrangements of a sweep -/

/-- A sweep of the first `k` places only moves these. -/
theorem sweep_fixes {k : ℕ} {σ : Perm ℕ} (member : σ ∈ sweep k) {j : ℕ} (le : k ≤ j) : σ j = j := by
  induction k generalizing σ j with
  | zero =>
    obtain rfl : σ = 1 := by simpa [sweep] using member
    rfl
  | succ k ih =>
    obtain ⟨c, count, τ, inner, rfl⟩ : ∃ c, c < k + 1 ∧ ∃ τ ∈ sweep k,
        opening (ending k) k c * τ = σ := by
      simpa [sweep] using member
    rw [Perm.mul_apply, ih inner (by omega)]
    exact opening_fixes (fun j beyond => ending_fixes beyond.le) (by omega) le

/-- There are as many rearrangements in a sweep as orderings of its places. -/
theorem length_sweep (k : ℕ) : (sweep k).length = k.factorial := by
  induction k with
  | zero => rfl
  | succ k ih => simp [sweep, ih, Nat.factorial_succ]

/-- A sweep begins with the places as they are. -/
theorem head?_sweep (k : ℕ) : (sweep k).head? = some 1 := by
  induction k with
  | zero => rfl
  | succ k ih => simp [sweep, List.range_succ_eq_map, ih, opening]

/-- The last rearrangement of a sweep is the one with which it is left. -/
theorem getLast?_sweep (k : ℕ) : (sweep k).getLast? = some (ending k) := by
  induction k with
  | zero => rfl
  | succ k ih => simp [sweep, List.range_succ, ih, ending]

/-- No rearrangement occurs twice in a sweep. -/
theorem nodup_sweep (k : ℕ) : (sweep k).Nodup := by
  induction k with
  | zero => exact List.nodup_singleton 1
  | succ k ih =>
    refine List.nodup_flatMap.mpr ⟨fun c _ => ih.map (mul_right_injective _), ?_⟩
    refine List.nodup_range.pairwise_of_forall_ne ?_
    intro c cBelow d dBelow differ σ inC inD
    rw [List.mem_range] at cBelow dBelow
    -- The sweep of a part does not move place `k`, so the two parts would bring up the same place.
    have broughtUp {c : ℕ} (member : σ ∈ (sweep k).map (opening (ending k) k c * ·)) :
        σ k = opening (ending k) k c k := by
      obtain ⟨τ, inner, rfl⟩ := List.mem_map.mp member
      rw [Perm.mul_apply, sweep_fixes inner le_rfl]
    exact differ (opening_apply_injective (by omega) (by omega)
      ((broughtUp inC).symm.trans (broughtUp inD)))

/-- Each rearrangement of a sweep follows from the one before by one exchange. -/
theorem isChain_sweep (k : ℕ) :
    (sweep k).IsChain fun σ τ => ∃ i j, i < j ∧ j < k ∧ τ = σ * swap i j := by
  induction k with
  | zero => exact List.isChain_singleton 1
  | succ k ih =>
    suffices parts : ∀ count ≤ k + 1,
        ((List.range count).flatMap fun c =>
          (sweep k).map (opening (ending k) k c * ·)).IsChain
            fun σ τ => ∃ i j, i < j ∧ j < k + 1 ∧ τ = σ * swap i j from parts (k + 1) le_rfl
    intro count le
    induction count with
    | zero => exact List.isChain_nil
    | succ count parts =>
      rw [List.range_succ, List.flatMap_append, List.flatMap_singleton]
      refine List.isChain_append.mpr ⟨parts (by omega), ?_, ?_⟩
      · refine (List.isChain_map _).mpr (ih.imp ?_)
        rintro σ τ ⟨i, j, less, below, rfl⟩
        exact ⟨i, j, less, below.trans k.lt_succ_self, (mul_assoc ..).symm⟩
      · intro σ last τ head
        obtain rfl : opening (ending k) k count = τ := by simpa [head?_sweep] using head
        rcases count with _ | count
        · simp at last
        obtain rfl : opening (ending k) k count * ending k = σ := by
          simpa [List.range_succ, getLast?_sweep] using last
        refine ⟨(Exchange.mk k count).partner, k, ?_, k.lt_succ_self, rfl⟩
        simp only [Exchange.partner]
        split_ifs <;> omega

end CellMachine.Arrangement
