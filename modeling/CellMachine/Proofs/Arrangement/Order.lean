import Mathlib.Data.Fintype.Perm
import Mathlib.Data.List.NodupEquivFin
import CellMachine.Proofs.Arrangement.Visit

/-! # Order of the orderings

The orderings of a list are its rearrangements by all permutations of its places, in an order that
only depends on the length of the list.
-/

namespace CellMachine.Arrangement

open Equiv

variable {α : Type}

/-- A permutation of places that fixes those from `n` on, as a permutation of the others. -/
def within (n : ℕ) (σ : Perm ℕ) (fixes : ∀ j, n ≤ j → σ j = j) : Perm (Fin n) :=
  Fin.equivSubtype.symm.permCongr <| σ.subtypePerm fun j => by
    have stays : n ≤ σ j ↔ n ≤ j := by
      constructor
      · exact fun beyond => σ.injective (fixes _ beyond) ▸ beyond
      · exact fun beyond => (fixes j beyond).symm ▸ beyond
    omega

@[simp]
theorem val_within {n : ℕ} {σ : Perm ℕ} (fixes : ∀ j, n ≤ j → σ j = j) (i : Fin n) :
    (within n σ fixes i : ℕ) = σ i :=
  rfl

/-- The permutations of `n` places in the order in which orderings are visited. -/
def order (n : ℕ) : List (Perm (Fin n)) :=
  (sweep n).pmap (within n) fun _ member _ => sweep_fixes member

theorem length_order (n : ℕ) : (order n).length = n.factorial := by
  rw [order, List.length_pmap, length_sweep]

theorem head?_order (n : ℕ) : (order n).head? = some 1 := by
  have attached : (sweep n).attach.head? =
      some ⟨1, List.mem_of_head? (head?_sweep n)⟩ := by
    simp [List.head?_attach, head?_sweep]
  rw [order, List.head?_pmap, attached]
  rfl

theorem nodup_order (n : ℕ) : (order n).Nodup := by
  refine (nodup_sweep n).pmap ?_
  intro σ σFixes τ τFixes same
  ext j
  rcases Nat.lt_or_ge j n with inside | beyond
  · simpa using congrArg Fin.val (DFunLike.congr_fun same ⟨j, inside⟩)
  · rw [σFixes j beyond, τFixes j beyond]

/-- Every permutation of the places has its turn: there are as many as there are turns. -/
theorem mem_order {n : ℕ} (σ : Perm (Fin n)) : σ ∈ order n := by
  have all : (order n).toFinset = Finset.univ := by
    rw [← Finset.card_eq_iff_eq_univ, List.toFinset_card_of_nodup (nodup_order n), length_order,
      Fintype.card_perm, Fintype.card_fin]
  exact List.mem_toFinset.mp (all ▸ Finset.mem_univ σ)

theorem isChain_order (n : ℕ) :
    (order n).IsChain fun σ τ => ∃ i j, i ≠ j ∧ τ = σ * swap i j := by
  refine List.isChain_pmap_of_isChain ?_ (isChain_sweep n) _
  rintro σ _ _ _ ⟨i, j, less, below, rfl⟩
  refine ⟨⟨i, less.trans below⟩, ⟨j, below⟩, fun same => less.ne (congrArg Fin.val same), ?_⟩
  ext place
  simp only [val_within, Perm.mul_apply, swap_apply_def, Fin.ext_iff]
  split_ifs <;> rfl

/-- The values as they stand after a permutation of their places. -/
def rearranged (values : List α) (σ : Perm (Fin values.length)) : List α :=
  List.ofFn fun i => values.get (σ i)

private theorem Reads.eq_rearranged {values ordering : List α} {σ : Perm ℕ}
    (read : Reads values σ ordering) (fixes : ∀ j, values.length ≤ j → σ j = j) :
    ordering = rearranged values (within values.length σ fixes) := by
  refine List.ext_getElem (by simp [rearranged, read.length]) ?_
  intro place inside _
  have found := read.atPlace place
  have known : σ place < values.length :=
    (within values.length σ fixes ⟨place, read.length ▸ inside⟩).isLt
  rw [List.getElem?_eq_getElem inside, List.getElem?_eq_getElem known, Option.some_inj] at found
  simpa [rearranged] using found

/-- The orderings are the rearrangements of the values in the order of the permutations. -/
theorem all_eq_map_order (values : List α) :
    all values = (order values.length).map (rearranged values) := by
  have read := (all_spec values).2.1
  rw [order, List.map_pmap]
  refine List.ext_getElem (by simpa using read.length_eq.symm) ?_
  intro turn inside bound
  rw [List.getElem_pmap]
  exact (read.get (by simpa using bound) inside).eq_rearranged _

/-! ## The number of orderings -/

theorem countFrom_eq (n : ℕ) (product : Cell) :
    countFrom n product = product * Int64.ofNat n.factorial := by
  induction n, product using countFrom.induct with
  | case1 product => simp [countFrom]
  | case2 product => simp [countFrom]
  | case3 n product ih =>
    rw [countFrom, ih, Nat.factorial_succ (n + 1), Int64.ofNat_mul, Int64.mul_assoc]

private theorem count_eq {n : ℕ} (fits : n < 2 ^ 63) :
    count (Int64.ofNat n) = Int64.ofNat n.factorial := by
  rw [count, Int64.toNatClampNeg_ofNat_of_lt fits, countFrom_eq, Int64.one_mul]

/-- The count is exact as long as it is a cell. -/
theorem toInt_count {n : ℕ} (fits : n.factorial < 2 ^ 63) :
    (count (Int64.ofNat n)).toInt = n.factorial := by
  rw [count_eq (n.self_le_factorial.trans_lt fits), Int64.toInt_ofNat_of_lt fits]

/-- A number wraps to a negative cell when its lowest 64 binary digits start with one. -/
private theorem ofNat_neg_iff (n : ℕ) : Int64.ofNat n < 0 ↔ 2 ^ 63 ≤ n % 2 ^ 64 := by
  rw [Int64.lt_iff_toInt_lt, Int64.toInt_ofNat', Int64.toInt_zero, Int.bmod_def, Int64.size]
  omega

/-- The orderings are collected unless their number wraps to a negative one. -/
theorem collect_eq {values : List α} (fits : values.length < 2 ^ 63) :
    collect values = if values.length.factorial % 2 ^ 64 < 2 ^ 63 then .ok (all values)
      else .error { cause := .capacityOutOfRange } := by
  simp only [collect, count_eq fits, ofNat_neg_iff, ← not_lt, ite_not]

/-! ## Completeness -/

theorem rearranged_perm (values : List α) (σ : Perm (Fin values.length)) :
    (rearranged values σ).Perm values := by
  have moved := σ.ofFn_comp_perm values.get
  rwa [List.ofFn_get] at moved

/-- A list with the same values in another order is a rearrangement. Places are followed and not
values, which may be repeated. -/
theorem exists_rearranged {values ordering : List α} (same : ordering.Perm values) :
    ∃ σ, ordering = rearranged values σ := by
  have listed :
      List.Forall₂ (fun a i => a = values.get i) values (List.finRange values.length) :=
    List.forall₂_iff_get.mpr ⟨by simp, fun i _ _ => by simp⟩
  obtain ⟨places, found, moved⟩ := List.perm_comp_forall₂ same listed
  have distinct : places.Nodup := moved.nodup_iff.mpr (List.nodup_finRange _)
  have every (i : Fin values.length) : i ∈ places := moved.mem_iff.mpr (List.mem_finRange i)
  have length : values.length = places.length := by simpa using moved.length_eq.symm
  refine ⟨(finCongr length).trans (distinct.getEquivOfForallMemList places every), ?_⟩
  refine List.ext_get (by simp [rearranged, found.length_eq, ← length]) fun i inside bound => ?_
  simpa [rearranged] using found.get inside (found.length_eq ▸ inside)

/-- The orderings visited are the lists with the same values. -/
theorem mem_all_iff {values ordering : List α} : ordering ∈ all values ↔ ordering.Perm values := by
  rw [all_eq_map_order, List.mem_map]
  constructor
  · rintro ⟨σ, -, rfl⟩
    exact rearranged_perm values σ
  · intro same
    obtain ⟨σ, rfl⟩ := exists_rearranged same
    exact ⟨σ, mem_order σ, rfl⟩

/-- Different values have all their orderings visited, each once. -/
theorem all_of_nodup {values : List α} (distinct : values.Nodup) :
    (all values).Nodup ∧ ∀ ordering, ordering ∈ all values ↔ ordering.Perm values := by
  refine ⟨?_, fun ordering => mem_all_iff⟩
  rw [all_eq_map_order]
  refine (nodup_order _).map fun σ τ same => ?_
  ext i
  have found := congrFun (List.ofFn_injective same) i
  exact congrArg Fin.val (List.nodup_iff_injective_get.mp distinct found)

/-- The orderings of a list of any length are visited in an order of the permutations of its places
that only depends on the length, has each of them once, starts with the identity and makes one
exchange at a time. The visit ends by itself, and the count of orderings is exact when it is a cell.
To collect them takes room for the count: all are collected, unless their number wraps to a negative
one. -/
theorem all_complete {α : Type} (values : List α) :
    ((order values.length).length = values.length.factorial ∧ (order values.length).Nodup ∧
      (∀ σ, σ ∈ order values.length) ∧ (order values.length).head? = some 1 ∧
      (order values.length).IsChain fun σ τ => ∃ i j, i ≠ j ∧ τ = σ * swap i j) ∧
    (∃ last, Run (first values) (all values) last ∧ last.next? = none) ∧
    all values = (order values.length).map (rearranged values) ∧
    (all values).length = values.length.factorial ∧
    (values.Nodup →
      (all values).Nodup ∧ ∀ ordering, ordering ∈ all values ↔ ordering.Perm values) ∧
    (values.length.factorial < 2 ^ 63 →
      (count (Int64.ofNat values.length)).toInt = (all values).length) ∧
    (values.length < 2 ^ 63 →
      collect values = if values.length.factorial % 2 ^ 64 < 2 ^ 63 then .ok (all values)
        else .error { cause := .capacityOutOfRange }) := by
  have total : (all values).length = values.length.factorial := by
    rw [all_eq_map_order, List.length_map, length_order]
  refine ⟨⟨length_order _, nodup_order _, mem_order, head?_order _, isChain_order _⟩,
    (all_spec values).1, all_eq_map_order values, total, all_of_nodup, fun fits => ?_, collect_eq⟩
  rw [toInt_count fits, total]

/-- The number of orderings of 21 values wraps to a negative cell. -/
theorem collect_refused :
    count 21 = -4249290049419214848 ∧
      collect (List.range 21) = .error { cause := .capacityOutOfRange } := by
  refine ⟨by decide, ?_⟩
  rw [collect_eq (by decide), List.length_range, if_neg (by decide)]

end CellMachine.Arrangement
