/-!
# The front of a sorted array

In a sorted array the elements up to a bound stand in front of all others. How many there are is
found by halving, with a number of tests that grows like the logarithm of the size. The main
statement says that the number is the length of the longest front whose elements pass the test.
-/

namespace ApiCoverage

universe u

variable {α : Type u}

/-- Halves the positions from `low` up to `high` until none is left; the elements before `low` pass
the test and those from `high` on fail it. -/
def frontWithin (test : α → Bool) (items : Array α) (low high : Nat)
    (inside : high ≤ items.size) : Nat :=
  if left : low < high then
    have bound : (low + high) / 2 < items.size := by omega
    if test items[(low + high) / 2] then
      frontWithin test items ((low + high) / 2 + 1) high inside
    else
      frontWithin test items low ((low + high) / 2) (Nat.le_of_lt bound)
  else low
  termination_by high - low

/-- The number of elements at the front of an array that pass a test, where no element passes after
one that fails. -/
def frontLength (test : α → Bool) (items : Array α) : Nat :=
  frontWithin test items 0 items.size (Nat.le_refl _)

theorem frontWithin_le {test : α → Bool} {items : Array α} (low high : Nat)
    (inside : high ≤ items.size) (ordered : low ≤ high) :
    frontWithin test items low high inside ≤ high := by
  fun_induction frontWithin test items low high inside with
  | case1 low high inside left bound passes ih => exact ih (by omega)
  | case2 low high inside left bound fails ih => exact Nat.le_trans (ih (by omega)) (by omega)
  | case3 low high inside done => exact ordered

theorem frontLength_le (test : α → Bool) (items : Array α) :
    frontLength test items ≤ items.size :=
  frontWithin_le 0 items.size (Nat.le_refl _) (Nat.zero_le _)

/-- The elements before the position that halving ends at are the ones that pass the test. -/
theorem test_eq_lt_frontWithin {test : α → Bool} {items : Array α}
    (falling : ∀ (i j : Nat) (bound : j < items.size) (before : i ≤ j),
      test items[j] = true → test items[i] = true)
    (low high : Nat) (inside : high ≤ items.size)
    (pass : ∀ (i : Nat) (_ : i < items.size), i < low → test items[i] = true)
    (fail : ∀ (i : Nat) (_ : i < items.size), high ≤ i → test items[i] = false)
    (ordered : low ≤ high) (i : Nat) (bound : i < items.size) :
    test items[i] = decide (i < frontWithin test items low high inside) := by
  fun_induction frontWithin test items low high inside with
  | case1 low high inside left middle passes ih =>
      refine ih (fun i bound before => ?_) fail (by omega)
      exact falling i ((low + high) / 2) middle (by omega) passes
  | case2 low high inside left middle fails ih =>
      refine ih pass (fun i bound after => ?_) (by omega)
      cases outcome : test items[i] with
      | false => rfl
      | true => exact absurd (falling ((low + high) / 2) i bound after outcome) fails
  | case3 low high inside done =>
      by_cases before : i < low
      · simp [before, pass i bound before]
      · simp [before, fail i bound (by omega)]

/-- The elements before the front length are the ones that pass the test. -/
theorem test_eq_lt_frontLength {test : α → Bool} {items : Array α}
    (falling : items.toList.Pairwise fun first second => test second = true → test first = true)
    (i : Nat) (bound : i < items.size) :
    test items[i] = decide (i < frontLength test items) := by
  refine test_eq_lt_frontWithin ?_ 0 items.size (Nat.le_refl _) ?_ ?_ (Nat.zero_le _) i bound
  · intro first second inside before passes
    rcases Nat.lt_or_eq_of_le before with earlier | rfl
    · exact List.pairwise_iff_getElem.1 falling first second (by simp; omega)
        (by simpa using inside) earlier passes
    · exact passes
  · intro position _ below
    omega
  · intro position _ beyond
    omega

/-- A front is as long as the number of positions at which the test passes. -/
theorem length_takeWhile_eq {test : α → Bool} {list : List α} {count : Nat}
    (fits : count ≤ list.length)
    (passes : ∀ (i : Nat) (_ : i < list.length), test list[i] = decide (i < count)) :
    (list.takeWhile test).length = count := by
  induction list generalizing count with
  | nil => simp_all
  | cons head rest ih =>
      have first := passes 0 (by simp)
      cases count with
      | zero => simp_all
      | succ count =>
          have later : (rest.takeWhile test).length = count :=
            ih (by simpa using fits) fun i bound =>
              (passes (i + 1) (by simpa using bound)).trans (by simp)
          simp_all

/-- The front of an array whose elements stop passing once and for all is as long as the front that
is found element by element. -/
theorem frontLength_eq_length_takeWhile {test : α → Bool} {items : Array α}
    (falling : items.toList.Pairwise fun first second => test second = true → test first = true) :
    frontLength test items = (items.toList.takeWhile test).length :=
  (length_takeWhile_eq (by simpa using frontLength_le test items) fun i bound => by
    simpa using test_eq_lt_frontLength falling i (by simpa using bound)).symm

end ApiCoverage
