/-!
# Slices with bounds from either end

A stretch of a list is named by two bounds.  A bound counts elements from the
front, or, when it is negative, from the back; a bound that lies outside the
list is moved to the nearer end, and a stretch whose bounds are out of order is
empty.

## Main definitions

* `sliceBound size bound` — the place in a list of `size` elements that `bound`
  names.
* `slice start stop xs` — the elements of `xs` between two bounds.
-/

namespace Calculator

/-- The place that a bound names in a list of `size` elements: counted from the
back when negative, and never outside the list. -/
def sliceBound (size : Nat) (bound : Int) : Nat :=
  if bound < 0 then (size + bound).toNat else min size bound.toNat

/-- The elements of `xs` from `start`, up to and without `stop`. -/
def slice {α : Type} (start stop : Int) (xs : List α) : List α :=
  (xs.take (sliceBound xs.length stop)).drop (sliceBound xs.length start)

@[simp] theorem sliceBound_natCast (size n : Nat) :
    sliceBound size (n : Int) = min size n := by
  unfold sliceBound
  split <;> omega

/-- Between two bounds from the front, a slice is what stands before the second and not before
the first. -/
theorem slice_eq_drop_take {α : Type} (start stop : Nat) (xs : List α) :
    slice (start : Int) (stop : Int) xs = (xs.take stop).drop start := by
  have htake : xs.take (min xs.length stop) = xs.take stop := by
    rw [Nat.min_comm, ← List.take_eq_take_min]
  rw [slice, sliceBound_natCast, sliceBound_natCast, htake]
  rcases Nat.le_total start xs.length with hle | hle
  · rw [Nat.min_eq_right hle]
  · have hshort : (xs.take stop).length ≤ xs.length := List.length_take_le' stop xs
    rw [Nat.min_eq_left hle, List.drop_eq_nil_of_le hshort,
      List.drop_eq_nil_of_le (Nat.le_trans hshort hle)]

/-- From the front, a slice is what `take` leaves. -/
@[simp] theorem slice_zero_natCast {α : Type} (n : Nat) (xs : List α) :
    slice 0 (n : Int) xs = xs.take n := by
  have h : sliceBound xs.length 0 = 0 := sliceBound_natCast xs.length 0 |>.trans (by simp)
  simp [slice, h, Nat.min_comm]

variable {α : Type} {xs rest : List α} {x : α} {i : Nat}

/-- The element at a place is the first one from there on. -/
theorem getElem?_of_drop_eq (h : xs.drop i = x :: rest) : xs[i]? = some x := by
  rw [← List.head?_drop, h]
  rfl

theorem drop_succ_of_drop_eq (h : xs.drop i = x :: rest) : xs.drop (i + 1) = rest := by
  rw [← List.drop_drop, h]
  rfl

theorem lt_length_of_drop_eq (h : xs.drop i = x :: rest) : i < xs.length :=
  (List.getElem?_eq_some_iff.1 (getElem?_of_drop_eq h)).1

end Calculator
