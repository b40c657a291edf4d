import CombineStream.Basic

/-!
# Slices and the scan loops of `slice_uncons_while`

A slice header is the address of its first item and its items; the address moves by
`size_of::<T>()` (`MemSize.size T`) per item.

`slice_uncons_while` and `slice_uncons_while_ref` scan the slice with an 8-way
unrolled loop of unchecked reads, then finish with a one-item-at-a-time remainder
loop. Here an out-of-bounds `get_unchecked`, an underflowing `len - i` and an
out-of-range `split_at` all give `none`.

* `checks_spec`: an unrolled block of `k` checks is `k` rounds of the remainder loop.
* `scanLoops_eq`: both loops together compute what the remainder loop alone does.
* `remainderLoop_eq_scan`: the remainder loop is `scan`, the plain `take_while`.
* `sliceUnconsWhile_eq_scan` assembles these: `slice_uncons_while` and
  `slice_uncons_while_ref` are the plain loop followed by `split_at`.
-/

namespace CombineStream

/-- `size_of::<T>()`: how far apart the addresses of two neighbouring items of a slice
are. It is `0` for a zero-sized `T`. -/
class MemSize (T : Type) where
  size : Nat

instance : MemSize UInt8 := ⟨1⟩

/-- `()` takes no memory: every item of a `&[()]` is at the slice's address. -/
instance : MemSize Unit := ⟨0⟩

/-- A slice header `&'a [T]`: the address of its first item, and its items. -/
structure Slice (T : Type) where
  ptr : Nat
  data : List T
  deriving DecidableEq, Repr

namespace Slice

variable {T : Type}

/-- `<[T]>::len`. -/
def len (s : Slice T) : Nat := s.data.length

/-- The first `k` items, at the same address. -/
def take (s : Slice T) (k : Nat) : Slice T := ⟨s.ptr, s.data.take k⟩

@[simp] theorem take_data (s : Slice T) (k : Nat) : (s.take k).data = s.data.take k := rfl

@[simp] theorem take_ptr (s : Slice T) (k : Nat) : (s.take k).ptr = s.ptr := rfl

variable [MemSize T]

/-- The items after the first `k`, `k` items further on. -/
def drop (s : Slice T) (k : Nat) : Slice T := ⟨s.ptr + k * MemSize.size T, s.data.drop k⟩

/-- `<[T]>::split_at(mid)`, which panics (`none`) when `mid > len`. -/
def splitAt (s : Slice T) (mid : Nat) : Option (Slice T × Slice T) :=
  if mid ≤ s.len then some (s.take mid, s.drop mid) else none

@[simp] theorem drop_data (s : Slice T) (k : Nat) : (s.drop k).data = s.data.drop k := rfl

@[simp] theorem drop_ptr (s : Slice T) (k : Nat) :
    (s.drop k).ptr = s.ptr + k * MemSize.size T := rfl

@[simp] theorem len_drop (s : Slice T) (k : Nat) : (s.drop k).len = s.len - k := by
  simp [len]

@[simp] theorem drop_zero (s : Slice T) : s.drop 0 = s := by
  simp [drop]

theorem drop_drop (s : Slice T) (a b : Nat) : (s.drop a).drop b = s.drop (a + b) := by
  simp [drop, Nat.add_mul, Nat.add_assoc, List.drop_drop]

theorem splitAt_of_le {s : Slice T} {mid : Nat} (h : mid ≤ s.len) :
    s.splitAt mid = some (s.take mid, s.drop mid) := if_pos h

end Slice

/-! ## The scan loops of `slice_uncons_while` -/

section Loops

variable {T σ : Type} (data : List T) (f : σ → T → Bool × σ)

/-- `check!()` expanded `k` times from index `i`: `exit (i, st)` when `f` rejects
`slice[i]` (`found = true; break`), `pass st` when it accepts all `k` items, having
moved `i` on by `k`; `none` when a `get_unchecked` reads out of bounds. -/
def checks : Nat → Nat → σ → Option (Block (Nat × σ) σ)
  | 0, _, st => some (.pass st)
  | k + 1, i, st =>
    match data[i]? with
    | none => none
    | some x =>
      match f st x with
      | (false, st) => some (.exit (i, st))
      | (true, st) => checks k (i + 1) st

/-- `while len - i >= 8 { check!() × 8 }`, which returns `found` with the index and
the closure's state; `none` when `len - i` underflows or a check reads out of
bounds. -/
def unrolledLoop (i : Nat) (st : σ) : Option (Bool × Nat × σ) :=
  if i ≤ data.length then
    if 8 ≤ data.length - i then
      match checks data f 8 i st with
      | none => none
      | some (.exit (i, st)) => some (true, i, st)
      | some (.pass st) => unrolledLoop (i + 8) st
    else some (false, i, st)
  else none
termination_by data.length - i

/-- `while i < len { if !f(slice[i]) { break; } i += 1; }`. -/
def remainderLoop (i : Nat) (st : σ) : Option (Nat × σ) :=
  if i < data.length then
    match data[i]? with
    | none => none
    | some x =>
      match f st x with
      | (false, st) => some (i, st)
      | (true, st) => remainderLoop (i + 1) st
  else some (i, st)
termination_by data.length - i

/-- Both loops of `slice_uncons_while`: the unrolled one and then, unless it found
the end of the run, the remainder loop. -/
def scanLoops (i : Nat) (st : σ) : Option (Nat × σ) :=
  match unrolledLoop data f i st with
  | none => none
  | some (found, i, st) => if found then some (i, st) else remainderLoop data f i st

variable {data f}

theorem remainderLoop_of_lt {i : Nat} (st : σ) (h : i < data.length) :
    remainderLoop data f i st =
      match f st data[i] with
      | (false, st) => some (i, st)
      | (true, st) => remainderLoop data f (i + 1) st := by
  rw [remainderLoop, if_pos h, List.getElem?_eq_getElem h]

theorem remainderLoop_of_le {i : Nat} (st : σ) (h : data.length ≤ i) :
    remainderLoop data f i st = some (i, st) := by
  rw [remainderLoop, if_neg (Nat.not_lt_of_le h)]

theorem unrolledLoop_of_lt {i : Nat} (st : σ) (le : i ≤ data.length)
    (h : data.length - i < 8) :
    unrolledLoop data f i st = some (false, i, st) := by
  rw [unrolledLoop, if_pos le, if_neg (by omega)]

theorem unrolledLoop_of_ge {i : Nat} (st : σ) (le : i ≤ data.length)
    (h : 8 ≤ data.length - i) :
    unrolledLoop data f i st =
      match checks data f 8 i st with
      | none => none
      | some (.exit (i, st)) => some (true, i, st)
      | some (.pass st) => unrolledLoop data f (i + 8) st := by
  rw [unrolledLoop, if_pos le, if_pos h]

/-- `k` checks from `i` are `k` rounds of the remainder loop: they stop where it
stops, or pass on to `i + k` in the state it reaches there. -/
theorem checks_spec (k i : Nat) (st : σ) (h : i + k ≤ data.length) :
    ∃ b, checks data f k i st = some b ∧
      match b with
      | .exit r => remainderLoop data f i st = some r
      | .pass st' => remainderLoop data f i st = remainderLoop data f (i + k) st' := by
  induction k generalizing i st with
  | zero => exact ⟨_, rfl, rfl⟩
  | succ k ih =>
    have lt : i < data.length := by omega
    rw [remainderLoop_of_lt st lt]
    simp only [checks, List.getElem?_eq_getElem lt]
    rcases hf : f st data[i] with ⟨_ | _, st'⟩
    · exact ⟨.exit (i, st'), rfl, rfl⟩
    · obtain ⟨b, hb, spec⟩ := ih (i + 1) st' (by omega)
      refine ⟨b, hb, ?_⟩
      rcases b with r | st''
      · exact spec
      · simpa [Nat.add_assoc, Nat.add_comm 1 k] using spec

/-- The 8-way unrolled loop changes nothing: followed by the remainder loop, it
computes what the remainder loop alone does, for every length and stop position. -/
theorem scanLoops_eq (i : Nat) (st : σ) (h : i ≤ data.length) :
    scanLoops data f i st = remainderLoop data f i st := by
  induction i, st using unrolledLoop.induct data f with
  | case1 i st le big none =>
    obtain ⟨b, hb, -⟩ := @checks_spec _ _ data f 8 i st (by omega)
    simp [hb] at none
  | case2 i st le big j st' exit =>
    obtain ⟨b, hb, spec⟩ := @checks_spec _ _ data f 8 i st (by omega)
    rw [hb, Option.some.injEq] at exit
    subst exit
    simp [scanLoops, unrolledLoop_of_ge st le big, hb, spec]
  | case3 i st le big st' pass ih =>
    obtain ⟨b, hb, spec⟩ := @checks_spec _ _ data f 8 i st (by omega)
    rw [hb, Option.some.injEq] at pass
    subst pass
    rw [spec, ← ih (by omega)]
    simp only [scanLoops, unrolledLoop_of_ge st le big, hb]
  | case4 i st le small => simp [scanLoops, unrolledLoop_of_lt st le (by omega)]
  | case5 i st gt => exact absurd h gt

/-- The remainder loop is the plain `take_while` scan of the items from `i` on. -/
theorem remainderLoop_eq_scan (i : Nat) (st : σ) :
    remainderLoop data f i st =
      some (i + (scan f st (data.drop i)).1, (scan f st (data.drop i)).2) := by
  induction i, st using remainderLoop.induct data f with
  | case1 i st lt none => simp [List.getElem?_eq_getElem lt] at none
  | case2 i st lt x hx st' hf =>
    obtain rfl : data[i] = x := Option.some.inj ((List.getElem?_eq_getElem lt).symm.trans hx)
    rw [remainderLoop_of_lt st lt, List.drop_eq_getElem_cons lt, scan_cons_of_reject _ hf]
    simp only [hf, Nat.add_zero]
  | case3 i st lt x hx st' hf ih =>
    obtain rfl : data[i] = x := Option.some.inj ((List.getElem?_eq_getElem lt).symm.trans hx)
    rw [remainderLoop_of_lt st lt, List.drop_eq_getElem_cons lt, scan_cons_of_accept _ hf]
    simp only [hf, ih, Option.some.injEq, Prod.mk.injEq, and_true]
    omega
  | case4 i st ge =>
    have ge := Nat.le_of_not_lt ge
    simp [remainderLoop_of_le st ge, List.drop_of_length_le ge]

end Loops

/-! ## `slice_uncons_while` and `slice_uncons_while_ref` -/

section UnconsWhile

variable {T σ : Type} [MemSize T]

/-- `slice_uncons_while(slice, i, f)`: the scanned run `slice[..i]`, the rest, and the
closure's state; `none` on an out-of-bounds read, an underflow or a `split_at` panic. -/
def sliceUnconsWhile (slice : Slice T) (i : Nat) (f : σ → T → Bool × σ) (st : σ) :
    Option (Slice T × Slice T × σ) :=
  match scanLoops slice.data f i st with
  | none => none
  | some (i, st) =>
    match slice.splitAt i with
    | none => none
    | some (result, remaining) => some (result, remaining, st)

/-- `slice_uncons_while_ref`: the same loops, passing `&T` to `f` instead of a clone; a
reference to an item is the item itself here. -/
def sliceUnconsWhileRef (slice : Slice T) (i : Nat) (f : σ → T → Bool × σ) (st : σ) :
    Option (Slice T × Slice T × σ) :=
  sliceUnconsWhile slice i f st

/-- The closed form of `slice_uncons_while` from a start index within the slice. -/
theorem sliceUnconsWhile_eq (s : Slice T) (i : Nat) (h : i ≤ s.len) (f : σ → T → Bool × σ)
    (st : σ) :
    sliceUnconsWhile s i f st =
      some (s.take (i + (scan f st (s.data.drop i)).1),
        s.drop (i + (scan f st (s.data.drop i)).1), (scan f st (s.data.drop i)).2) := by
  have le := scan_fst_le (f := f) st (s.data.drop i)
  simp only [List.length_drop] at le
  simp only [sliceUnconsWhile, scanLoops_eq i st h, remainderLoop_eq_scan,
    @Slice.splitAt_of_le _ _ s (i + (scan f st (s.data.drop i)).1)
      (by simp only [Slice.len] at h ⊢; omega)]

/-- **`slice_uncons_while` is the plain loop.** From a start index `i ≤ len`, the
unrolled scan returns what the one-item-at-a-time remainder loop followed by
`split_at` returns: `s[..j]` and `s[j..]` with `j = i + n`, `n` the number of leading
items of `s[i..]` that `f` accepts, and `f` in the state it reaches when called, in
order, on those items and on `s[j]` when `j < len`. The same holds for
`slice_uncons_while_ref`. -/
theorem sliceUnconsWhile_eq_scan (s : Slice T) (i : Nat) (h : i ≤ s.len)
    (f : σ → T → Bool × σ) (st : σ) :
    (sliceUnconsWhile s i f st =
        (remainderLoop s.data f i st).bind fun r =>
          (s.splitAt r.1).map fun p => (p.1, p.2, r.2)) ∧
      sliceUnconsWhile s i f st =
        some (s.take (i + (scan f st (s.data.drop i)).1),
          s.drop (i + (scan f st (s.data.drop i)).1),
          feed f st ((s.data.drop i).take ((scan f st (s.data.drop i)).1 + 1))) ∧
      sliceUnconsWhileRef s i f st = sliceUnconsWhile s i f st := by
  refine ⟨?_, by rw [sliceUnconsWhile_eq s i h, ← scan_snd], rfl⟩
  simp only [sliceUnconsWhile, scanLoops_eq i st h]
  rcases remainderLoop s.data f i st with _ | ⟨j, st'⟩
  · rfl
  · rcases hs : s.splitAt j with _ | ⟨r, rem⟩ <;> simp [hs]

theorem sliceUnconsWhile_eq_scan_bytes :
    0 ≤ (⟨0, [7, 9]⟩ : Slice UInt8).len ∧
      ((sliceUnconsWhile ⟨0, [7, 9]⟩ 0 (fun (n : Nat) (b : UInt8) => (b < 8, n + 1)) 0 =
          (remainderLoop [7, 9] (fun (n : Nat) (b : UInt8) => (b < 8, n + 1)) 0 0).bind fun r =>
            ((⟨0, [7, 9]⟩ : Slice UInt8).splitAt r.1).map fun p => (p.1, p.2, r.2)) ∧
        sliceUnconsWhile ⟨0, [7, 9]⟩ 0 (fun (n : Nat) (b : UInt8) => (b < 8, n + 1)) 0 =
          some ((⟨0, [7, 9]⟩ : Slice UInt8).take
              (0 + (scan (fun (n : Nat) (b : UInt8) => (b < 8, n + 1)) 0 ([7, 9].drop 0)).1),
            (⟨0, [7, 9]⟩ : Slice UInt8).drop
              (0 + (scan (fun (n : Nat) (b : UInt8) => (b < 8, n + 1)) 0 ([7, 9].drop 0)).1),
            feed (fun (n : Nat) (b : UInt8) => (b < 8, n + 1)) 0 (([7, 9].drop 0).take
              ((scan (fun (n : Nat) (b : UInt8) => (b < 8, n + 1)) 0 ([7, 9].drop 0)).1 + 1))) ∧
        sliceUnconsWhileRef ⟨0, [7, 9]⟩ 0 (fun (n : Nat) (b : UInt8) => (b < 8, n + 1)) 0 =
          sliceUnconsWhile ⟨0, [7, 9]⟩ 0 (fun (n : Nat) (b : UInt8) => (b < 8, n + 1)) 0) :=
  ⟨by decide, sliceUnconsWhile_eq_scan _ 0 (by decide) _ 0⟩

end UnconsWhile

end CombineStream
