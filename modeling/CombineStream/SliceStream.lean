import CombineStream.Slice

/-!
# The slice cursors `&[T]` and `SliceStream<T>`

`StreamOnce`, `Positioned` and `RangeStreamOnce` of the two slice cursors, each
method under its source name, and the closed form of each (`Slice.unconsWhile_eq`,
`Slice.unconsWhile1_eq`, ...) in terms of `scan`. `uncons_while1` reads `self[0]`
unchecked only behind the short-circuit `self.is_empty() ||`.

`unconsWhile_isSome` is the safety of the unchecked scans: started within the slice
they never read out of bounds, underflow or panic, and their callers start them
within the slice.
-/

namespace CombineStream

namespace Slice

variable {T σ : Type} [MemSize T]

/-- `<&[T] as Positioned>::position`: the address of the first item. -/
def position (s : Slice T) : PointerOffset := ⟨s.ptr⟩

/-- `<&[T] as StreamOnce>::uncons`, by `split_first`. -/
def uncons (s : Slice T) : Except UnexpectedParse T × Slice T :=
  match s.data with
  | [] => (.error .eoi, s)
  | x :: _ => (.ok x, s.drop 1)

/-- `<&[T] as RangeStreamOnce>::uncons_range`. -/
def unconsRange (s : Slice T) (size : Nat) : Except UnexpectedParse (Slice T) × Slice T :=
  if size ≤ s.len then (.ok (s.take size), s.drop size) else (.error .eoi, s)

/-- `<&[T] as RangeStreamOnce>::uncons_while`: `Ok(slice_uncons_while(self, 0, f))`. -/
def unconsWhile (s : Slice T) (f : σ → T → Bool × σ) (st : σ) :
    Option (Except UnexpectedParse (Slice T) × Slice T × σ) :=
  match sliceUnconsWhile s 0 f st with
  | none => none
  | some (result, rest, st) => some (.ok result, rest, st)

/-- `<&[T] as RangeStreamOnce>::uncons_while1`: `EmptyErr` unless the slice is not
empty and `f` accepts `self[0]`; then the scan goes on from index 1. -/
def unconsWhile1 (s : Slice T) (f : σ → T → Bool × σ) (st : σ) :
    Option (FastResult (Slice T) UnexpectedParse × Slice T × σ) :=
  if s.data.isEmpty then some (.emptyErr .unexpected, s, st)
  else
    match s.data[0]? with
    | none => none
    | some x =>
      match f st x with
      | (false, st) => some (.emptyErr .unexpected, s, st)
      | (true, st) =>
        match sliceUnconsWhile s 1 f st with
        | none => none
        | some (result, rest, st) => some (.consumedOk result, rest, st)

/-- `<&[T] as RangeStreamOnce>::distance`: `end.len() - self.len()`. -/
def distance (s checkpoint : Slice T) : Option Nat := usizeSub checkpoint.len s.len

theorem unconsRange_of_le {s : Slice T} {size : Nat} (h : size ≤ s.len) :
    s.unconsRange size = (.ok (s.take size), s.drop size) := if_pos h

theorem unconsRange_of_lt {s : Slice T} {size : Nat} (h : s.len < size) :
    s.unconsRange size = (.error .eoi, s) := if_neg (Nat.not_le_of_lt h)

/-- `uncons_while` takes the run `f` accepts. -/
theorem unconsWhile_eq (s : Slice T) (f : σ → T → Bool × σ) (st : σ) :
    s.unconsWhile f st =
      some (.ok (s.take (scan f st s.data).1), s.drop (scan f st s.data).1,
        (scan f st s.data).2) := by
  simp [unconsWhile, sliceUnconsWhile_eq s 0 (Nat.zero_le _)]

/-- `uncons_while1` takes the run `f` accepts when it is not empty, and otherwise fails
without moving; either way `f` has seen the run and the item after it. -/
theorem unconsWhile1_eq (s : Slice T) (f : σ → T → Bool × σ) (st : σ) :
    s.unconsWhile1 f st =
      some (if (scan f st s.data).1 = 0 then (.emptyErr .unexpected, s, (scan f st s.data).2)
        else (.consumedOk (s.take (scan f st s.data).1), s.drop (scan f st s.data).1,
          (scan f st s.data).2)) := by
  rcases s with ⟨ptr, _ | ⟨x, xs⟩⟩
  · rfl
  · rcases hf : f st x with ⟨_ | _, st'⟩
    · simp [unconsWhile1, hf, scan_cons_of_reject xs hf]
    · simp [unconsWhile1, hf, scan_cons_of_accept xs hf,
        sliceUnconsWhile_eq ⟨ptr, x :: xs⟩ 1 (by simp [len]), Nat.add_comm 1]

end Slice

/-- `SliceStream<'a, T>(&'a [T])`: a slice cursor that hands out `&T`. A reference to
an item is the item itself here. -/
structure SliceStream (T : Type) where
  slice : Slice T
  deriving DecidableEq, Repr

namespace SliceStream

variable {T σ : Type} [MemSize T]

/-- `<SliceStream as Positioned>::position`: `PointerOffset(self.0.as_ptr())`. -/
def position (s : SliceStream T) : PointerOffset := s.slice.position

/-- `<SliceStream as StreamOnce>::uncons`, by `split_first` of `self.0`. -/
def uncons (s : SliceStream T) : Except UnexpectedParse T × SliceStream T :=
  (s.slice.uncons.1, ⟨s.slice.uncons.2⟩)

/-- `<SliceStream as RangeStreamOnce>::uncons_range`, on `self.0`. -/
def unconsRange (s : SliceStream T) (size : Nat) :
    Except UnexpectedParse (Slice T) × SliceStream T :=
  ((s.slice.unconsRange size).1, ⟨(s.slice.unconsRange size).2⟩)

/-- `<SliceStream as RangeStreamOnce>::uncons_while`:
`Ok(slice_uncons_while_ref(&mut self.0, 0, f))`. -/
def unconsWhile (s : SliceStream T) (f : σ → T → Bool × σ) (st : σ) :
    Option (Except UnexpectedParse (Slice T) × SliceStream T × σ) :=
  match sliceUnconsWhileRef s.slice 0 f st with
  | none => none
  | some (result, rest, st) => some (.ok result, ⟨rest⟩, st)

/-- `<SliceStream as RangeStreamOnce>::uncons_while1`. -/
def unconsWhile1 (s : SliceStream T) (f : σ → T → Bool × σ) (st : σ) :
    Option (FastResult (Slice T) UnexpectedParse × SliceStream T × σ) :=
  if s.slice.data.isEmpty then some (.emptyErr .unexpected, s, st)
  else
    match s.slice.data[0]? with
    | none => none
    | some x =>
      match f st x with
      | (false, st) => some (.emptyErr .unexpected, s, st)
      | (true, st) =>
        match sliceUnconsWhileRef s.slice 1 f st with
        | none => none
        | some (result, rest, st) => some (.consumedOk result, ⟨rest⟩, st)

/-- `<SliceStream as RangeStreamOnce>::distance`: `end.0.len() - self.0.len()`. -/
def distance (s checkpoint : SliceStream T) : Option Nat := s.slice.distance checkpoint.slice

/-- The by-reference cursor scans as the slice does. -/
theorem unconsWhile_eq (s : SliceStream T) (f : σ → T → Bool × σ) (st : σ) :
    s.unconsWhile f st = (s.slice.unconsWhile f st).map fun r => (r.1, ⟨r.2.1⟩, r.2.2) := by
  simp [unconsWhile, Slice.unconsWhile, sliceUnconsWhileRef,
    sliceUnconsWhile_eq _ 0 (Nat.zero_le _)]

theorem unconsWhile1_eq (s : SliceStream T) (f : σ → T → Bool × σ) (st : σ) :
    s.unconsWhile1 f st = (s.slice.unconsWhile1 f st).map fun r => (r.1, ⟨r.2.1⟩, r.2.2) := by
  unfold unconsWhile1 Slice.unconsWhile1 sliceUnconsWhileRef
  split
  · rfl
  · split
    · rfl
    · split <;> (try split) <;> simp_all

end SliceStream

/-- **The unchecked scans stay in bounds.** From any start index within the slice,
`slice_uncons_while` and `slice_uncons_while_ref` never read out of bounds, never
underflow `len - i` and never make `split_at` panic; and `uncons_while` (start 0) and
`uncons_while1` (start 1, after the non-empty check it makes before reading index 0)
of `&[T]` and of `SliceStream<T>` run them only so. -/
theorem unconsWhile_isSome (T σ : Type) [MemSize T] :
    (∀ (s : Slice T) (i : Nat) (f : σ → T → Bool × σ) (st : σ), i ≤ s.len →
      (sliceUnconsWhile s i f st).isSome ∧ (sliceUnconsWhileRef s i f st).isSome) ∧
    (∀ (s : Slice T) (f : σ → T → Bool × σ) (st : σ),
      (s.unconsWhile f st).isSome ∧ (s.unconsWhile1 f st).isSome) ∧
    (∀ (s : SliceStream T) (f : σ → T → Bool × σ) (st : σ),
      (s.unconsWhile f st).isSome ∧ (s.unconsWhile1 f st).isSome) := by
  refine ⟨fun s i f st h => ?_, fun s f st => ?_, fun s f st => ?_⟩
  · simp [sliceUnconsWhileRef, sliceUnconsWhile_eq s i h]
  · simp [Slice.unconsWhile_eq, Slice.unconsWhile1_eq]
  · simp [SliceStream.unconsWhile_eq, SliceStream.unconsWhile1_eq, Slice.unconsWhile_eq,
      Slice.unconsWhile1_eq]

end CombineStream
