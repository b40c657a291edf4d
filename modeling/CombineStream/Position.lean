import CombineStream.Session

/-!
# Positions along a run

A cursor's position (`Positioned::position`) is the address of its first item: of its
first byte for `&str`, and for `&[T]` and `SliceStream<T>` of its first item, each item
`size_of::<T>()` bytes after the one before.

* `Str.position_of_suffix`, `Slice.position_of_suffix`: the position of a cursor
  reached from `s` is the address of `s` plus the bytes taken.
* `positionsOrdered_of_offset`: positions that grow by a positive unit per item taken
  order cursors by what is left of them, reversed.
* `position_strictMono`: positions along runs from `s` never coincide for different
  remainders: for `&str` always, for slices when `size_of::<T>() > 0`.
* `position_zero_sized`: on a slice of zero-sized items the position never moves.
* `Measures`: between any two cursors reached from `s`, `distance` is the length between
  them, and underflows exactly when the cursor is behind the checkpoint; a position
  translated against `s` is the length taken, in bytes: `size_of::<T>()` per item for
  slices (`distances_between`).
-/

namespace CombineStream

open ItemView

section Ordered

variable {S Item Range Err Checkpoint : Type} [RangeStream S Item Range Err Checkpoint]

/-- Positions order two cursors by what is left of them, reversed: `a` is before `b`
exactly when `b` has less left, and they share a position exactly when they have as
much left. -/
def PositionsOrdered (a b : S) : Prop :=
  (RangeStream.position a < RangeStream.position b ↔
    RangeStream.len S (RangeStream.range b) < RangeStream.len S (RangeStream.range a)) ∧
  (RangeStream.position a = RangeStream.position b ↔
    RangeStream.len S (RangeStream.range a) = RangeStream.len S (RangeStream.range b))

instance (a b : S) : Decidable (PositionsOrdered a b) := by
  unfold PositionsOrdered
  infer_instance

/-- Cursors whose position is the address `p`, plus `u > 0` bytes per item taken out of
`L`, are ordered by their positions. -/
theorem positionsOrdered_of_offset {a b : S} {p L u : Nat} (hu : 0 < u)
    (ha : RangeStream.position a = ⟨p + (L - RangeStream.len S (RangeStream.range a)) * u⟩)
    (hb : RangeStream.position b = ⟨p + (L - RangeStream.len S (RangeStream.range b)) * u⟩)
    (la : RangeStream.len S (RangeStream.range a) ≤ L)
    (lb : RangeStream.len S (RangeStream.range b) ≤ L) : PositionsOrdered a b := by
  rw [PositionsOrdered, ha, hb, PointerOffset.lt_def, PointerOffset.mk.injEq,
    Nat.add_lt_add_iff_left, Nat.add_left_cancel_iff, Nat.mul_lt_mul_right hu,
    Nat.mul_left_inj (Nat.pos_iff_ne_zero.mp hu)]
  omega

end Ordered

/-! ## The cursors of the module -/

/-- A `&str` cursor reached from `s` is at the address of `s` plus the bytes taken. -/
theorem Str.position_of_suffix {s c : Str} (h : Suffix s c) :
    c.position = ⟨s.ptr + (s.len - c.len) * 1⟩ ∧ c.len ≤ s.len := by
  obtain ⟨k, -, rfl⟩ := h
  have := utf8Len_take_add_drop s.chars k
  show (s.drop k).position = ⟨s.ptr + (s.len - (s.drop k).len) * 1⟩ ∧ (s.drop k).len ≤ s.len
  simp only [Str.position, Str.drop_ptr, Str.len, Str.drop_chars, Nat.mul_one,
    PointerOffset.mk.injEq]
  omega

namespace Slice

variable {T : Type} [MemSize T]

/-- A slice cursor reached from `s` is at the address of `s` plus `size_of::<T>()` bytes
per item taken. -/
theorem position_of_suffix {s c : Slice T} (h : Suffix s c) :
    c.position = ⟨s.ptr + (s.len - c.len) * MemSize.size T⟩ ∧ c.len ≤ s.len := by
  obtain ⟨k, le, rfl⟩ := h
  change k ≤ s.len at le
  show (s.drop k).position = ⟨s.ptr + (s.len - (s.drop k).len) * MemSize.size T⟩ ∧
    (s.drop k).len ≤ s.len
  simp only [position, drop_ptr, len_drop, PointerOffset.mk.injEq, Nat.sub_sub_self le,
    true_and]
  exact Nat.sub_le _ _

end Slice

/-- A `SliceStream<T>` cursor reached from `s` holds a slice reached from that of `s`. -/
theorem Suffix.slice {T : Type} [MemSize T] {s c : SliceStream T} (h : Suffix s c) :
    Suffix s.slice c.slice := by
  obtain ⟨k, le, rfl⟩ := h
  exact ⟨k, le, rfl⟩

/-- **Positions tell points of the input apart.** For `&str`, and for `&[T]` and
`SliceStream<T>` when `size_of::<T>() > 0`, any two cursors reached from `s` by runs of
cursor operations are ordered by their positions as by what is left of them, reversed;
and the position of a `&str` cursor, translated against `s`, is the number of bytes
taken. -/
theorem position_strictMono :
    (∀ (s : Str) (ops₁ ops₂ : List (Op Char)) a b es₁ es₂,
      run (start s) ops₁ = some (a, es₁) → run (start s) ops₂ = some (b, es₂) →
      PositionsOrdered a.cursor b.cursor ∧
        a.cursor.position.translatePosition s.ptr = some (s.len - a.cursor.len)) ∧
    (∀ (T : Type) [MemSize T], 0 < MemSize.size T →
      ∀ (s : Slice T) (ops₁ ops₂ : List (Op T)) a b es₁ es₂,
      run (start s) ops₁ = some (a, es₁) → run (start s) ops₂ = some (b, es₂) →
      PositionsOrdered a.cursor b.cursor) ∧
    (∀ (T : Type) [MemSize T], 0 < MemSize.size T →
      ∀ (s : SliceStream T) (ops₁ ops₂ : List (Op T)) a b es₁ es₂,
      run (start s) ops₁ = some (a, es₁) → run (start s) ops₂ = some (b, es₂) →
      PositionsOrdered a.cursor b.cursor) := by
  refine ⟨fun s _ _ a b _ _ ha hb => ?_, fun T _ hu s _ _ a b _ _ ha hb => ?_,
    fun T _ hu s _ _ a b _ _ ha hb => ?_⟩
  · obtain ⟨pa, la⟩ := Str.position_of_suffix ((runLaws s).suffix _ _ _ ha)
    obtain ⟨pb, lb⟩ := Str.position_of_suffix ((runLaws s).suffix _ _ _ hb)
    refine ⟨positionsOrdered_of_offset Nat.one_pos pa pb la lb, ?_⟩
    rw [pa, PointerOffset.translatePosition, Nat.mul_one, usizeSub_of_le (Nat.le_add_right _ _),
      Nat.add_sub_cancel_left]
  · obtain ⟨pa, la⟩ := Slice.position_of_suffix ((runLaws s).suffix _ _ _ ha)
    obtain ⟨pb, lb⟩ := Slice.position_of_suffix ((runLaws s).suffix _ _ _ hb)
    exact positionsOrdered_of_offset hu pa pb la lb
  · obtain ⟨pa, la⟩ := Slice.position_of_suffix ((runLaws s).suffix _ _ _ ha).slice
    obtain ⟨pb, lb⟩ := Slice.position_of_suffix ((runLaws s).suffix _ _ _ hb).slice
    exact positionsOrdered_of_offset hu pa pb la lb

/-- On the bytes `[1, 2]`, the input and the cursor one `uncons` leaves are ordered by
their positions. -/
theorem position_strictMono_bytes : PositionsOrdered (⟨0, [1, 2]⟩ : Slice UInt8) ⟨1, [2]⟩ :=
  position_strictMono.2.1 UInt8 (by decide) ⟨0, [1, 2]⟩ [] [.read (.uncons false)]
    (start ⟨0, [1, 2]⟩) ⟨⟨1, [2]⟩, [⟨0, [1, 2]⟩]⟩ [] [.took [1]] rfl rfl

/-- **Zero-sized items share one position.** On `&[(), ()]`, the cursor before and the
cursor after one `uncons` are both at the slice's address, though one has an item less
left: two points of the input that an error may be raised at share one position, which
the module's documentation says positions keep apart. -/
theorem position_zero_sized :
    run (start (⟨0, [(), ()]⟩ : Slice Unit)) [] = some (start ⟨0, [(), ()]⟩, []) ∧
    run (start (⟨0, [(), ()]⟩ : Slice Unit)) [.read (.uncons false)] =
      some (⟨⟨0, [()]⟩, [⟨0, [(), ()]⟩]⟩, [.took [()]]) ∧
    ¬ PositionsOrdered (⟨0, [(), ()]⟩ : Slice Unit) ⟨0, [()]⟩ :=
  ⟨rfl, rfl, by decide⟩

/-! ## Distances between cursors -/

section Measures

variable {S Item Range Err Checkpoint : Type} [RangeStream S Item Range Err Checkpoint]
  [ItemView S Item Range]

/-- How the cursors on one input `s` are measured, with `unit` bytes to a unit of length.
Between any two cursors `c` and `d` reached from `s`, `distance` from the checkpoint of `d`
is the length between them when `c` is not behind `d`, and underflows (a panic) when it
is; and the position of a cursor reached from `s`, translated against the address of `s`,
is the length taken from `s`, in bytes. -/
structure Measures (s : S) (unit : Nat) : Prop where
  distance : ∀ c d, Suffix s c → Suffix s d →
    RangeStream.distance c (RangeStream.checkpoint d) =
      if RangeStream.len S (RangeStream.range c) ≤ RangeStream.len S (RangeStream.range d)
      then some (RangeStream.len S (RangeStream.range d) - RangeStream.len S (RangeStream.range c))
      else none
  translate : ∀ c, Suffix s c →
    (RangeStream.position c).translatePosition (RangeStream.position s).addr =
      some ((RangeStream.len S (RangeStream.range s) -
        RangeStream.len S (RangeStream.range c)) * unit)

/-- A cursor of `PartialStream(s)` reached from it wraps a cursor reached from `s`. -/
theorem Suffix.inner {s : S} {c : PartialStream S} (h : Suffix (PartialStream.mk s) c) :
    Suffix s c.inner := by
  obtain ⟨k, le, rfl⟩ := h
  exact ⟨k, le, rfl⟩

/-- `PartialStream` measures as the cursor it wraps. -/
theorem Measures.partialStream {s : S} {unit : Nat} (h : Measures s unit) :
    Measures (PartialStream.mk s) unit where
  distance c d hc hd := h.distance c.inner d.inner hc.inner hd.inner
  translate c hc := h.translate c.inner hc.inner

end Measures

/-- The byte offset of a position `p + n`, translated against `p`. -/
theorem translatePosition_add (p n : Nat) :
    PointerOffset.translatePosition ⟨p + n⟩ p = some n := by
  rw [PointerOffset.translatePosition, usizeSub_of_le (Nat.le_add_right p n),
    Nat.add_sub_cancel_left]

/-- On `&str` distances and positions both count bytes; `distance` subtracts positions,
which order the cursors of one input by what is left of them. -/
theorem Str.measures (s : Str) : Measures s 1 where
  distance c d hc hd := by
    obtain ⟨pc, lc⟩ := Str.position_of_suffix hc
    obtain ⟨pd, ld⟩ := Str.position_of_suffix hd
    show usizeSub c.position.addr d.position.addr =
      if c.len ≤ d.len then some (d.len - c.len) else none
    simp only [pc, pd, Nat.mul_one]
    by_cases le : c.len ≤ d.len
    · rw [if_pos le, usizeSub_of_le (by omega)]
      congr 1
      omega
    · rw [if_neg le, usizeSub, if_neg (by omega)]
  translate c hc := by
    show c.position.translatePosition s.ptr = some ((s.len - c.len) * 1)
    rw [(Str.position_of_suffix hc).1]
    exact translatePosition_add _ _

/-- On slices `distance` compares lengths in items, and a position moves `size_of::<T>()`
bytes per item. -/
theorem Slice.measures {T : Type} [MemSize T] (s : Slice T) : Measures s (MemSize.size T) where
  distance _ _ _ _ := rfl
  translate c hc := by
    show c.position.translatePosition s.ptr = some ((s.len - c.len) * MemSize.size T)
    rw [(Slice.position_of_suffix hc).1]
    exact translatePosition_add _ _

theorem SliceStream.measures {T : Type} [MemSize T] (s : SliceStream T) :
    Measures s (MemSize.size T) where
  distance _ _ _ _ := rfl
  translate c hc := (Slice.measures s.slice).translate c.slice hc.slice

/-- **Distances and positions between any two points of one input.** For `&str`, `&[T]`
and `SliceStream<T>`, bare or in a `PartialStream`, and any two cursors `c`, `d` reached
from an input `s` by runs of cursor operations: `c.distance(&d)` is defined exactly when
`c` has no more left than `d`, and is then the length between them (bytes for `&str`,
items for slices); otherwise `len(d) - len(c)` underflows. The position of `c` translated
against `s` is the number of bytes taken from `s`: `size_of::<T>()` per item for slices,
an offset in bytes and not an index of items. -/
theorem distances_between :
    (∀ s : Str, Measures s 1) ∧ (∀ s : PartialStream Str, Measures s 1) ∧
    (∀ (T : Type) [MemSize T] (s : Slice T), Measures s (MemSize.size T)) ∧
    (∀ (T : Type) [MemSize T] (s : PartialStream (Slice T)), Measures s (MemSize.size T)) ∧
    (∀ (T : Type) [MemSize T] (s : SliceStream T), Measures s (MemSize.size T)) ∧
    (∀ (T : Type) [MemSize T] (s : PartialStream (SliceStream T)),
      Measures s (MemSize.size T)) :=
  ⟨Str.measures, fun s => (Str.measures s.inner).partialStream, fun _ _ => Slice.measures,
    fun _ _ s => (Slice.measures s.inner).partialStream, fun _ _ => SliceStream.measures,
    fun _ _ s => (SliceStream.measures s.inner).partialStream⟩

/-- On `"aéb"`, whose `é` takes two bytes, the cursor past `é` is `2` bytes from the
checkpoint past `a`, and `3` bytes from the start. -/
theorem distances_between_multibyte :
    RangeStream.distance (⟨3, ['b']⟩ : Str) (RangeStream.checkpoint (⟨1, ['é', 'b']⟩ : Str)) =
        some 2 ∧
      (RangeStream.position (⟨3, ['b']⟩ : Str)).translatePosition 0 = some 3 :=
  ⟨((distances_between.1 ⟨0, ['a', 'é', 'b']⟩).distance ⟨3, ['b']⟩ ⟨1, ['é', 'b']⟩
      ⟨2, by decide, rfl⟩ ⟨1, by decide, rfl⟩).trans rfl,
    ((distances_between.1 ⟨0, ['a', 'é', 'b']⟩).translate ⟨3, ['b']⟩
      ⟨2, by decide, rfl⟩).trans rfl⟩

end CombineStream
