import CombineStream.Stream

/-!
# Cursors over a sequence of items

What every cursor of the module is for: it holds the items still to be read, and
each method either removes a prefix of them, returning it, or fails.

* `ItemView` reads a cursor `c` as its items; `take c k` is the range of its first `k`
  items and `drop c k` the cursor past them.
* `LawfulRangeStream` states what each method of `RangeStream` does to the items, in
  terms of `scan` for the predicate methods.

The instances for `Str`, `Slice`, `SliceStream` and `PartialStream` prove the laws from
the closed forms of the methods, which connects the abstract view to the code.
-/

namespace CombineStream

/-- A cursor read as the items it still holds. -/
class ItemView (S : Type) (Item Range : outParam Type) where
  /-- The items left. -/
  items : S → List Item
  /-- The range of the first `k` items. -/
  take : S → Nat → Range
  /-- The cursor past the first `k` items. -/
  drop : S → Nat → S
  /-- The items of a range. -/
  rangeItems : Range → List Item
  rangeItems_take (c : S) (k : Nat) : rangeItems (take c k) = (items c).take k
  drop_zero (c : S) : drop c 0 = c
  drop_drop (c : S) (a b : Nat) : drop (drop c a) b = drop c (a + b)
  items_drop (c : S) (k : Nat) : items (drop c k) = (items c).drop k

open ItemView

/-- The laws of a cursor: how each method moves it, in terms of its items. -/
class LawfulRangeStream (S : Type) {Item Range Err Checkpoint : outParam Type}
    [RangeStream S Item Range Err Checkpoint] [StreamError Err] [ItemView S Item Range] : Prop where
  len_take (c : S) (k : Nat) : RangeStream.len S (take c k) = 0 ↔ (items c).take k = []
  len_take_add_len_drop (c : S) (k : Nat) :
    RangeStream.len S (take c k) + RangeStream.len S (RangeStream.range (drop c k)) =
      RangeStream.len S (RangeStream.range c)
  isPartial_drop (c : S) (k : Nat) : RangeStream.isPartial (drop c k) = RangeStream.isPartial c
  uncons_nil (c : S) : items c = [] → RangeStream.uncons c = (.error StreamError.endOfInput, c)
  uncons_cons (c : S) (x : Item) (xs : List Item) :
    items c = x :: xs → RangeStream.uncons c = (.ok x, drop c 1)
  unconsRange_zero (c : S) : RangeStream.unconsRange c 0 = (.ok (take c 0), c)
  unconsRange (c : S) (size : Nat) :
    (∃ k ≤ (items c).length, RangeStream.len S (take c k) = size ∧
      RangeStream.unconsRange c size = (.ok (take c k), drop c k)) ∨
      ∃ err, RangeStream.unconsRange c size = (.error err, c)
  unconsWhile {σ : Type} (c : S) (f : σ → Item → Bool × σ) (st : σ) :
    RangeStream.unconsWhile c f st =
      (.ok (take c (scan f st (items c)).1), drop c (scan f st (items c)).1,
      (scan f st (items c)).2)
  unconsWhile1 {σ : Type} (c : S) (f : σ → Item → Bool × σ) (st : σ) :
    ∃ err, RangeStream.unconsWhile1 c f st =
      if (scan f st (items c)).1 = 0 then (.emptyErr err, c, (scan f st (items c)).2)
      else (.consumedOk (take c (scan f st (items c)).1), drop c (scan f st (items c)).1,
        (scan f st (items c)).2)
  reset_checkpoint (c d : S) : RangeStream.reset c (RangeStream.checkpoint d) = d
  distance_drop (c : S) (k : Nat) : k ≤ (items c).length →
    RangeStream.distance (drop c k) (RangeStream.checkpoint c) =
      some (RangeStream.len S (RangeStream.range c) -
        RangeStream.len S (RangeStream.range (drop c k)))

theorem Option.get_of_eq_some {α : Type} {o : Option α} {a : α} (h : o = some a)
    (hs : o.isSome) :
    o.get hs = a :=
  Option.get_of_mem hs h

/-! ## `&str` -/

instance : ItemView Str Char Str where
  items := Str.chars
  take := Str.take
  drop := Str.drop
  rangeItems := Str.chars
  rangeItems_take _ _ := rfl
  drop_zero := Str.drop_zero
  drop_drop := Str.drop_drop
  items_drop _ _ := rfl

/-- The first `k` chars of `s` are its first `min k n` chars, `n` its number of chars. -/
theorem Str.take_min (s : Str) (k : Nat) : s.take (min k s.chars.length) = s.take k := by
  simp only [Str.take, Str.mk.injEq, true_and]
  rcases Nat.le_total k s.chars.length with h | h
  · rw [Nat.min_eq_left h]
  · rw [Nat.min_eq_right h, List.take_of_length_le h, List.take_of_length_le (Nat.le_refl _)]

instance : LawfulRangeStream Str where
  len_take s k := @utf8Len_eq_zero (s.chars.take k)
  len_take_add_len_drop s k := utf8Len_take_add_drop s.chars k
  isPartial_drop _ _ := rfl
  uncons_nil s h := by
    change Str.uncons s = (.error .eoi, s)
    simp only [Str.uncons, show s.chars = [] from h]
  uncons_cons s x xs h := Str.uncons_cons h
  unconsRange_zero s :=
    Option.get_of_eq_some ((Str.unconsRange_of_boundary 0 rfl).trans (by rw [Str.drop_zero]; rfl)) _
  unconsRange s size := by
    by_cases boundary : IsCharBoundary s.chars size
    · obtain ⟨k, hk⟩ := boundary
      have hk' : size = utf8Len (s.chars.take (min k s.chars.length)) := by
        rw [← hk, ← Str.take_chars, ← Str.take_chars, Str.take_min]
      exact .inl ⟨min k s.chars.length, Nat.min_le_right _ _, hk'.symm,
        Option.get_of_eq_some (Str.unconsRange_of_boundary _ hk') _⟩
    · exact .inr ⟨_, Option.get_of_eq_some (Str.unconsRange_of_not_boundary boundary) _⟩
  unconsWhile s f st := Option.get_of_eq_some (Str.unconsWhile_eq s f st) _
  unconsWhile1 s f st := ⟨_, Option.get_of_eq_some (Str.unconsWhile1_eq s f st) _⟩
  reset_checkpoint _ _ := rfl
  distance_drop s k _ := by
    show usizeSub (s.ptr + utf8Len (s.chars.take k)) s.ptr =
      some (utf8Len s.chars - utf8Len (s.chars.drop k))
    rw [usizeSub_of_le (Nat.le_add_right _ _), Nat.add_sub_cancel_left,
      ← utf8Len_take_add_drop s.chars k, Nat.add_sub_cancel]

/-! ## `&[T]` and `SliceStream<T>` -/

instance {T : Type} [MemSize T] : ItemView (Slice T) T (Slice T) where
  items := Slice.data
  take := Slice.take
  drop := Slice.drop
  rangeItems := Slice.data
  rangeItems_take _ _ := rfl
  drop_zero := Slice.drop_zero
  drop_drop := Slice.drop_drop
  items_drop _ _ := rfl

instance {T : Type} [MemSize T] : LawfulRangeStream (Slice T) where
  len_take _ _ := List.length_eq_zero
  len_take_add_len_drop s k := by
    change (s.data.take k).length + (s.data.drop k).length = s.data.length
    rw [← List.length_append, List.take_append_drop]
  isPartial_drop _ _ := rfl
  uncons_nil s h := by
    change Slice.uncons s = (.error .eoi, s)
    simp [Slice.uncons, show s.data = [] from h]
  uncons_cons s x xs h := by
    change Slice.uncons s = (.ok x, s.drop 1)
    simp [Slice.uncons, show s.data = x :: xs from h]
  unconsRange_zero s :=
    (Slice.unconsRange_of_le (Nat.zero_le _)).trans (by rw [Slice.drop_zero]; rfl)
  unconsRange s size := by
    by_cases h : size ≤ s.len
    · exact .inl ⟨size, h, List.length_take_of_le h, Slice.unconsRange_of_le h⟩
    · exact .inr ⟨_, Slice.unconsRange_of_lt (Nat.lt_of_not_le h)⟩
  unconsWhile s f st := Option.get_of_eq_some (Slice.unconsWhile_eq s f st) _
  unconsWhile1 s f st := ⟨_, Option.get_of_eq_some (Slice.unconsWhile1_eq s f st) _⟩
  reset_checkpoint _ _ := rfl
  distance_drop s k _ := by
    change usizeSub s.len (s.drop k).len = some (s.len - (s.drop k).len)
    exact usizeSub_of_le (by simp)

instance {T : Type} [MemSize T] : ItemView (SliceStream T) T (Slice T) where
  items s := s.slice.data
  take s k := s.slice.take k
  drop s k := ⟨s.slice.drop k⟩
  rangeItems := Slice.data
  rangeItems_take _ _ := rfl
  drop_zero s := by simp
  drop_drop s a b := by simp [Slice.drop_drop]
  items_drop _ _ := rfl

instance {T : Type} [MemSize T] : LawfulRangeStream (SliceStream T) where
  len_take _ _ := List.length_eq_zero
  len_take_add_len_drop s k := by
    change (s.slice.data.take k).length + (s.slice.data.drop k).length = s.slice.data.length
    rw [← List.length_append, List.take_append_drop]
  isPartial_drop _ _ := rfl
  uncons_nil s h := by
    change SliceStream.uncons s = (.error .eoi, s)
    simp [SliceStream.uncons, Slice.uncons, show s.slice.data = [] from h]
  uncons_cons s x xs h := by
    change SliceStream.uncons s = (.ok x, ⟨s.slice.drop 1⟩)
    simp [SliceStream.uncons, Slice.uncons, show s.slice.data = x :: xs from h]
  unconsRange_zero s := by
    change SliceStream.unconsRange s 0 = (.ok (s.slice.take 0), s)
    simp [SliceStream.unconsRange, Slice.unconsRange_of_le (Nat.zero_le _)]
  unconsRange s size := by
    by_cases h : size ≤ s.slice.len
    · exact .inl ⟨size, h, List.length_take_of_le h, by
        change SliceStream.unconsRange s size = (.ok (s.slice.take size), ⟨s.slice.drop size⟩)
        simp [SliceStream.unconsRange, Slice.unconsRange_of_le h]⟩
    · exact .inr ⟨.eoi, by
        change SliceStream.unconsRange s size = (.error .eoi, s)
        simp [SliceStream.unconsRange, Slice.unconsRange_of_lt (Nat.lt_of_not_le h)]⟩
  unconsWhile s f st := Option.get_of_eq_some
    (by rw [SliceStream.unconsWhile_eq, Slice.unconsWhile_eq]; rfl) _
  unconsWhile1 s f st := ⟨.unexpected, Option.get_of_eq_some
    (by
      rw [SliceStream.unconsWhile1_eq, Slice.unconsWhile1_eq, Option.map_some']
      change _ = some (if (scan f st s.slice.data).1 = 0 then _ else _)
      split <;> rfl) _⟩
  reset_checkpoint _ _ := rfl
  distance_drop s k _ := by
    change usizeSub s.slice.len (s.slice.drop k).len = some (s.slice.len - (s.slice.drop k).len)
    exact usizeSub_of_le (by simp)

/-! ## `PartialStream<S>` -/

instance {S Item Range : Type} [ItemView S Item Range] : ItemView (PartialStream S) Item Range where
  items s := items s.inner
  take s k := take s.inner k
  drop s k := ⟨drop s.inner k⟩
  rangeItems := rangeItems S
  rangeItems_take s k := rangeItems_take s.inner k
  drop_zero s := congrArg PartialStream.mk (drop_zero s.inner)
  drop_drop s a b := congrArg PartialStream.mk (drop_drop s.inner a b)
  items_drop s k := items_drop s.inner k

section PartialStream

variable {S Item Range : Type} [ItemView S Item Range] (c : S) (k : Nat)

@[simp] theorem PartialStream.items_mk : items (PartialStream.mk c) = items c := rfl

@[simp] theorem PartialStream.take_mk : take (PartialStream.mk c) k = take c k := rfl

@[simp] theorem PartialStream.drop_mk : drop (PartialStream.mk c) k = ⟨drop c k⟩ := rfl

end PartialStream

instance {S Item Range Err Checkpoint : Type} [RangeStream S Item Range Err Checkpoint]
    [StreamError Err] [ItemView S Item Range] [LawfulRangeStream S] :
    LawfulRangeStream (PartialStream S) where
  len_take s k := LawfulRangeStream.len_take s.inner k
  len_take_add_len_drop s k := LawfulRangeStream.len_take_add_len_drop s.inner k
  isPartial_drop _ _ := rfl
  uncons_nil s h := by
    change ((RangeStream.uncons s.inner).1, _) = _
    rw [LawfulRangeStream.uncons_nil s.inner h]
  uncons_cons s x xs h := by
    change ((RangeStream.uncons s.inner).1, _) = _
    rw [LawfulRangeStream.uncons_cons s.inner x xs h]
    rfl
  unconsRange_zero s := by
    change ((RangeStream.unconsRange s.inner 0).1, _) = _
    rw [LawfulRangeStream.unconsRange_zero s.inner]
    rfl
  unconsRange s size := by
    change (∃ k ≤ _, _ ∧ ((RangeStream.unconsRange s.inner size).1, _) = _) ∨
      ∃ err, ((RangeStream.unconsRange s.inner size).1, _) = _
    rcases LawfulRangeStream.unconsRange s.inner size with ⟨k, le, len, h⟩ | ⟨err, h⟩
    · exact .inl ⟨k, le, len, by rw [h]; rfl⟩
    · exact .inr ⟨err, by rw [h]⟩
  unconsWhile s f st := by
    change (match RangeStream.unconsWhile s.inner f st with
      | (result, inner, st) => (result, PartialStream.mk inner, st)) = _
    rw [LawfulRangeStream.unconsWhile s.inner f st]
    rfl
  unconsWhile1 s f st := by
    obtain ⟨err, h⟩ := LawfulRangeStream.unconsWhile1 s.inner f st
    refine ⟨err, ?_⟩
    change (match RangeStream.unconsWhile1 s.inner f st with
      | (result, inner, st) => (result, PartialStream.mk inner, st)) = _
    rw [h]
    change _ = if (scan f st (items s.inner)).1 = 0 then _ else _
    by_cases hz : (scan f st (items s.inner)).1 = 0
    · rw [if_pos hz, if_pos hz]; rfl
    · rw [if_neg hz, if_neg hz]; rfl
  reset_checkpoint c d :=
    congrArg PartialStream.mk (LawfulRangeStream.reset_checkpoint c.inner d.inner)
  distance_drop s k le := LawfulRangeStream.distance_drop s.inner k le

end CombineStream
