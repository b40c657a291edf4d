import CombineStream.Lawful

/-!
# What the free functions return

The free functions `uncons`, `uncons_range`, `uncons_while` and `uncons_while1` of
`src/stream/mod.rs`, over any cursor that keeps the laws of `LawfulRangeStream`.

* `inputAtEof_eq`: the end-of-input probe restores the cursor and answers whether no
  item is left.
* `unconsWhile_eq`, `unconsWhile1_eq`, ...: the closed form of each free function, for
  partial and for complete input alike.
* `freeTagged_of_complete`: on complete input each free function tags its outcome
  by what it removed (`FreeTagged`).
* `partialAgrees_of_complete`: on `PartialStream(c)` each free function does what it
  does on `c`, except that failures count as consumed and a predicate scan that reaches
  the end fails with `end_of_input()` (`PartialAgrees`).
* `unconsWhile1_agrees_default`: a lawful `uncons_while1` is the trait's default one.
-/

namespace CombineStream

open ItemView

/-- The outcome with a failure reported as consumed, as `wrap_stream_error` reports it
on partial input. -/
def FastResult.consumeErr {T E : Type} : FastResult T E → FastResult T E
  | .emptyErr e => .consumedErr e
  | r => r

@[simp] theorem FastResult.ok?_consumeErr {T E : Type} (r : FastResult T E) :
    r.consumeErr.ok? = r.ok? := by
  cases r <;> rfl

/-! ## Outcomes tagged by what they removed -/

section Tags

variable {S Item Range E : Type} [ItemView S Item Range]

/-- A range step from `c` is tagged by what it removed: a success returns the range of
the first `k` items, leaves the cursor past them and is `ConsumedOk` exactly when
`k > 0`; a failure is `EmptyErr` and leaves the cursor as it was. -/
def RangeStepTagged (c : S) : FastResult Range E × S → Prop
  | (.consumedOk r, c') =>
    ∃ k, 0 < k ∧ k ≤ (items c).length ∧ r = take c k ∧ c' = drop c k
  | (.emptyOk r, c') => r = take c 0 ∧ c' = c
  | (.consumedErr _, _) => False
  | (.emptyErr _, c') => c' = c

/-- An item step from `c` is tagged by what it removed: a success is `ConsumedOk` of the
first item, with the cursor past it; a failure is `EmptyErr` and leaves the cursor. -/
def ItemStepTagged (c : S) : FastResult Item E × S → Prop
  | (.consumedOk x, c') => (items c).head? = some x ∧ c' = drop c 1
  | (.emptyOk _, _) => False
  | (.consumedErr _, _) => False
  | (.emptyErr _, c') => c' = c

/-- A success that removed `n` items is tagged by them. -/
theorem rangeStepTagged_of_le (c : S) (n : Nat) (le : n ≤ (items c).length) :
    RangeStepTagged (E := E) c
      (if n = 0 then .emptyOk (take c n) else .consumedOk (take c n), drop c n) := by
  by_cases zero : n = 0
  · simp [RangeStepTagged, zero, ItemView.drop_zero]
  · simp only [if_neg zero, RangeStepTagged]
    exact ⟨n, Nat.pos_of_ne_zero zero, le, rfl, rfl⟩

end Tags

section Laws

variable {S Item Range Err Checkpoint σ : Type} [RangeStream S Item Range Err Checkpoint]
  [StreamError Err] [ItemView S Item Range] [LawfulRangeStream S]

/-! ## The closed forms -/

/-- The range of the first `k` items is empty exactly when `k = 0`. -/
theorem len_take_eq_zero_iff {c : S} {k : Nat} (le : k ≤ (items c).length) :
    RangeStream.len S (take c k) = 0 ↔ k = 0 := by
  rw [LawfulRangeStream.len_take, List.take_eq_nil_iff]
  constructor
  · rintro (h | h)
    · exact h
    · simpa [h] using le
  · exact .inl

theorem uncons_of_nil {c : S} (h : items c = []) :
    uncons c = (wrapStreamError c StreamError.endOfInput, c) := by
  simp [uncons, LawfulRangeStream.uncons_nil c h]

theorem uncons_of_cons {c : S} {x : Item} {xs : List Item} (h : items c = x :: xs) :
    uncons c = (.consumedOk x, drop c 1) := by
  simp [uncons, LawfulRangeStream.uncons_cons c x xs h]

/-- `uncons_range(size)` takes the first `k` items, tagged consumed exactly when `size > 0`,
or fails without moving. -/
theorem unconsRange_cases (c : S) (size : Nat) :
    (∃ k ≤ (items c).length, (k = 0 ↔ size = 0) ∧ unconsRange c size =
      (if size = 0 then .emptyOk (take c k) else .consumedOk (take c k), drop c k)) ∨
    ∃ err, unconsRange c size = (wrapStreamError c err, c) := by
  rcases LawfulRangeStream.unconsRange c size with ⟨k, le, len, h⟩ | ⟨err, h⟩
  · exact .inl ⟨k, le, by rw [← len, len_take_eq_zero_iff le], by simp [unconsRange, h]⟩
  · exact .inr ⟨err, by simp [unconsRange, h]⟩

theorem unconsRange_zero (c : S) : unconsRange c 0 = (.emptyOk (take c 0), c) := by
  simp [unconsRange, LawfulRangeStream.unconsRange_zero c]

/-- The closure of the default `uncons_while1` scans as `f` does, and its flag records
whether `f` accepted an item. -/
theorem scan_recordConsumed (f : σ → Item → Bool × σ) (st : σ) (b : Bool) (xs : List Item) :
    scan (recordConsumed f) (st, b) xs =
      ((scan f st xs).1, (scan f st xs).2, b || decide (0 < (scan f st xs).1)) := by
  induction xs generalizing st b with
  | nil => simp
  | cons x xs ih =>
    rw [scan_cons, scan_cons]
    by_cases hx : (f st x).1 <;> simp [recordConsumed, hx, ih]

/-- The trait's default `uncons_while1` takes the run `f` accepts when it is not empty,
and otherwise fails with `unexpected_static_message("")`. -/
theorem defaultUnconsWhile1_eq (c : S) (f : σ → Item → Bool × σ) (st : σ) :
    defaultUnconsWhile1 c f st =
      (if (scan f st (items c)).1 = 0 then .emptyErr StreamError.unexpectedStaticMessage
       else .consumedOk (take c (scan f st (items c)).1),
      drop c (scan f st (items c)).1, (scan f st (items c)).2) := by
  simp only [defaultUnconsWhile1, LawfulRangeStream.unconsWhile c _ _, scan_recordConsumed,
    Bool.false_or]
  by_cases zero : (scan f st (items c)).1 = 0 <;> simp [zero, Nat.pos_iff_ne_zero]

/-- A lawful hand-written `uncons_while1` is the trait's default one: the same variant,
range and cursor, and the same calls of `f`. -/
theorem unconsWhile1_agrees_default (c : S) (f : σ → Item → Bool × σ) (st : σ) :
    ((RangeStream.unconsWhile1 c f st).1.erase, (RangeStream.unconsWhile1 c f st).2) =
      ((defaultUnconsWhile1 c f st).1.erase, (defaultUnconsWhile1 c f st).2) := by
  obtain ⟨err, h⟩ := LawfulRangeStream.unconsWhile1 c f st
  rw [h, defaultUnconsWhile1_eq]
  by_cases zero : (scan f st (items c)).1 = 0 <;>
    simp [zero, FastResult.erase, ItemView.drop_zero]

/-- A model of a hand-written `uncons_while1` that returns the trait method's result
agrees with the default. -/
theorem map_erase_eq_default {c : S} {f : σ → Item → Bool × σ} {st : σ}
    {o : Option (FastResult Range Err × S × σ)}
    (h : o = some (RangeStream.unconsWhile1 c f st)) :
    o.map (fun r => (r.1.erase, r.2)) =
      some ((defaultUnconsWhile1 c f st).1.erase, (defaultUnconsWhile1 c f st).2) := by
  rw [h, Option.map_some', unconsWhile1_agrees_default]

variable [DecidableEq Err]

/-- `input_at_eof` restores the cursor and answers whether no item is left. -/
theorem inputAtEof_eq (c : S) : inputAtEof c = ((items c).isEmpty, c) := by
  rcases h : items c with _ | ⟨x, xs⟩
  · simp [inputAtEof, LawfulRangeStream.uncons_nil c h, LawfulRangeStream.reset_checkpoint]
  · simp [inputAtEof, LawfulRangeStream.uncons_cons c x xs h, LawfulRangeStream.reset_checkpoint]

theorem partialAtEof_eq (c : S) :
    partialAtEof c = (RangeStream.isPartial c && (items c).isEmpty, c) := by
  unfold partialAtEof
  split <;> simp [*, inputAtEof_eq]

/-- A scan leaves no item exactly when it accepted them all. -/
theorem isEmpty_drop_scan (c : S) (f : σ → Item → Bool × σ) (st : σ) :
    (items (drop c (scan f st (items c)).1)).isEmpty =
      decide ((scan f st (items c)).1 = (items c).length) := by
  have := scan_fst_le st (items c) (f := f)
  rw [ItemView.items_drop, Bool.eq_iff_iff, List.isEmpty_iff, List.drop_eq_nil_iff,
    decide_eq_true_iff]
  omega

/-- After a scan, the end-of-input check answers whether the input is partial and the
scan took every item. -/
theorem partialAtEof_drop_scan (c : S) (f : σ → Item → Bool × σ) (st : σ) :
    partialAtEof (drop c (scan f st (items c)).1) =
      (decide (RangeStream.isPartial c ∧ (scan f st (items c)).1 = (items c).length),
        drop c (scan f st (items c)).1) := by
  simp [partialAtEof_eq, LawfulRangeStream.isPartial_drop, isEmpty_drop_scan]

/-- The free `uncons_while` takes the run `f` accepts; on partial input that reaches the
end it fails with `end_of_input()` there. -/
theorem unconsWhile_eq (c : S) (f : σ → Item → Bool × σ) (st : σ) :
    unconsWhile c f st =
      (if RangeStream.isPartial c ∧ (scan f st (items c)).1 = (items c).length then
        .consumedErr (endOfInputAt (drop c (scan f st (items c)).1))
       else if (scan f st (items c)).1 = 0 then .emptyOk (take c (scan f st (items c)).1)
       else .consumedOk (take c (scan f st (items c)).1),
      drop c (scan f st (items c)).1, (scan f st (items c)).2) := by
  have len := len_take_eq_zero_iff (scan_fst_le st (items c) (f := f))
  simp only [unconsWhile, LawfulRangeStream.unconsWhile c f st, partialAtEof_drop_scan]
  by_cases p : RangeStream.isPartial c ∧ (scan f st (items c)).1 = (items c).length
  · simp [p]
  · simp [p, len]

/-- The free `uncons_while1` takes the run `f` accepts when it is not empty and otherwise
fails without moving; on partial input that reaches the end it fails with
`end_of_input()` there. It never reaches its `unreachable!()` arm. -/
theorem unconsWhile1_eq (c : S) (f : σ → Item → Bool × σ) (st : σ) :
    unconsWhile1 c f st = some
      (if RangeStream.isPartial c ∧ (scan f st (items c)).1 = (items c).length then
        (.consumedErr (endOfInputAt (drop c (scan f st (items c)).1)),
          drop c (scan f st (items c)).1, (scan f st (items c)).2)
       else if (scan f st (items c)).1 = 0 then
        (.emptyErr (.empty (RangeStream.position c)), c, (scan f st (items c)).2)
       else (.consumedOk (take c (scan f st (items c)).1), drop c (scan f st (items c)).1,
        (scan f st (items c)).2)) := by
  obtain ⟨err, h⟩ := LawfulRangeStream.unconsWhile1 c f st
  have eof := partialAtEof_drop_scan c f st
  by_cases zero : (scan f st (items c)).1 = 0
  · have hc : drop c (scan f st (items c)).1 = c := by rw [zero, ItemView.drop_zero]
    rw [hc] at eof
    by_cases p : RangeStream.isPartial c ∧ (scan f st (items c)).1 = (items c).length
    · simp only [unconsWhile1, h, if_pos zero, eof, decide_eq_true p, if_pos p, hc]
    · simp only [unconsWhile1, h, if_pos zero, eof, decide_eq_false p, if_neg p]
  · by_cases p : RangeStream.isPartial c ∧ (scan f st (items c)).1 = (items c).length
    · simp only [unconsWhile1, h, if_neg zero, eof, decide_eq_true p, if_pos p]
    · simp only [unconsWhile1, h, if_neg zero, eof, decide_eq_false p, if_neg p]

/-! ## Complete input -/

theorem unconsWhile_of_complete {c : S} (hc : RangeStream.isPartial c = false)
    (f : σ → Item → Bool × σ) (st : σ) :
    unconsWhile c f st =
      (if (scan f st (items c)).1 = 0 then .emptyOk (take c (scan f st (items c)).1)
       else .consumedOk (take c (scan f st (items c)).1),
      drop c (scan f st (items c)).1, (scan f st (items c)).2) := by
  simp [unconsWhile_eq, hc]

/-- On complete input the free `uncons_while1` leaves the cursor where the scan stopped,
which is where it started when the scan took nothing. -/
theorem unconsWhile1_of_complete {c : S} (hc : RangeStream.isPartial c = false)
    (f : σ → Item → Bool × σ) (st : σ) :
    unconsWhile1 c f st = some
      (if (scan f st (items c)).1 = 0 then .emptyErr (.empty (RangeStream.position c))
       else .consumedOk (take c (scan f st (items c)).1),
      drop c (scan f st (items c)).1, (scan f st (items c)).2) := by
  rw [unconsWhile1_eq]
  by_cases zero : (scan f st (items c)).1 = 0 <;> simp [hc, zero, ItemView.drop_zero]

/-- What the free functions promise on a cursor `c` of complete input: each outcome is
tagged by what it removed, `uncons_range(0)` is `EmptyOk`, and `uncons_while1` never
reaches `unreachable!()`. -/
structure FreeTagged (c : S) : Prop where
  uncons_tagged : ItemStepTagged c (uncons c)
  unconsRange_tagged : ∀ size, RangeStepTagged c (unconsRange c size)
  unconsRange_zero : ∃ r, (unconsRange c 0).1 = .emptyOk r
  unconsWhile_tagged : ∀ {σ : Type} (f : σ → Item → Bool × σ) (st : σ),
    RangeStepTagged c ((unconsWhile c f st).1, (unconsWhile c f st).2.1)
  unconsWhile1_tagged : ∀ {σ : Type} (f : σ → Item → Bool × σ) (st : σ),
    ∃ r, unconsWhile1 c f st = some r ∧ RangeStepTagged c (r.1, r.2.1)

theorem freeTagged_of_complete (c : S) (hc : RangeStream.isPartial c = false) :
    FreeTagged c where
  uncons_tagged := by
    rcases h : items c with _ | ⟨x, xs⟩
    · simp [uncons_of_nil h, wrapStreamError_of_complete hc, ItemStepTagged]
    · simp [uncons_of_cons h, ItemStepTagged, h]
  unconsRange_tagged size := by
    rcases unconsRange_cases c size with ⟨k, le, zero, h⟩ | ⟨err, h⟩
    · simpa only [h, ← zero] using rangeStepTagged_of_le c k le
    · simp [h, wrapStreamError_of_complete hc, RangeStepTagged]
  unconsRange_zero := ⟨_, by rw [unconsRange_zero]⟩
  unconsWhile_tagged f st := by
    rw [unconsWhile_of_complete hc]
    exact rangeStepTagged_of_le c _ (scan_fst_le st (items c))
  unconsWhile1_tagged f st := by
    refine ⟨_, unconsWhile1_of_complete hc f st, ?_⟩
    by_cases zero : (scan f st (items c)).1 = 0
    · simp [zero, RangeStepTagged, ItemView.drop_zero]
    · simpa [zero] using rangeStepTagged_of_le c _ (scan_fst_le st (items c) (f := f))

/-! ## Partial input -/

/-- How the free functions on `PartialStream(c)` relate to those on a cursor `c` of
complete input: they move the cursor alike and return the same outcome, except that
`uncons` and `uncons_range` report failures as consumed, and that `uncons_while` and
`uncons_while1` fail with `end_of_input()` exactly when `f` accepts every item left, where
on `c` they return the whole input. -/
structure PartialAgrees (c : S) : Prop where
  partialUncons : uncons (PartialStream.mk c) = ((uncons c).1.consumeErr, ⟨(uncons c).2⟩)
  partialUnconsRange : ∀ size, unconsRange (PartialStream.mk c) size =
    ((unconsRange c size).1.consumeErr, ⟨(unconsRange c size).2⟩)
  partialUnconsWhile : ∀ {σ : Type} (f : σ → Item → Bool × σ) (st : σ),
    unconsWhile (PartialStream.mk c) f st =
      (if Accepts f st (items c) then
          .consumedErr (.fromError (RangeStream.position (unconsWhile c f st).2.1)
            StreamError.endOfInput)
        else (unconsWhile c f st).1, ⟨(unconsWhile c f st).2.1⟩, (unconsWhile c f st).2.2)
  partialUnconsWhile1 : ∀ {σ : Type} (f : σ → Item → Bool × σ) (st : σ),
    unconsWhile1 (PartialStream.mk c) f st = (unconsWhile1 c f st).map fun r =>
      (if Accepts f st (items c) then
          .consumedErr (.fromError (RangeStream.position r.2.1) StreamError.endOfInput)
        else r.1, ⟨r.2.1⟩, r.2.2)
  unconsWhile_accepts : ∀ {σ : Type} (f : σ → Item → Bool × σ) (st : σ),
    Accepts f st (items c) → unconsWhile c f st =
      (if (items c).isEmpty then .emptyOk (take c (items c).length)
        else .consumedOk (take c (items c).length), drop c (items c).length, feed f st (items c))
  unconsWhile1_accepts : ∀ {σ : Type} (f : σ → Item → Bool × σ) (st : σ),
    Accepts f st (items c) → unconsWhile1 c f st =
      some (if (items c).isEmpty then .emptyErr (.empty (RangeStream.position c))
        else .consumedOk (take c (items c).length), drop c (items c).length, feed f st (items c))

/-- The state after a scan that accepted every item: `f` was called on each of them. -/
theorem scan_snd_of_accepts {f : σ → Item → Bool × σ} {st : σ} {xs : List Item}
    (h : Accepts f st xs) : (scan f st xs).2 = feed f st xs := by
  rw [scan_snd, (scan_fst_eq_length_iff st xs).2 h, List.take_of_length_le (Nat.le_succ _)]

theorem partialAgrees_of_complete (c : S) (hc : RangeStream.isPartial c = false) :
    PartialAgrees c where
  partialUncons := by
    rcases h : items c with _ | ⟨x, xs⟩
    · rw [uncons_of_nil h, uncons_of_nil (c := PartialStream.mk c) h]
      simp [wrapStreamError, hc, FastResult.consumeErr]
    · rw [uncons_of_cons h, uncons_of_cons (c := PartialStream.mk c) h]
      rfl
  partialUnconsRange size := by
    rcases LawfulRangeStream.unconsRange c size with ⟨k, -, -, h⟩ | ⟨err, h⟩
    · simp only [unconsRange, PartialStream.unconsRange_mk, h]
      split_ifs <;> rfl
    · simp [unconsRange, h, wrapStreamError, hc, FastResult.consumeErr]
  partialUnconsWhile f st := by
    simp [unconsWhile_eq, hc, ← scan_fst_eq_length_iff, endOfInputAt]
  partialUnconsWhile1 f st := by
    rw [unconsWhile1_eq, unconsWhile1_of_complete hc]
    simp only [Option.map_some', PartialStream.items_mk, PartialStream.drop_mk,
      PartialStream.isPartial_mk, PartialStream.position_mk, endOfInputAt, true_and,
      ← scan_fst_eq_length_iff]
    split_ifs <;> simp_all [ItemView.drop_zero]
  unconsWhile_accepts f st h := by
    rw [unconsWhile_of_complete hc, scan_snd_of_accepts h, (scan_fst_eq_length_iff st _).2 h]
    rcases items c with _ | ⟨x, xs⟩ <;> rfl
  unconsWhile1_accepts f st h := by
    rw [unconsWhile1_of_complete hc, scan_snd_of_accepts h, (scan_fst_eq_length_iff st _).2 h]
    rcases items c with _ | ⟨x, xs⟩ <;> rfl

end Laws

/-! ## The cursors of the module -/

/-- **The consumed tags of the free functions.** On `&str`, `&[T]` and `SliceStream<T>`,
each free function returns `ConsumedOk` of exactly the prefix it removed when it removed
an item, `EmptyOk` when it removed none (so `uncons_range(0)` is `EmptyOk` and
`uncons_while1` never reaches `unreachable!()`), and `EmptyErr` with the cursor
unchanged when it fails. -/
theorem free_functions_tagged :
    (∀ c : Str, FreeTagged c) ∧
    (∀ (T : Type) [MemSize T] (c : Slice T), FreeTagged c) ∧
    (∀ (T : Type) [MemSize T] (c : SliceStream T), FreeTagged c) :=
  ⟨fun c => freeTagged_of_complete c rfl, fun _ _ c => freeTagged_of_complete c rfl,
    fun _ _ c => freeTagged_of_complete c rfl⟩

/-- **Partial input.** The free functions on `PartialStream(s)`, for `s` a `&str`, a
`&[T]` or a `SliceStream<T>`, move the cursor as on `s` and return the same outcome,
except that failures of `uncons` and `uncons_range` count as consumed, and that
`uncons_while` and `uncons_while1` fail with `end_of_input()` at the end exactly when
`f` accepts every item left, where on `s` they return the whole input. -/
theorem partial_stream_agrees :
    (∀ c : Str, PartialAgrees c) ∧
    (∀ (T : Type) [MemSize T] (c : Slice T), PartialAgrees c) ∧
    (∀ (T : Type) [MemSize T] (c : SliceStream T), PartialAgrees c) :=
  ⟨fun c => partialAgrees_of_complete c rfl, fun _ _ c => partialAgrees_of_complete c rfl,
    fun _ _ c => partialAgrees_of_complete c rfl⟩

/-- **The hand-written `uncons_while1` is the default one.** For `&str`, `&[T]` and
`SliceStream<T>`, the type's own `uncons_while1` returns the variant, range and cursor
of the trait's default `uncons_while1`, and leaves the closure in the same state. -/
theorem unconsWhile1_eq_default :
    (∀ (σ : Type) (c : Str) (f : σ → Char → Bool × σ) (st : σ),
      (c.unconsWhile1 f st).map (fun r => (r.1.erase, r.2)) =
        some ((defaultUnconsWhile1 c f st).1.erase, (defaultUnconsWhile1 c f st).2)) ∧
    (∀ (T σ : Type) [MemSize T] (c : Slice T) (f : σ → T → Bool × σ) (st : σ),
      (c.unconsWhile1 f st).map (fun r => (r.1.erase, r.2)) =
        some ((defaultUnconsWhile1 c f st).1.erase, (defaultUnconsWhile1 c f st).2)) ∧
    (∀ (T σ : Type) [MemSize T] (c : SliceStream T) (f : σ → T → Bool × σ) (st : σ),
      (c.unconsWhile1 f st).map (fun r => (r.1.erase, r.2)) =
        some ((defaultUnconsWhile1 c f st).1.erase, (defaultUnconsWhile1 c f st).2)) :=
  ⟨fun _ _ _ _ => map_erase_eq_default (Option.some_get _).symm,
    fun _ _ _ _ _ _ => map_erase_eq_default (Option.some_get _).symm,
    fun _ _ _ _ _ _ => map_erase_eq_default (Option.some_get _).symm⟩

end CombineStream
