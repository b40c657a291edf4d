import CombineStream.SliceStream
import CombineStream.Str

/-!
# The cursor traits and the free functions

`RangeStream` gathers what the free functions of the stream module ask of a cursor:
`StreamOnce`, `Positioned`, `Resetable`, `RangeStreamOnce` and `FullRangeStream`,
with `Range::len` of its ranges. The instances for `&str`, `&[T]` and
`SliceStream<T>` run the methods of `Str`, `Slice` and `SliceStream`; those that
could panic are taken at their value, which exists by the no-panic lemmas of those
modules. `PartialStream<S>` delegates everything to `S` except `is_partial`.

The free functions `uncons`, `uncons_range`, `uncons_while` and `uncons_while1` fold
a method's `Result` into the outcome algebra, with the end-of-input correction for
partial input; `defaultUnconsWhile1` is the trait's default `uncons_while1`.
-/

namespace CombineStream

/-- The traits a cursor `S` implements for the free functions: its item, range and
stream error types and its checkpoints, and its methods. A method takes the cursor
and returns its result with the cursor after it; a predicate is a closure with state. -/
class RangeStream (S : Type) (Item Range Err Checkpoint : outParam Type) where
  /-- `StreamOnce::uncons`. -/
  uncons : S → Except Err Item × S
  /-- `StreamOnce::is_partial`. -/
  isPartial : S → Bool
  /-- `Positioned::position`. -/
  position : S → PointerOffset
  /-- `Resetable::checkpoint`. -/
  checkpoint : S → Checkpoint
  /-- `Resetable::reset`. -/
  reset : S → Checkpoint → S
  /-- `RangeStreamOnce::uncons_range`. -/
  unconsRange : S → Nat → Except Err Range × S
  /-- `RangeStreamOnce::uncons_while`. -/
  unconsWhile {σ : Type} :
    S → (σ → Item → Bool × σ) → σ → Except Err Range × S × σ
  /-- `RangeStreamOnce::uncons_while1`. -/
  unconsWhile1 {σ : Type} :
    S → (σ → Item → Bool × σ) → σ → FastResult Range Err × S × σ
  /-- `RangeStreamOnce::distance`. -/
  distance : S → Checkpoint → Option Nat
  /-- `FullRangeStream::range`. -/
  range : S → Range
  /-- `Range::len`. -/
  len : Range → Nat

instance : RangeStream Str Char Str StringStreamError Str where
  uncons := Str.uncons
  isPartial _ := false
  position := Str.position
  checkpoint s := s
  reset _ checkpoint := checkpoint
  unconsRange s size := (s.unconsRange size).get (Str.unconsRange_isSome s size)
  unconsWhile s f st := (s.unconsWhile f st).get (by rw [Str.unconsWhile_eq]; rfl)
  unconsWhile1 s f st := (s.unconsWhile1 f st).get (by rw [Str.unconsWhile1_eq]; rfl)
  distance := Str.distance
  range s := s
  len := Str.len

instance {T : Type} [MemSize T] : RangeStream (Slice T) T (Slice T) UnexpectedParse (Slice T) where
  uncons := Slice.uncons
  isPartial _ := false
  position := Slice.position
  checkpoint s := s
  reset _ checkpoint := checkpoint
  unconsRange := Slice.unconsRange
  unconsWhile s f st := (s.unconsWhile f st).get (by rw [Slice.unconsWhile_eq]; rfl)
  unconsWhile1 s f st := (s.unconsWhile1 f st).get (by rw [Slice.unconsWhile1_eq]; rfl)
  distance := Slice.distance
  range s := s
  len := Slice.len

instance {T : Type} [MemSize T] :
    RangeStream (SliceStream T) T (Slice T) UnexpectedParse (SliceStream T) where
  uncons := SliceStream.uncons
  isPartial _ := false
  position := SliceStream.position
  checkpoint s := s
  reset _ checkpoint := checkpoint
  unconsRange := SliceStream.unconsRange
  unconsWhile s f st := (s.unconsWhile f st).get
    (by rw [SliceStream.unconsWhile_eq, Slice.unconsWhile_eq]; rfl)
  unconsWhile1 s f st := (s.unconsWhile1 f st).get
    (by rw [SliceStream.unconsWhile1_eq, Slice.unconsWhile1_eq]; rfl)
  distance := SliceStream.distance
  range s := s.slice
  len := Slice.len

/-- `PartialStream<S>(S)`: the cursor `S`, marked as holding partial input. -/
structure PartialStream (S : Type) where
  inner : S
  deriving DecidableEq, Repr

instance {S Item Range Err Checkpoint : Type} [RangeStream S Item Range Err Checkpoint] :
    RangeStream (PartialStream S) Item Range Err Checkpoint where
  uncons s := ((RangeStream.uncons s.inner).1, ⟨(RangeStream.uncons s.inner).2⟩)
  isPartial _ := true
  position s := RangeStream.position s.inner
  checkpoint s := RangeStream.checkpoint s.inner
  reset s checkpoint := ⟨RangeStream.reset s.inner checkpoint⟩
  unconsRange s size :=
    ((RangeStream.unconsRange s.inner size).1, ⟨(RangeStream.unconsRange s.inner size).2⟩)
  unconsWhile s f st := match RangeStream.unconsWhile s.inner f st with
    | (result, inner, st) => (result, ⟨inner⟩, st)
  unconsWhile1 s f st := match RangeStream.unconsWhile1 s.inner f st with
    | (result, inner, st) => (result, ⟨inner⟩, st)
  distance s checkpoint := RangeStream.distance s.inner checkpoint
  range s := RangeStream.range s.inner
  len := RangeStream.len (S := S)

section PartialStream

variable {S Item Range Err Checkpoint : Type} [RangeStream S Item Range Err Checkpoint] (c : S)

@[simp] theorem PartialStream.isPartial_mk : RangeStream.isPartial (PartialStream.mk c) = true :=
  rfl

@[simp] theorem PartialStream.position_mk :
    RangeStream.position (PartialStream.mk c) = RangeStream.position c := rfl

@[simp] theorem PartialStream.unconsRange_mk (size : Nat) :
    RangeStream.unconsRange (PartialStream.mk c) size =
      ((RangeStream.unconsRange c size).1, ⟨(RangeStream.unconsRange c size).2⟩) := rfl

end PartialStream

/-! ## The free functions -/

section Free

variable {S Item Range Err Checkpoint σ : Type} [RangeStream S Item Range Err Checkpoint]

/-- `wrap_stream_error(input, err)`: the error at the cursor's position, reported as
consumed on partial input and as not consumed otherwise. -/
def wrapStreamError {T : Type} (input : S) (err : Err) : FastResult T (ParseError Err) :=
  if RangeStream.isPartial input then .consumedErr (.fromError (RangeStream.position input) err)
  else .emptyErr (.fromError (RangeStream.position input) err)

theorem wrapStreamError_of_complete {T : Type} {input : S}
    (h : RangeStream.isPartial input = false) (err : Err) :
    (wrapStreamError input err : FastResult T _) =
      .emptyErr (.fromError (RangeStream.position input) err) := by
  simp [wrapStreamError, h]

theorem wrapStreamError_ok? {T : Type} (input : S) (err : Err) :
    (wrapStreamError input err : FastResult T _).ok? = none := by
  unfold wrapStreamError
  split <;> rfl

/-- The free `uncons(input)`. -/
def uncons (input : S) : FastResult Item (ParseError Err) × S :=
  match RangeStream.uncons input with
  | (.ok x, input) => (.consumedOk x, input)
  | (.error err, input) => (wrapStreamError input err, input)

/-- The free `uncons_range(input, size)`. -/
def unconsRange (input : S) (size : Nat) : FastResult Range (ParseError Err) × S :=
  match RangeStream.unconsRange input size with
  | (.error err, input) => (wrapStreamError input err, input)
  | (.ok x, input) => (if size = 0 then .emptyOk x else .consumedOk x, input)

variable [StreamError Err]

/-- The error of a partial input that met its end: `end_of_input()` at the position. -/
def endOfInputAt (input : S) : ParseError Err :=
  .fromError (RangeStream.position input) StreamError.endOfInput

/-- The closure the default `uncons_while1` hands to `uncons_while`:
`|c| { let ok = f(c); consumed |= ok; ok }`, with `consumed` beside the state of `f`. -/
def recordConsumed (f : σ → Item → Bool × σ) :
    σ × Bool → Item → Bool × (σ × Bool) :=
  fun (st, consumed) c => ((f st c).1, ((f st c).2, consumed || (f st c).1))

/-- `RangeStreamOnce::uncons_while1` as the trait defines it by default: `uncons_while`
with `recordConsumed f`, then `EmptyErr` unless `f` accepted an item. -/
def defaultUnconsWhile1 (input : S) (f : σ → Item → Bool × σ) (st : σ) :
    FastResult Range Err × S × σ :=
  match RangeStream.unconsWhile input (recordConsumed f) (st, false) with
  | (result, input, (st, consumed)) =>
    if consumed then
      match result with
      | .ok x => (.consumedOk x, input, st)
      | .error x => (.consumedErr x, input, st)
    else (.emptyErr StreamError.unexpectedStaticMessage, input, st)

variable [DecidableEq Err]

/-- `input_at_eof(input)`: whether `uncons` fails with `end_of_input()`, probed from a
checkpoint that is reset afterwards. -/
def inputAtEof (input : S) : Bool × S :=
  match RangeStream.uncons input with
  | (.error err, after) =>
    (err = StreamError.endOfInput, RangeStream.reset after (RangeStream.checkpoint input))
  | (.ok _, after) => (false, RangeStream.reset after (RangeStream.checkpoint input))

/-- `input.is_partial() && input_at_eof(input)`, with the cursor after it. -/
def partialAtEof (input : S) : Bool × S :=
  if RangeStream.isPartial input then inputAtEof input else (false, input)

/-- The free `uncons_while(input, predicate)`. -/
def unconsWhile (input : S) (f : σ → Item → Bool × σ) (st : σ) :
    FastResult Range (ParseError Err) × S × σ :=
  match RangeStream.unconsWhile input f st with
  | (.error err, input, st) => (wrapStreamError input err, input, st)
  | (.ok x, input, st) =>
    match partialAtEof input with
    | (true, input) => (.consumedErr (endOfInputAt input), input, st)
    | (false, input) => (if RangeStream.len S x = 0 then .emptyOk x else .consumedOk x, input, st)

/-- The free `uncons_while1(input, predicate)`; `none` is its `unreachable!()` arm. -/
def unconsWhile1 (input : S) (f : σ → Item → Bool × σ) (st : σ) :
    Option (FastResult Range (ParseError Err) × S × σ) :=
  match RangeStream.unconsWhile1 input f st with
  | (.consumedOk x, input, st) =>
    match partialAtEof input with
    | (true, input) => some (.consumedErr (endOfInputAt input), input, st)
    | (false, input) => some (.consumedOk x, input, st)
  | (.emptyErr _, input, st) =>
    match partialAtEof input with
    | (true, input) => some (.consumedErr (endOfInputAt input), input, st)
    | (false, input) => some (.emptyErr (.empty (RangeStream.position input)), input, st)
  | (.consumedErr err, input, st) =>
    match partialAtEof input with
    | (true, input) => some (.consumedErr (endOfInputAt input), input, st)
    | (false, input) => some (wrapStreamError input err, input, st)
  | (.emptyOk _, _, _) => none

end Free

end CombineStream
