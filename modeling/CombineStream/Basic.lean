import Mathlib

/-!
# Outcomes, stream errors and closures

The vocabulary shared by every cursor of `src/stream/mod.rs`.

* `FastResult` is the outcome algebra: whether a step consumed input, and whether
  it succeeded.
* `StringStreamError` and `UnexpectedParse` are the stream errors of `&str` and of
  slices, and `ParseError` locates one at a `PointerOffset`. The crate's `error.rs`
  is not part of the source, so these follow the spec.
* A predicate `F: FnMut(Item) -> bool` is a closure with captured state: it is
  modelled by its call `σ → Item → Bool × σ`, whose state is threaded through every
  loop that calls it. `feed` is the state after a list of calls and `scan` is the
  plain one-item-at-a-time `take_while` loop, the reference for the unrolled loops.
-/

namespace CombineStream

/-! ## The outcome algebra -/

/-- `FastResult<T, E>`: consumed or not, succeeded or not. `EmptyErr` carries the
error itself; its `Tracked` offset belongs to the combinator layer. -/
inductive FastResult (T E : Type) where
  | consumedOk (value : T)
  | emptyOk (value : T)
  | consumedErr (error : E)
  | emptyErr (error : E)
  deriving DecidableEq, Repr

namespace FastResult

variable {T E : Type}

/-- The outcome with its error forgotten: the variant and the returned value. -/
def erase : FastResult T E → FastResult T Unit
  | consumedOk x => consumedOk x
  | emptyOk x => emptyOk x
  | consumedErr _ => consumedErr ()
  | emptyErr _ => emptyErr ()

/-- The value of a successful outcome. -/
def ok? : FastResult T E → Option T
  | consumedOk x => some x
  | emptyOk x => some x
  | _ => none

end FastResult

/-! ## Stream errors and positions -/

/-- Modelled from the spec: `StringStreamError`, the stream error of `&str`
(`error.rs` is not part of the source). -/
inductive StringStreamError where
  | unexpectedParse
  | eoi
  | characterBoundary
  deriving DecidableEq, Repr

/-- Modelled from the spec: `UnexpectedParse`, the stream error of `&[T]` and
`SliceStream<T>`. -/
inductive UnexpectedParse where
  | eoi
  | unexpected
  deriving DecidableEq, Repr

/-- Modelled from the spec: the `StreamError` constructors the stream module calls.
`end_of_input()` is the `Eoi` variant of each error type; the text of an
`unexpected_static_message` is dropped. -/
class StreamError (E : Type) where
  endOfInput : E
  unexpectedStaticMessage : E

instance : StreamError StringStreamError := ⟨.eoi, .unexpectedParse⟩

instance : StreamError UnexpectedParse := ⟨.eoi, .unexpected⟩

/-- `PointerOffset(usize)`: the address of a cursor's first item. Addresses of one
allocation stay below `2 ^ 64`, so they are natural numbers here. -/
structure PointerOffset where
  addr : Nat
  deriving DecidableEq, Repr

instance : LT PointerOffset := ⟨fun a b => a.addr < b.addr⟩

instance (a b : PointerOffset) : Decidable (a < b) :=
  inferInstanceAs (Decidable (a.addr < b.addr))

@[simp] theorem PointerOffset.lt_def {a b : PointerOffset} : a < b ↔ a.addr < b.addr := Iff.rfl

/-- Modelled from the spec: a parse error is a stream error at the position where it
was raised. -/
structure ParseError (E : Type) where
  position : PointerOffset
  error : E
  deriving DecidableEq, Repr

namespace ParseError

variable {E : Type}

/-- `ParseError::from_error(position, err)`. -/
def fromError (position : PointerOffset) (err : E) : ParseError E := ⟨position, err⟩

/-- `ParseError::empty(position)`: an error that says only where it happened. -/
def empty [StreamError E] (position : PointerOffset) : ParseError E :=
  ⟨position, StreamError.unexpectedStaticMessage⟩

/-- `is_unexpected_end_of_input`. -/
def isUnexpectedEndOfInput [StreamError E] [DecidableEq E] (err : ParseError E) : Bool :=
  err.error = StreamError.endOfInput

end ParseError

/-- `a - b` on `usize`, which panics on underflow: `none` is the panic. -/
def usizeSub (a b : Nat) : Option Nat := if b ≤ a then some (a - b) else none

@[simp] theorem usizeSub_of_le {a b : Nat} (h : b ≤ a) : usizeSub a b = some (a - b) :=
  if_pos h

/-- `PointerOffset::translate_position(initial_string)`: `self.0 -= initial_string as usize`,
the offset from the address of `initial_string`; `none` where the subtraction underflows. -/
def PointerOffset.translatePosition (p : PointerOffset) (initialString : Nat) : Option Nat :=
  usizeSub p.addr initialString

/-- How one unrolled block of a loop body ends: it breaks out of the loop with `a`, or
falls through to the loop's next iteration with `b`. -/
inductive Block (α β : Type) where
  | exit (a : α)
  | pass (b : β)
  deriving DecidableEq, Repr

/-! ## Closures with state -/

section Closure

variable {σ α : Type} (f : σ → α → Bool × σ)

/-- The state of closure `f` after it is called on `xs`, in order. -/
def feed : σ → List α → σ
  | st, [] => st
  | st, x :: xs => feed (f st x).2 xs

/-- `f` answers `true` to every call on `xs`, made in order from state `st`. -/
def Accepts : σ → List α → Prop
  | _, [] => True
  | st, x :: xs => (f st x).1 = true ∧ Accepts (f st x).2 xs

/-- The plain `take_while` loop for a closure with state: how many leading items `f`
accepts, and the state of `f` after it is called on them and on the first item it
rejects. -/
def scan : σ → List α → Nat × σ
  | st, [] => (0, st)
  | st, x :: xs =>
    match f st x with
    | (true, st') => ((scan st' xs).1 + 1, (scan st' xs).2)
    | (false, st') => (0, st')

variable {f}

@[simp] theorem feed_nil (st : σ) : feed f st [] = st := rfl

@[simp] theorem feed_cons (st : σ) (x : α) (xs : List α) :
    feed f st (x :: xs) = feed f (f st x).2 xs := rfl

@[simp] theorem scan_nil (st : σ) : scan f st [] = (0, st) := rfl

theorem scan_cons_of_accept {st st' : σ} {x : α} (xs : List α) (h : f st x = (true, st')) :
    scan f st (x :: xs) = ((scan f st' xs).1 + 1, (scan f st' xs).2) := by
  simp only [scan, h]

theorem scan_cons_of_reject {st st' : σ} {x : α} (xs : List α) (h : f st x = (false, st')) :
    scan f st (x :: xs) = (0, st') := by
  simp only [scan, h]

/-- One call of the loop: `f` accepts `x` and the loop goes on, or rejects it and stops. -/
theorem scan_cons (st : σ) (x : α) (xs : List α) :
    scan f st (x :: xs) =
      if (f st x).1 then ((scan f (f st x).2 xs).1 + 1, (scan f (f st x).2 xs).2)
      else (0, (f st x).2) := by
  rcases h : f st x with ⟨_ | _, st'⟩
  · simp [scan_cons_of_reject xs h]
  · simp [scan_cons_of_accept xs h]

theorem scan_fst_le (st : σ) (xs : List α) : (scan f st xs).1 ≤ xs.length := by
  induction xs generalizing st with
  | nil => simp
  | cons x xs ih =>
    rw [scan_cons]
    split
    · simpa using ih _
    · simp

/-- The loop calls `f` on exactly the items it accepts and the first one it rejects. -/
theorem scan_snd (st : σ) (xs : List α) :
    (scan f st xs).2 = feed f st (xs.take ((scan f st xs).1 + 1)) := by
  induction xs generalizing st with
  | nil => rfl
  | cons x xs ih =>
    rw [scan_cons]
    split
    · simpa using ih _
    · simp

/-- The items the loop counts are all accepted. -/
theorem scan_accepts (st : σ) (xs : List α) : Accepts f st (xs.take (scan f st xs).1) := by
  induction xs generalizing st with
  | nil => trivial
  | cons x xs ih =>
    rw [scan_cons]
    split
    · exact ⟨‹_›, ih _⟩
    · trivial

/-- The loop runs to the end exactly when `f` accepts every item. -/
theorem scan_fst_eq_length_iff (st : σ) (xs : List α) :
    (scan f st xs).1 = xs.length ↔ Accepts f st xs := by
  induction xs generalizing st with
  | nil => simp [Accepts]
  | cons x xs ih =>
    rw [scan_cons]
    split
    · simp [Accepts, *]
    · simp [Accepts, *]

instance (st : σ) (xs : List α) : Decidable (Accepts f st xs) :=
  decidable_of_iff _ (scan_fst_eq_length_iff st xs)

/-- A loop that stops on an item of `xs` never reads what follows `xs`. -/
theorem scan_append_of_not_accepts {st : σ} {xs : List α} (h : ¬ Accepts f st xs)
    (ys : List α) : scan f st (xs ++ ys) = scan f st xs := by
  induction xs generalizing st with
  | nil => exact absurd trivial h
  | cons x xs ih =>
    rw [List.cons_append, scan_cons, scan_cons]
    split
    · rw [ih fun a => h ⟨‹_›, a⟩]
    · rfl

theorem scan_lt_of_not_accepts {st : σ} {xs : List α} (h : ¬ Accepts f st xs) :
    (scan f st xs).1 < xs.length :=
  Nat.lt_of_le_of_ne (scan_fst_le st xs) (mt (scan_fst_eq_length_iff st xs).1 h)

/-- The item after the counted ones, when there is one, is rejected. -/
theorem scan_rejects (st : σ) (xs : List α) (h : (scan f st xs).1 < xs.length) :
    (f (feed f st (xs.take (scan f st xs).1)) (xs.get ⟨_, h⟩)).1 = false := by
  induction xs generalizing st with
  | nil => simp at h
  | cons x xs ih =>
    by_cases hx : (f st x).1
    · simp only [scan_cons, hx, if_true] at h ⊢
      simpa using ih _ (by simpa using h)
    · simp [scan_cons, hx]

end Closure

end CombineStream
