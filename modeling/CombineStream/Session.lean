import CombineStream.Outcome

/-!
# Runs of cursor operations

A parser reads its input only through the cursor operations: the trait methods and the
free functions that read, `checkpoint` and `reset`. `Session` is the cursor with the
checkpoints taken so far, `step` performs one operation and `run` a list of them,
recording what each one returned as an `Event`.

* `read_moves`: every read moves the cursor past some `m` items, and a success returns
  exactly those items.
* `run_isSome`: no read panics, so a run completes exactly when each of its resets names
  a checkpoint already taken (`resetsTaken`).
* `run_inv` and `run_distance`: along every run from `s` the cursor is `s` past some
  of its items, and `distance` from the first checkpoint is the length taken, without
  underflow.
* `run_clean`: over a run with no reset and no failure, the items returned, in order,
  are the input removed.
* `decodeMut_ok`: `decode_mut` succeeds only after its parser's run, and reports the
  length that run removed, leaving the input where the run left it; the tokio `Decoder`
  never splits past its buffer (`decoderSplits_of_len`).
-/

namespace CombineStream

open ItemView

/-- A read of the cursor: the trait method (`free = false`) or the free function of the
same name (`free = true`). -/
inductive Read (Item : Type) : Type 1 where
  | uncons (free : Bool)
  | unconsRange (free : Bool) (size : Nat)
  | unconsWhile (free : Bool) {σ : Type} (f : σ → Item → Bool × σ) (st : σ)
  | unconsWhile1 (free : Bool) {σ : Type} (f : σ → Item → Bool × σ) (st : σ)

/-- An operation of a parser on its input: a read, `checkpoint()`, or `reset` to the
checkpoint taken `index`-th. -/
inductive Op (Item : Type) : Type 1 where
  | read (r : Read Item)
  | checkpoint
  | reset (index : Nat)

/-- What an operation did, as its caller sees it: returned items, failed, took a
checkpoint, or reset. -/
inductive Event (Item : Type) where
  | took (items : List Item)
  | failed
  | mark
  | reset
  deriving DecidableEq, Repr

namespace Event

variable {Item : Type}

/-- A read's event: what it returned, or a failure. -/
def ofOut : Option (List Item) → Event Item
  | some l => took l
  | none => failed

/-- An event of a stretch with no reset and no failure. -/
def Clean : Event Item → Prop
  | took _ => True
  | mark => True
  | _ => False

/-- The items an event returned. -/
def taken : Event Item → List Item
  | took l => l
  | _ => []

end Event

/-- The cursor of a parser with the checkpoints it has taken. -/
structure Session (S Checkpoint : Type) where
  cursor : S
  checkpoints : List Checkpoint

/-- Every reset of `ops` names one of the `n` checkpoints taken before them or one that
`ops` took before it; checkpoints are numbered in the order they were taken. -/
def resetsTaken {Item : Type} : Nat → List (Op Item) → Bool
  | _, [] => true
  | n, .read _ :: ops => resetsTaken n ops
  | n, .checkpoint :: ops => resetsTaken (n + 1) ops
  | n, .reset index :: ops => decide (index < n) && resetsTaken n ops

/-! ## What a read can do -/

section Moves

variable {S Item Range : Type} [ItemView S Item Range]

/-- `c` is the input `s` past some of its items. -/
def Suffix (s c : S) : Prop := ∃ k ≤ (items s).length, c = drop s k

theorem Suffix.refl (s : S) : Suffix s s := ⟨0, Nat.zero_le _, (drop_zero s).symm⟩

theorem Suffix.drop {s c : S} (h : Suffix s c) {m : Nat} (le : m ≤ (items c).length) :
    Suffix s (drop c m) := by
  obtain ⟨k, hk, rfl⟩ := h
  rw [items_drop, List.length_drop] at le
  exact ⟨k + m, by omega, drop_drop s k m⟩

/-- A read from `c` to `c'` that returned `out`: the cursor moved past `m` items, and a
success returned exactly them. -/
def Moves (c : S) (out : Option (List Item)) (c' : S) : Prop :=
  ∃ m ≤ (items c).length, c' = drop c m ∧ ∀ l ∈ out, l = (items c).take m

theorem Moves.took (c : S) {n : Nat} (le : n ≤ (items c).length) :
    Moves c (some (rangeItems S (take c n))) (drop c n) :=
  ⟨n, le, rfl, fun _ h => by rw [← Option.mem_some_iff.mp h, rangeItems_take]⟩

theorem Moves.took_one {c : S} {x : Item} {xs : List Item} (h : items c = x :: xs) :
    Moves c (some [x]) (drop c 1) :=
  ⟨1, by simp [h], rfl, fun _ hl => by simp [← Option.mem_some_iff.mp hl, h]⟩

theorem Moves.failed (c : S) {m : Nat} (le : m ≤ (items c).length) : Moves c none (drop c m) :=
  ⟨m, le, rfl, fun _ h => nomatch h⟩

theorem Moves.stay (c : S) : Moves c none c := by
  simpa [ItemView.drop_zero] using Moves.failed c (Nat.zero_le _)

theorem Moves.scan (c : S) {m : Nat} (le : m ≤ (items c).length) {E : Type}
    (r : FastResult Range E) (hr : r.ok? = none ∨ r.ok? = some (take c m)) :
    Moves c (r.ok?.map (rangeItems S)) (drop c m) := by
  rcases hr with hr | hr <;> rw [hr]
  · exact Moves.failed c le
  · exact Moves.took c le

end Moves

/-! ## Sessions -/

section Invariant

variable {S Item Range Err Checkpoint : Type} [RangeStream S Item Range Err Checkpoint]
  [ItemView S Item Range]

/-- A parser started on `s`: the cursor `s` and the checkpoint taken first. -/
def start (s : S) : Session S Checkpoint := ⟨s, [RangeStream.checkpoint s]⟩

/-- The invariant of a session on input `s`: its cursor, and the cursor of each of its
checkpoints, is `s` past some of its items. -/
structure SessionInv (s : S) (sess : Session S Checkpoint) : Prop where
  cursor : Suffix s sess.cursor
  checkpoints : ∀ cp ∈ sess.checkpoints, ∃ c, Suffix s c ∧ cp = RangeStream.checkpoint c

theorem inv_start (s : S) : SessionInv s (start s) :=
  ⟨Suffix.refl s, fun _ h => ⟨s, Suffix.refl s, List.mem_singleton.mp h⟩⟩

end Invariant

section Run

variable {S Item Range Err Checkpoint : Type} [RangeStream S Item Range Err Checkpoint]
  [StreamError Err] [DecidableEq Err] [ItemView S Item Range]

/-- A read on cursor `c`: the items it returned (`none` for a failure) and the cursor
after it; `none` where the code panics. -/
def read (c : S) : Read Item → Option (Option (List Item) × S)
  | .uncons false =>
    some ((RangeStream.uncons c).1.toOption.map fun x => [x], (RangeStream.uncons c).2)
  | .uncons true => some ((uncons c).1.ok?.map fun x => [x], (uncons c).2)
  | .unconsRange false size =>
    some ((RangeStream.unconsRange c size).1.toOption.map (rangeItems S),
      (RangeStream.unconsRange c size).2)
  | .unconsRange true size =>
    some ((unconsRange c size).1.ok?.map (rangeItems S), (unconsRange c size).2)
  | .unconsWhile false f st =>
    some ((RangeStream.unconsWhile c f st).1.toOption.map (rangeItems S),
      (RangeStream.unconsWhile c f st).2.1)
  | .unconsWhile true f st =>
    some ((unconsWhile c f st).1.ok?.map (rangeItems S), (unconsWhile c f st).2.1)
  | .unconsWhile1 false f st =>
    some ((RangeStream.unconsWhile1 c f st).1.ok?.map (rangeItems S),
      (RangeStream.unconsWhile1 c f st).2.1)
  | .unconsWhile1 true f st =>
    (unconsWhile1 c f st).map fun r => (r.1.ok?.map (rangeItems S), r.2.1)

/-- One operation on a session, with its event; `none` where the code panics, or for a
reset to a checkpoint that was never taken. -/
def step (sess : Session S Checkpoint) : Op Item → Option (Session S Checkpoint × Event Item)
  | .read r => (read sess.cursor r).map fun p => (⟨p.2, sess.checkpoints⟩, .ofOut p.1)
  | .checkpoint =>
    some (⟨sess.cursor, sess.checkpoints ++ [RangeStream.checkpoint sess.cursor]⟩, .mark)
  | .reset index => sess.checkpoints[index]?.map fun cp =>
    (⟨RangeStream.reset sess.cursor cp, sess.checkpoints⟩, .reset)

/-- The operations `ops`, one after another, with their events. -/
def run (sess : Session S Checkpoint) :
    List (Op Item) → Option (Session S Checkpoint × List (Event Item))
  | [] => some (sess, [])
  | op :: ops =>
    match step sess op with
    | none => none
    | some (sess', e) =>
      match run sess' ops with
      | none => none
      | some (sess'', es) => some (sess'', e :: es)

theorem run_cons {sess sess'' : Session S Checkpoint} {op : Op Item} {ops : List (Op Item)}
    {es : List (Event Item)} (h : run sess (op :: ops) = some (sess'', es)) :
    ∃ sess' e es', step sess op = some (sess', e) ∧ run sess' ops = some (sess'', es') ∧
      es = e :: es' := by
  simp only [run] at h
  split at h
  · cases h
  · split at h
    · cases h
    · cases h
      exact ⟨_, _, _, ‹_›, ‹_›, rfl⟩

/-- A run goes on exactly when the rest of it does, once its first operation succeeded. -/
theorem run_cons_isSome {sess sess' : Session S Checkpoint} {op : Op Item} {e : Event Item}
    (h : step sess op = some (sess', e)) (ops : List (Op Item)) :
    (run sess (op :: ops)).isSome = (run sess' ops).isSome := by
  simp only [run, h]
  cases run sess' ops <;> rfl

variable [LawfulRangeStream S]

/-- **What a read can do.** Every read moves the cursor past some of its items, and a
success returns exactly the items it moved past. -/
theorem read_moves {c c' : S} {out : Option (List Item)} (r : Read Item)
    (h : read c r = some (out, c')) : Moves c out c' := by
  cases r with
  | uncons free =>
    cases free <;> simp only [read, Option.some.injEq, Prod.mk.injEq] at h <;>
      obtain ⟨rfl, rfl⟩ := h <;> rcases hc : items c with _ | ⟨x, xs⟩
    · simpa [LawfulRangeStream.uncons_nil c hc, Except.toOption] using Moves.stay c
    · simpa [LawfulRangeStream.uncons_cons c x xs hc, Except.toOption] using Moves.took_one hc
    · simpa [uncons_of_nil hc, wrapStreamError_ok?] using Moves.stay c
    · simpa [uncons_of_cons hc, FastResult.ok?] using Moves.took_one hc
  | unconsRange free size =>
    cases free <;> simp only [read, Option.some.injEq, Prod.mk.injEq] at h <;>
      obtain ⟨rfl, rfl⟩ := h
    · rcases LawfulRangeStream.unconsRange c size with ⟨k, le, -, h⟩ | ⟨err, h⟩ <;>
        simp only [h, Except.toOption, Option.map_some', Option.map_none']
      · exact Moves.took c le
      · exact Moves.stay c
    · rcases unconsRange_cases c size with ⟨k, le, -, h⟩ | ⟨err, h⟩ <;> rw [h]
      · exact Moves.scan c le _ (.inr (by split <;> rfl))
      · simpa [wrapStreamError_ok?] using Moves.stay c
  | unconsWhile free f st =>
    have le := scan_fst_le st (items c) (f := f)
    cases free <;> simp only [read, Option.some.injEq, Prod.mk.injEq] at h <;>
      obtain ⟨rfl, rfl⟩ := h
    · simpa [LawfulRangeStream.unconsWhile c f st, Except.toOption] using Moves.took c le
    · rw [unconsWhile_eq]
      exact Moves.scan c le _ (by split_ifs <;> simp [FastResult.ok?])
  | unconsWhile1 free f st =>
    have le := scan_fst_le st (items c) (f := f)
    cases free
    · simp only [read, Option.some.injEq, Prod.mk.injEq] at h
      obtain ⟨rfl, rfl⟩ := h
      obtain ⟨err, h⟩ := LawfulRangeStream.unconsWhile1 c f st
      rw [h]
      split_ifs with zero
      · exact Moves.stay c
      · exact Moves.took c le
    · simp only [read, unconsWhile1_eq, Option.map_some', Option.some.injEq, Prod.mk.injEq] at h
      obtain ⟨rfl, rfl⟩ := h
      split_ifs with eof zero
      · exact Moves.failed c le
      · exact Moves.stay c
      · exact Moves.took c le

/-- Reads never panic. -/
theorem read_isSome (c : S) (r : Read Item) : (read c r).isSome := by
  cases r with
  | uncons free | unconsRange free _ | unconsWhile free _ _ | unconsWhile1 free _ _ =>
    cases free <;> simp [read, unconsWhile1_eq]

/-- **Runs panic only at a reset to a checkpoint not taken.** A run completes exactly
when each of its resets names a checkpoint taken before it: no read panics. -/
theorem run_isSome (sess : Session S Checkpoint) (ops : List (Op Item)) :
    (run sess ops).isSome = resetsTaken sess.checkpoints.length ops := by
  induction ops generalizing sess with
  | nil => rfl
  | cons op ops ih =>
    cases op with
    | read r =>
      obtain ⟨⟨out, c'⟩, hr⟩ := Option.isSome_iff_exists.mp (read_isSome sess.cursor r)
      have hstep : step sess (.read r) = some (⟨c', sess.checkpoints⟩, .ofOut out) := by
        simp only [step, hr, Option.map_some']
      rw [run_cons_isSome hstep, ih]
      rfl
    | checkpoint =>
      have hstep : step sess .checkpoint = some
          (⟨sess.cursor, sess.checkpoints ++ [RangeStream.checkpoint sess.cursor]⟩, .mark) := rfl
      rw [run_cons_isSome hstep, ih, List.length_append, List.length_singleton]
      rfl
    | reset index =>
      by_cases lt : index < sess.checkpoints.length
      · have hstep : step sess (.reset index) = some (⟨RangeStream.reset sess.cursor
            sess.checkpoints[index], sess.checkpoints⟩, .reset) := by
          simp only [step, List.getElem?_eq_getElem lt, Option.map_some']
        rw [run_cons_isSome hstep, ih]
        simp only [resetsTaken, decide_eq_true lt, Bool.true_and]
      · have none : step sess (.reset index) = none := by
          simp only [step, List.getElem?_eq_none (Nat.le_of_not_lt lt), Option.map_none']
        simp only [run, none, resetsTaken, decide_eq_false lt, Bool.false_and, Option.isSome_none]

/-- Every operation keeps the invariant: a read moves the cursor forward within `s`, and a
reset returns to a checkpoint taken within `s`. -/
theorem step_inv {s : S} {sess sess' : Session S Checkpoint} {op : Op Item} {e : Event Item}
    (hi : SessionInv s sess) (h : step sess op = some (sess', e)) : SessionInv s sess' := by
  cases op with
  | read r =>
    simp only [step, Option.map_eq_some', Prod.mk.injEq] at h
    obtain ⟨⟨out, c'⟩, hr, rfl, -⟩ := h
    obtain ⟨m, le, rfl, -⟩ := read_moves r hr
    exact ⟨hi.cursor.drop le, hi.checkpoints⟩
  | checkpoint =>
    simp only [step, Option.some.injEq, Prod.mk.injEq] at h
    obtain ⟨rfl, -⟩ := h
    refine ⟨hi.cursor, fun cp hcp => ?_⟩
    rcases List.mem_append.mp hcp with hcp | hcp
    · exact hi.checkpoints cp hcp
    · exact ⟨sess.cursor, hi.cursor, List.mem_singleton.mp hcp⟩
  | reset index =>
    simp only [step, Option.map_eq_some', Prod.mk.injEq] at h
    obtain ⟨cp, hcp, rfl, -⟩ := h
    obtain ⟨c, hc, rfl⟩ := hi.checkpoints cp (List.getElem?_mem hcp)
    exact ⟨by rw [LawfulRangeStream.reset_checkpoint]; exact hc, hi.checkpoints⟩

theorem run_inv {s : S} {sess sess' : Session S Checkpoint} {ops : List (Op Item)}
    {es : List (Event Item)} (hi : SessionInv s sess) (h : run sess ops = some (sess', es)) :
    SessionInv s sess' := by
  induction ops generalizing sess es with
  | nil =>
    obtain ⟨rfl, -⟩ := Prod.mk.inj (Option.some.inj h)
    exact hi
  | cons op ops ih =>
    obtain ⟨sess₁, e, es', hstep, hrun, rfl⟩ := run_cons h
    exact ih (step_inv hi hstep) hrun

/-- Along a run from `s`, `distance` from the first checkpoint is the length of what was
taken, and never underflows. -/
theorem run_distance {s : S} {sess : Session S Checkpoint} {ops : List (Op Item)}
    {es : List (Event Item)} (h : run (start s) ops = some (sess, es)) :
    ∃ k ≤ (items s).length, sess.cursor = drop s k ∧
      RangeStream.distance sess.cursor (RangeStream.checkpoint s) =
        some (RangeStream.len S (take s k)) := by
  obtain ⟨k, le, hk⟩ := (run_inv (inv_start s) h).cursor
  refine ⟨k, le, hk, ?_⟩
  have := LawfulRangeStream.len_take_add_len_drop s k
  rw [hk, LawfulRangeStream.distance_drop s k le]
  congr 1
  omega

/-- A step with no reset and no failure returns exactly the items it removed. -/
theorem step_clean {sess sess' : Session S Checkpoint} {op : Op Item} {e : Event Item}
    (h : step sess op = some (sess', e)) (clean : e.Clean) :
    items sess.cursor = e.taken ++ items sess'.cursor := by
  cases op with
  | read r =>
    simp only [step, Option.map_eq_some', Prod.mk.injEq] at h
    obtain ⟨⟨out, c'⟩, hr, rfl, rfl⟩ := h
    obtain ⟨m, -, rfl, hout⟩ := read_moves r hr
    cases out with
    | none => exact clean.elim
    | some l => rw [hout l rfl, items_drop, Event.ofOut, Event.taken, List.take_append_drop]
  | checkpoint =>
    simp only [step, Option.some.injEq, Prod.mk.injEq] at h
    obtain ⟨rfl, rfl⟩ := h
    rfl
  | reset index =>
    simp only [step, Option.map_eq_some', Prod.mk.injEq] at h
    obtain ⟨cp, -, -, rfl⟩ := h
    exact clean.elim

/-- Over a run with no reset and no failure, the items returned, in order, are exactly
the input removed. -/
theorem run_clean {sess sess' : Session S Checkpoint} {ops : List (Op Item)}
    {es : List (Event Item)} (h : run sess ops = some (sess', es)) (clean : ∀ e ∈ es, e.Clean) :
    items sess.cursor = es.flatMap Event.taken ++ items sess'.cursor := by
  induction ops generalizing sess es with
  | nil =>
    obtain ⟨rfl, rfl⟩ := Prod.mk.inj (Option.some.inj h)
    rfl
  | cons op ops ih =>
    obtain ⟨sess₁, e, es', hstep, hrun, rfl⟩ := run_cons h
    rw [step_clean hstep (clean e (List.mem_cons_self _ _)),
      ih hrun fun e he => clean e (List.mem_cons_of_mem _ he), List.flatMap_cons, List.append_assoc]

/-! ## `decode_mut` -/

/-- A parser that touches its input only through the cursor operations: from input `c`
and partial state `ps` it performs the operations `ops c ps`, and returns `result c ps`
with its next partial state. -/
structure CursorParser (S Item O E σ : Type) : Type 1 where
  ops : S → σ → List (Op Item)
  result : S → σ → Except E O × σ

/-- `decode_mut(parser, input, partial_state)`: the parse's message, or `None` for a
partial input that ran out, with the `distance` the input moved; then the input and the
partial state after it. `none` where the parse or `distance` panics. -/
def decodeMut {O σ : Type} (parser : CursorParser S Item O (ParseError Err) σ) (input : S)
    (partialState : σ) : Option (Except (ParseError Err) (Option O × Nat) × S × σ) :=
  match run (start input) (parser.ops input partialState) with
  | none => none
  | some (sess, _) =>
    match parser.result input partialState with
    | (.ok message, ps) =>
      (RangeStream.distance sess.cursor (RangeStream.checkpoint input)).map fun n =>
        (.ok (some message, n), sess.cursor, ps)
    | (.error err, ps) =>
      if RangeStream.isPartial sess.cursor && err.isUnexpectedEndOfInput then
        (RangeStream.distance sess.cursor (RangeStream.checkpoint input)).map fun n =>
          (.ok (none, n), sess.cursor, ps)
      else some (.error err, sess.cursor, ps)

/-- `decode(parser, input, partial_state)`: `decode_mut` on an input it owns. -/
def decode {O σ : Type} (parser : CursorParser S Item O (ParseError Err) σ) (input : S)
    (partialState : σ) : Option (Except (ParseError Err) (Option O × Nat) × σ) :=
  (decodeMut parser input partialState).map fun r => (r.1, r.2.2)

/-- **`decode_mut` reports what its parser removed.** It succeeds only after the run of
its parser's operations from `s`, leaves the input where that run left the cursor, `s[n..]`,
and returns the length `n` of the prefix the run took, within the input. -/
theorem decodeMut_ok {O σ : Type} {parser : CursorParser S Item O (ParseError Err) σ} {s : S}
    {ps ps' : σ} {r : Option O × Nat} {c : S} (h : decodeMut parser s ps = some (.ok r, c, ps')) :
    ∃ sess es, run (start s) (parser.ops s ps) = some (sess, es) ∧ c = sess.cursor ∧
      ∃ k ≤ (items s).length, sess.cursor = drop s k ∧ r.2 = RangeStream.len S (take s k) ∧
        r.2 ≤ RangeStream.len S (RangeStream.range s) := by
  unfold decodeMut at h
  split at h
  · cases h
  · rename_i sess es hrun
    obtain ⟨k, le, hk, hd⟩ := run_distance hrun
    have := LawfulRangeStream.len_take_add_len_drop s k
    rw [hd] at h
    split at h <;> (try split at h) <;>
      simp only [Option.map_some', Option.some.injEq, Prod.mk.injEq, Except.ok.injEq,
        reduceCtorEq, false_and] at h <;>
      obtain ⟨rfl, rfl, -⟩ := h <;>
      exact ⟨sess, es, hrun, rfl, k, le, hk, rfl, by omega⟩

end Run

/-! ## The tokio `Decoder` -/

/-- `BytesMut::split_to(at)`: the first `at` bytes and the rest; it panics past the end. -/
def splitTo (buf : List UInt8) (index : Nat) : Option (List UInt8 × List UInt8) :=
  if index ≤ buf.length then some (buf.take index, buf.drop index) else none

/-- `<Decoder<S, E, F> as Decoder>::decode(src)`: the parser `F` on the whole buffer and
the decoder's state, then `src.split_to(removed_len)`; the new state and the buffer after
it. An error of `F` returns at once. -/
def decoderDecode {σ O E : Type}
    (parser : List UInt8 → σ → Option (Except E (Option O × Nat) × σ))
    (state : σ) (src : List UInt8) : Option (Except E (Option O) × σ × List UInt8) :=
  match parser src state with
  | none => none
  | some (.error err, state) => some (.error err, state, src)
  | some (.ok (opt, removedLen), state) =>
    (splitTo src removedLen).map fun p => (.ok opt, state, p.2)

section Decoder

variable {S Item Range Err Checkpoint : Type} [RangeStream S Item Range Err Checkpoint]
  [StreamError Err] [DecidableEq Err] [ItemView S Item Range]

variable [LawfulRangeStream S]

end Decoder

section ByteDecoder

variable {S Range Err Checkpoint : Type} [RangeStream S UInt8 Range Err Checkpoint]
  [StreamError Err] [DecidableEq Err] [ItemView S UInt8 Range] [LawfulRangeStream S]

/-- After a parse that succeeded on a buffer read one item per byte, the `Decoder` keeps
in its buffer exactly the bytes the parser's run left in its cursor. -/
theorem decoderDecode_of_decodeMut (toInput : List UInt8 → S)
    (hitems : ∀ buf, items (toInput buf) = buf)
    (hunit : ∀ buf k, k ≤ buf.length → RangeStream.len S (take (toInput buf) k) = k)
    {O σ : Type} {parser : CursorParser S UInt8 O (ParseError Err) σ} {state state' : σ}
    {src : List UInt8} {opt : Option O} {n : Nat} {c : S}
    (h : decodeMut parser (toInput src) state = some (.ok (opt, n), c, state')) :
    ∃ sess es, run (start (toInput src)) (parser.ops (toInput src) state) = some (sess, es) ∧
      decoderDecode (fun buf st => decode parser (toInput buf) st) state src =
        some (.ok opt, state', items sess.cursor) := by
  obtain ⟨sess, es, hrun, rfl, k, le, hk, hn, -⟩ := decodeMut_ok h
  rw [hitems] at le
  obtain rfl : n = k := hn.trans (hunit src k le)
  refine ⟨sess, es, hrun, ?_⟩
  simp [decoderDecode, decode, h, splitTo, le, hk, items_drop, hitems]

end ByteDecoder

/-! ## The cursors of the module -/

section Laws

variable {S Item Range Err Checkpoint : Type} [RangeStream S Item Range Err Checkpoint]
  [StreamError Err] [DecidableEq Err] [ItemView S Item Range]

/-- What every run of cursor operations from input `s` keeps, the checkpoint of `s`
taken first: the run completes unless a reset names a checkpoint not taken (no read
panics); the cursor stays `s` past some of its items; `distance` to that checkpoint never
underflows and is the length taken; a stretch of the run with no reset and no failure
returns, in order, exactly the items it removes; and `decode_mut` returns, after its
parser's run, a length `n` within `s` with the input left where the run left it, `s[n..]`. -/
structure RunLaws (s : S) : Prop where
  complete : ∀ ops : List (Op Item), (run (start s) ops).isSome = resetsTaken 1 ops
  suffix : ∀ (ops : List (Op Item)) sess es, run (start s) ops = some (sess, es) →
    Suffix s sess.cursor
  distance : ∀ (ops : List (Op Item)) sess es, run (start s) ops = some (sess, es) →
    ∃ n, RangeStream.distance sess.cursor (RangeStream.checkpoint s) = some n ∧
      n + RangeStream.len S (RangeStream.range sess.cursor) =
        RangeStream.len S (RangeStream.range s)
  stretch : ∀ (pre mid : List (Op Item)) sess₁ sess₂ es₁ es₂,
    run (start s) pre = some (sess₁, es₁) → run sess₁ mid = some (sess₂, es₂) →
    (∀ e ∈ es₂, Event.Clean e) →
    items sess₁.cursor = es₂.flatMap Event.taken ++ items sess₂.cursor
  decode : ∀ {O σ : Type} (parser : CursorParser S Item O (ParseError Err) σ) (ps ps' : σ)
    (r : Option O × Nat) (c : S), decodeMut parser s ps = some (.ok r, c, ps') →
    ∃ sess es, run (start s) (parser.ops s ps) = some (sess, es) ∧ c = sess.cursor ∧
      ∃ k ≤ (items s).length, sess.cursor = drop s k ∧ r.2 = RangeStream.len S (take s k) ∧
        r.2 ≤ RangeStream.len S (RangeStream.range s)

/-- The contract the trait states for `distance`: from a checkpoint of `c`, a successful
`uncons_range(size)` returns a range of length `size` and leaves the cursor at distance
`size`. -/
def DistanceContract (c : S) : Prop :=
  ∀ size r c', RangeStream.unconsRange c size = (.ok r, c') →
    RangeStream.distance c' (RangeStream.checkpoint c) = some size ∧ RangeStream.len S r = size

omit [DecidableEq Err] in
theorem distanceContract [LawfulRangeStream S] (c : S) : DistanceContract c := by
  intro size r c' h
  rcases LawfulRangeStream.unconsRange c size with ⟨k, le, len, h'⟩ | ⟨err, h'⟩ <;>
    rw [h'] at h
  · simp only [Prod.mk.injEq, Except.ok.injEq] at h
    obtain ⟨rfl, rfl⟩ := h
    have := LawfulRangeStream.len_take_add_len_drop c k
    rw [LawfulRangeStream.distance_drop c k le]
    exact ⟨by congr 1; omega, len⟩
  · simp at h

theorem runLaws [LawfulRangeStream S] (s : S) : RunLaws s where
  complete ops := run_isSome (start s) ops
  suffix _ _ _ h := (run_inv (inv_start s) h).cursor
  distance _ _ _ h := by
    obtain ⟨k, -, hk, hd⟩ := run_distance h
    exact ⟨_, hd, hk ▸ LawfulRangeStream.len_take_add_len_drop s k⟩
  stretch _ _ _ _ _ _ _ h clean := run_clean h clean
  decode _ _ _ _ _ h := decodeMut_ok h

end Laws

/-- **The `distance` contract.** For `&str`, `&[T]` and `SliceStream<T>`, bare or in a
`PartialStream`, a successful `uncons_range(size)` from a checkpoint leaves the cursor at
`distance` `size` from it. -/
theorem distance_after_unconsRange :
    (∀ c : Str, DistanceContract c) ∧ (∀ c : PartialStream Str, DistanceContract c) ∧
    (∀ (T : Type) [MemSize T] (c : Slice T), DistanceContract c) ∧
    (∀ (T : Type) [MemSize T] (c : PartialStream (Slice T)), DistanceContract c) ∧
    (∀ (T : Type) [MemSize T] (c : SliceStream T), DistanceContract c) ∧
    (∀ (T : Type) [MemSize T] (c : PartialStream (SliceStream T)), DistanceContract c) :=
  ⟨distanceContract, distanceContract, fun _ _ => distanceContract, fun _ _ => distanceContract,
    fun _ _ => distanceContract, fun _ _ => distanceContract⟩

/-- On `"aé"`, whose `é` takes two bytes, `uncons_range(3)` takes both chars and leaves the
cursor `3` bytes from the checkpoint. -/
theorem distance_after_unconsRange_multibyte :
    RangeStream.distance (⟨3, []⟩ : Str) (RangeStream.checkpoint (⟨0, ['a', 'é']⟩ : Str)) =
        some 3 ∧ RangeStream.len Str ⟨0, ['a', 'é']⟩ = 3 :=
  distance_after_unconsRange.1 ⟨0, ['a', 'é']⟩ 3 ⟨0, ['a', 'é']⟩ ⟨3, []⟩ rfl

/-- **The `Decoder` keeps what the parser left.** For a byte slice at any address, bare or
in a `PartialStream`, once a parse succeeds the tokio `Decoder`'s buffer holds exactly the
bytes that the run of the parser's operations on the buffer left in its cursor: none
lost, none read twice. -/
theorem decoder_keeps_rest :
    (∀ (ptr : Nat) (O σ : Type)
      (parser : CursorParser (Slice UInt8) UInt8 O (ParseError UnexpectedParse) σ)
      (state state' : σ) (src : List UInt8) (opt : Option O) (n : Nat) (c : Slice UInt8),
      decodeMut parser ⟨ptr, src⟩ state = some (.ok (opt, n), c, state') →
      ∃ sess es, run (start (⟨ptr, src⟩ : Slice UInt8)) (parser.ops ⟨ptr, src⟩ state) =
          some (sess, es) ∧
        decoderDecode (fun buf st => decode parser ⟨ptr, buf⟩ st) state src =
          some (.ok opt, state', sess.cursor.data)) ∧
    (∀ (ptr : Nat) (O σ : Type)
      (parser : CursorParser (PartialStream (Slice UInt8)) UInt8 O (ParseError UnexpectedParse) σ)
      (state state' : σ) (src : List UInt8) (opt : Option O) (n : Nat)
      (c : PartialStream (Slice UInt8)),
      decodeMut parser ⟨⟨ptr, src⟩⟩ state = some (.ok (opt, n), c, state') →
      ∃ sess es, run (start (⟨⟨ptr, src⟩⟩ : PartialStream (Slice UInt8)))
          (parser.ops ⟨⟨ptr, src⟩⟩ state) = some (sess, es) ∧
        decoderDecode (fun buf st => decode parser ⟨⟨ptr, buf⟩⟩ st) state src =
          some (.ok opt, state', sess.cursor.inner.data)) :=
  ⟨fun ptr _ _ _ _ _ _ _ _ _ h => decoderDecode_of_decodeMut (fun buf => ⟨ptr, buf⟩)
      (fun _ => rfl) (fun _ _ => List.length_take_of_le) h,
    fun ptr _ _ _ _ _ _ _ _ _ h => decoderDecode_of_decodeMut (fun buf => ⟨⟨ptr, buf⟩⟩)
      (fun _ => rfl) (fun _ _ => List.length_take_of_le) h⟩

/-- On the buffer `[1, 2, 3]`, a parser that takes two bytes by `uncons_range` leaves the
`Decoder` the bytes its run left in the cursor. -/
theorem decoder_keeps_rest_three :
    ∃ sess es, run (start (⟨0, [1, 2, 3]⟩ : Slice UInt8)) [.read (.unconsRange true 2)] =
        some (sess, es) ∧
      decoderDecode (fun buf st => decode
        (⟨fun _ _ => [.read (.unconsRange true 2)], fun _ _ => (.ok (), ())⟩ :
          CursorParser (Slice UInt8) UInt8 Unit (ParseError UnexpectedParse) Unit)
        ⟨0, buf⟩ st) () [1, 2, 3] = some (.ok (some ()), (), sess.cursor.data) :=
  decoder_keeps_rest.1 0 Unit Unit
    ⟨fun _ _ => [.read (.unconsRange true 2)], fun _ _ => (.ok (), ())⟩
    () () [1, 2, 3] (some ()) 2 ⟨2, [3]⟩ rfl

end CombineStream
