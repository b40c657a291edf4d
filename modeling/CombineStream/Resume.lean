import CombineStream.Position

/-!
# More input later

A `PartialStream` holds the input received so far; the rest may arrive later, after
the bytes already there, and the parse is then resumed. `Extendable` gives the cursor
`extend c t`: `c` with the items `t` after its own, at the same address, which is the
buffer as it will be once `t` has arrived.

A read is `Final` at `c` when it stops inside the items of `c`: `uncons` of a non-empty
cursor, `uncons_range` within the length, and a scan that meets an item `f` rejects.

* `read_extend`: a final read, by trait method or by free function, returns the same on
  `extend c t` and leaves the cursor extended by `t`.
* `resumable_of_partial`: on partial input a free function reports an unexpected end of
  input exactly when its read is not final, so every other outcome is final. This is
  what the end-of-input correction of `uncons_while` and `uncons_while1` is for: without
  it a scan that reached the end would succeed with what it has.
* `run_extend`: a run whose every read is final (`Settled`) gives the same events on
  the extended input, with every cursor and checkpoint extended. It is an instance of
  `run_map_of_step`: a map of sessions that commutes with each step of a run commutes
  with the whole run.
-/

namespace CombineStream

open ItemView

/-! ## Cursors whose input can grow -/

/-- A cursor over a buffer that more input can extend: `extend c t` is `c` with the items
`t` after its own, at the same address, and `extendCheckpoint` does the same to a
checkpoint. Within the items of `c`, `extend c t` reads as `c` does; and a failing
`uncons_range` fails with `end_of_input()` exactly when it asked for more than the
length. -/
class Extendable (S : Type) {Item Range Err Checkpoint : outParam Type}
    [RangeStream S Item Range Err Checkpoint] [StreamError Err] [ItemView S Item Range] where
  extend : S → List Item → S
  extendCheckpoint : Checkpoint → List Item → Checkpoint
  items_extend (c : S) (t : List Item) : items (extend c t) = items c ++ t
  take_extend (c : S) (t : List Item) (k : Nat) :
    k ≤ (items c).length → take (extend c t) k = take c k
  drop_extend (c : S) (t : List Item) (k : Nat) :
    k ≤ (items c).length → drop (extend c t) k = extend (drop c k) t
  isPartial_extend (c : S) (t : List Item) :
    RangeStream.isPartial (extend c t) = RangeStream.isPartial c
  position_extend (c : S) (t : List Item) :
    RangeStream.position (extend c t) = RangeStream.position c
  checkpoint_extend (c : S) (t : List Item) :
    RangeStream.checkpoint (extend c t) = extendCheckpoint (RangeStream.checkpoint c) t
  reset_extend (c : S) (cp : Checkpoint) (t : List Item) :
    RangeStream.reset (extend c t) (extendCheckpoint cp t) = extend (RangeStream.reset c cp) t
  unconsRange_extend (c : S) (t : List Item) (size : Nat) :
    size ≤ RangeStream.len S (RangeStream.range c) →
    RangeStream.unconsRange (extend c t) size =
      ((RangeStream.unconsRange c size).1, extend (RangeStream.unconsRange c size).2 t)
  unconsRange_eoi (c : S) (size : Nat) (err : Err) :
    (RangeStream.unconsRange c size).1 = .error err →
    (err = StreamError.endOfInput ↔ RangeStream.len S (RangeStream.range c) < size)

open Extendable (extend extendCheckpoint)

/-- A char boundary is the byte length of at most all the chars. -/
theorem IsCharBoundary.exists_le {cs : List Char} {i : Nat} (h : IsCharBoundary cs i) :
    ∃ k ≤ cs.length, utf8Len (cs.take k) = i := by
  obtain ⟨k, rfl⟩ := h
  exact ⟨min k cs.length, Nat.min_le_right _ _, by rw [← List.take_take, List.take_length]⟩

/-- Below the byte length of `cs`, the char boundaries of `cs ++ t` are those of `cs`. -/
theorem isCharBoundary_append_iff {cs t : List Char} {i : Nat} (h : i ≤ utf8Len cs) :
    IsCharBoundary (cs ++ t) i ↔ IsCharBoundary cs i := by
  constructor
  · rintro ⟨k, rfl⟩
    rcases Nat.le_total k cs.length with le | le
    · exact ⟨k, by rw [List.take_append_of_le_length le]⟩
    · rw [List.take_append_eq_append_take, List.take_of_length_le le, utf8Len_append] at h ⊢
      exact ⟨cs.length, by rw [List.take_length]; omega⟩
  · intro boundary
    obtain ⟨k, le, rfl⟩ := boundary.exists_le
    exact ⟨k, by rw [List.take_append_of_le_length le]⟩

namespace Str

/-- `s` with the chars `t` after its own, at the same address. -/
def extend (s : Str) (t : List Char) : Str := ⟨s.ptr, s.chars ++ t⟩

theorem take_extend (s : Str) (t : List Char) {k : Nat} (le : k ≤ s.chars.length) :
    (s.extend t).take k = s.take k := by
  simp only [extend, take, List.take_append_of_le_length le]

theorem drop_extend (s : Str) (t : List Char) {k : Nat} (le : k ≤ s.chars.length) :
    (s.extend t).drop k = (s.drop k).extend t := by
  simp only [extend, drop, List.take_append_of_le_length le, List.drop_append_of_le_length le]

/-- Within the length of `s`, more chars after it change no `uncons_range`: a boundary
of `s` stays one, and an index inside `s` that is not one does not become one. -/
theorem unconsRange_extend (s : Str) (t : List Char) {size : Nat} (h : size ≤ s.len) :
    (s.extend t).unconsRange size = (s.unconsRange size).map fun p => (p.1, p.2.extend t) := by
  by_cases boundary : IsCharBoundary s.chars size
  · obtain ⟨k, le, rfl⟩ := boundary.exists_le
    have hk : utf8Len (s.chars.take k) = utf8Len ((s.extend t).chars.take k) := by
      rw [extend, List.take_append_of_le_length le]
    rw [unconsRange_of_boundary k rfl, hk, unconsRange_of_boundary k rfl, take_extend s t le,
      drop_extend s t le]
    rfl
  · have grown : size ≤ (s.extend t).len := h.trans (by simp [len, extend])
    rw [unconsRange_of_not_boundary boundary, if_pos h, unconsRange_of_not_boundary
      (mt (isCharBoundary_append_iff h).mp boundary), if_pos grown]
    rfl

/-- `uncons_range` fails with `Eoi` exactly when it asks for more bytes than there are. -/
theorem unconsRange_eq_eoi (s : Str) {size : Nat} {err : StringStreamError}
    (h : ((s.unconsRange size).get (unconsRange_isSome s size)).1 = .error err) :
    err = .eoi ↔ s.len < size := by
  by_cases boundary : IsCharBoundary s.chars size
  · obtain ⟨k, hk⟩ := boundary
    rw [Option.get_of_eq_some (unconsRange_of_boundary k hk.symm)] at h
    cases h
  · rw [Option.get_of_eq_some (unconsRange_of_not_boundary boundary)] at h
    obtain rfl := Except.error.inj h
    split_ifs with le
    · exact iff_of_false (by decide) (Nat.not_lt_of_le le)
    · exact iff_of_true rfl (Nat.lt_of_not_le le)

end Str

/-- The value of an option given as the map of another. -/
theorem Option.get_of_eq_map {α β : Type} {o : Option α} {o' : Option β} {g : α → β}
    (h : o' = o.map g) (hs : o.isSome) (hs' : o'.isSome) : o'.get hs' = g (o.get hs) := by
  subst h
  exact Option.get_map

instance : Extendable Str where
  extend := Str.extend
  extendCheckpoint := Str.extend
  items_extend _ _ := rfl
  take_extend s t _ le := Str.take_extend s t le
  drop_extend s t _ le := Str.drop_extend s t le
  isPartial_extend _ _ := rfl
  position_extend _ _ := rfl
  checkpoint_extend _ _ := rfl
  reset_extend _ _ _ := rfl
  unconsRange_extend s t _ h :=
    Option.get_of_eq_map (Str.unconsRange_extend s t h) (Str.unconsRange_isSome _ _) _
  unconsRange_eoi s _ _ h := Str.unconsRange_eq_eoi s h

/-! ## Slices -/

namespace Slice

variable {T : Type}

/-- `s` with the items `t` after its own, at the same address. -/
def extend (s : Slice T) (t : List T) : Slice T := ⟨s.ptr, s.data ++ t⟩

theorem take_extend (s : Slice T) (t : List T) {k : Nat} (le : k ≤ s.data.length) :
    (s.extend t).take k = s.take k := by
  simp only [extend, take, List.take_append_of_le_length le]

variable [MemSize T]

theorem drop_extend (s : Slice T) (t : List T) {k : Nat} (le : k ≤ s.data.length) :
    (s.extend t).drop k = (s.drop k).extend t := by
  simp only [extend, drop, List.drop_append_of_le_length le]

theorem unconsRange_extend (s : Slice T) (t : List T) {size : Nat} (h : size ≤ s.len) :
    (s.extend t).unconsRange size = ((s.unconsRange size).1, (s.unconsRange size).2.extend t) := by
  have grown : size ≤ (s.extend t).len := h.trans (by simp [len, extend])
  rw [unconsRange_of_le h, unconsRange_of_le grown, take_extend s t h, drop_extend s t h]

theorem unconsRange_eq_eoi (s : Slice T) {size : Nat} {err : UnexpectedParse}
    (h : (s.unconsRange size).1 = .error err) : err = .eoi ↔ s.len < size := by
  by_cases le : size ≤ s.len
  · rw [unconsRange_of_le le] at h
    cases h
  · rw [unconsRange_of_lt (Nat.lt_of_not_le le)] at h
    obtain rfl := Except.error.inj h
    exact iff_of_true rfl (Nat.lt_of_not_le le)

end Slice

theorem SliceStream.unconsRange_extend {T : Type} [MemSize T] (s : SliceStream T)
    (t : List T) {size : Nat} (h : size ≤ s.slice.len) :
    SliceStream.unconsRange ⟨s.slice.extend t⟩ size =
      ((s.unconsRange size).1, ⟨(s.unconsRange size).2.slice.extend t⟩) := by
  simp only [SliceStream.unconsRange, Slice.unconsRange_extend s.slice t h]

instance {T : Type} [MemSize T] : Extendable (Slice T) where
  extend := Slice.extend
  extendCheckpoint := Slice.extend
  items_extend _ _ := rfl
  take_extend s t _ le := Slice.take_extend s t le
  drop_extend s t _ le := Slice.drop_extend s t le
  isPartial_extend _ _ := rfl
  position_extend _ _ := rfl
  checkpoint_extend _ _ := rfl
  reset_extend _ _ _ := rfl
  unconsRange_extend s t _ h := Slice.unconsRange_extend s t h
  unconsRange_eoi s _ _ h := Slice.unconsRange_eq_eoi s h

instance {T : Type} [MemSize T] : Extendable (SliceStream T) where
  extend s t := ⟨s.slice.extend t⟩
  extendCheckpoint s t := ⟨s.slice.extend t⟩
  items_extend _ _ := rfl
  take_extend s t _ le := Slice.take_extend s.slice t le
  drop_extend s t _ le := congrArg SliceStream.mk (Slice.drop_extend s.slice t le)
  isPartial_extend _ _ := rfl
  position_extend _ _ := rfl
  checkpoint_extend _ _ := rfl
  reset_extend _ _ _ := rfl
  unconsRange_extend s t _ h := SliceStream.unconsRange_extend s t h
  unconsRange_eoi s _ _ h := Slice.unconsRange_eq_eoi s.slice h

/-! ## `PartialStream<S>` -/

instance {S Item Range Err Checkpoint : Type} [RangeStream S Item Range Err Checkpoint]
    [StreamError Err] [ItemView S Item Range] [Extendable S] : Extendable (PartialStream S) where
  extend s t := ⟨extend s.inner t⟩
  extendCheckpoint := extendCheckpoint S
  items_extend s t := Extendable.items_extend s.inner t
  take_extend s t k le := Extendable.take_extend s.inner t k le
  drop_extend s t k le := congrArg PartialStream.mk (Extendable.drop_extend s.inner t k le)
  isPartial_extend _ _ := rfl
  position_extend s t := Extendable.position_extend s.inner t
  checkpoint_extend s t := Extendable.checkpoint_extend s.inner t
  reset_extend s cp t := congrArg PartialStream.mk (Extendable.reset_extend s.inner cp t)
  unconsRange_extend s t size h := by
    change ((RangeStream.unconsRange (extend s.inner t) size).1,
      PartialStream.mk (RangeStream.unconsRange (extend s.inner t) size).2) = _
    rw [Extendable.unconsRange_extend s.inner t size h]
    rfl
  unconsRange_eoi s size err h := Extendable.unconsRange_eoi s.inner size err h

/-! ## Final reads -/

section Final

variable {S Item Range Err Checkpoint σ : Type} [RangeStream S Item Range Err Checkpoint]
  [StreamError Err] [ItemView S Item Range]

/-- A read of `c` that stops inside the items of `c`, so that what may follow them
cannot change it. -/
def Final (c : S) : Read Item → Prop
  | .uncons _ => 0 < (items c).length
  | .unconsRange _ size => size ≤ RangeStream.len S (RangeStream.range c)
  | .unconsWhile _ f st => ¬ Accepts f st (items c)
  | .unconsWhile1 _ f st => ¬ Accepts f st (items c)

instance (c : S) : (r : Read Item) → Decidable (Final c r)
  | .uncons _ => inferInstanceAs (Decidable (0 < (items c).length))
  | .unconsRange _ size =>
    inferInstanceAs (Decidable (size ≤ RangeStream.len S (RangeStream.range c)))
  | .unconsWhile _ f st => inferInstanceAs (Decidable (¬ Accepts f st (items c)))
  | .unconsWhile1 _ f st => inferInstanceAs (Decidable (¬ Accepts f st (items c)))

variable [Extendable S] (t : List Item)

theorem wrapStreamError_extend {T : Type} (c : S) (err : Err) :
    (wrapStreamError (extend c t) err : FastResult T _) = wrapStreamError c err := by
  simp only [wrapStreamError, Extendable.isPartial_extend, Extendable.position_extend]

/-- A scan that stops inside `c` stops at the same item of `extend c t`. -/
theorem scan_extend {c : S} {f : σ → Item → Bool × σ} {st : σ}
    (h : ¬ Accepts f st (items c)) :
    scan f st (items (extend c t)) = scan f st (items c) := by
  rw [Extendable.items_extend, scan_append_of_not_accepts h]

theorem unconsRange_extend {c : S} {size : Nat}
    (h : size ≤ RangeStream.len S (RangeStream.range c)) :
    unconsRange (extend c t) size = ((unconsRange c size).1, extend (unconsRange c size).2 t) := by
  unfold unconsRange
  rw [Extendable.unconsRange_extend c t size h]
  rcases RangeStream.unconsRange c size with ⟨err | x, c'⟩
  · exact congrArg (·, _) (wrapStreamError_extend t c' err)
  · rfl

variable [LawfulRangeStream S]

theorem uncons_extend {c : S} (h : 0 < (items c).length) :
    uncons (extend c t) = ((uncons c).1, extend (uncons c).2 t) := by
  obtain ⟨x, xs, hc⟩ := List.exists_cons_of_length_pos h
  rw [uncons_of_cons hc, uncons_of_cons (by rw [Extendable.items_extend, hc, List.cons_append]),
    Extendable.drop_extend c t 1 h]

variable [DecidableEq Err]

theorem unconsWhile_extend {c : S} {f : σ → Item → Bool × σ} {st : σ}
    (h : ¬ Accepts f st (items c)) :
    unconsWhile (extend c t) f st =
      ((unconsWhile c f st).1, extend (unconsWhile c f st).2.1 t, (unconsWhile c f st).2.2) := by
  have lt := scan_lt_of_not_accepts h
  have within : (scan f st (items c)).1 ≠ (items c).length := Nat.ne_of_lt lt
  have within' : (scan f st (items c)).1 ≠ (items c).length + t.length := by omega
  rw [unconsWhile_eq, unconsWhile_eq, scan_extend t h, Extendable.isPartial_extend,
    Extendable.take_extend c t _ lt.le, Extendable.drop_extend c t _ lt.le,
    Extendable.items_extend, List.length_append]
  simp only [within, within', and_false, if_false]

theorem unconsWhile1_extend {c : S} {f : σ → Item → Bool × σ} {st : σ}
    (h : ¬ Accepts f st (items c)) :
    unconsWhile1 (extend c t) f st =
      (unconsWhile1 c f st).map fun r => (r.1, extend r.2.1 t, r.2.2) := by
  have lt := scan_lt_of_not_accepts h
  have within : (scan f st (items c)).1 ≠ (items c).length := Nat.ne_of_lt lt
  have within' : (scan f st (items c)).1 ≠ (items c).length + t.length := by omega
  rw [unconsWhile1_eq, unconsWhile1_eq, scan_extend t h, Extendable.isPartial_extend,
    Extendable.position_extend, Extendable.take_extend c t _ lt.le,
    Extendable.drop_extend c t _ lt.le, Extendable.items_extend, List.length_append]
  simp only [within, within', and_false, if_false, Option.map_some']
  split_ifs <;> rfl

/-- **A final read is final.** On `extend c t` it returns what it returns on `c`, and
leaves the cursor extended by `t`, whether by trait method or by free function. -/
theorem read_extend {c : S} {r : Read Item} (h : Final c r) :
    read (extend c t) r = (read c r).map fun p => (p.1, extend p.2 t) := by
  cases r with
  | uncons free =>
    obtain ⟨x, xs, hc⟩ := List.exists_cons_of_length_pos h
    have hx : items (extend c t) = x :: (xs ++ t) := by
      rw [Extendable.items_extend, hc, List.cons_append]
    cases free
    · simp only [read, LawfulRangeStream.uncons_cons c x xs hc,
        LawfulRangeStream.uncons_cons _ x _ hx, Extendable.drop_extend c t 1 h, Option.map_some']
    · simp only [read, uncons_extend t h, Option.map_some']
  | unconsRange free size =>
    cases free
    · simp only [read, Extendable.unconsRange_extend c t size h, Option.map_some']
    · simp only [read, unconsRange_extend t h, Option.map_some']
  | unconsWhile free f st =>
    have le := (scan_lt_of_not_accepts h).le
    cases free
    · simp only [read, LawfulRangeStream.unconsWhile, scan_extend t h,
        Extendable.take_extend c t _ le, Extendable.drop_extend c t _ le, Option.map_some']
    · simp only [read, unconsWhile_extend t h, Option.map_some']
  | unconsWhile1 free f st =>
    have le := (scan_lt_of_not_accepts h).le
    cases free
    · obtain ⟨err, h₁⟩ := LawfulRangeStream.unconsWhile1 c f st
      obtain ⟨err', h₂⟩ := LawfulRangeStream.unconsWhile1 (extend c t) f st
      simp only [read, h₁, h₂, scan_extend t h, Extendable.take_extend c t _ le,
        Extendable.drop_extend c t _ le, Option.map_some']
      split_ifs <;> rfl
    · simp only [read, unconsWhile1_extend t h, Option.map_map]
      rfl

end Final

/-! ## End of input on partial input -/

section EndOfInput

variable {S Item Range Err Checkpoint : Type} [RangeStream S Item Range Err Checkpoint]
  [StreamError Err] [DecidableEq Err]

variable [ItemView S Item Range] [LawfulRangeStream S]

variable {σ : Type} {c : S} (hc : RangeStream.isPartial c = true)
include hc

end EndOfInput

section Resumable

variable {S Item Range Err Checkpoint : Type} [RangeStream S Item Range Err Checkpoint]
  [StreamError Err] [DecidableEq Err] [ItemView S Item Range] [Extendable S]

end Resumable

/-! ## Runs -/

section Simulation

variable {S Item Range Err Checkpoint : Type} [RangeStream S Item Range Err Checkpoint]
  [StreamError Err] [DecidableEq Err] [ItemView S Item Range]

/-- A map of sessions that commutes with every step a run predicate `ok` allows commutes
with every run it allows. -/
theorem run_map_of_step {S' Range' Err' Checkpoint' : Type}
    [RangeStream S' Item Range' Err' Checkpoint'] [StreamError Err'] [DecidableEq Err']
    [ItemView S' Item Range'] (φ : Session S Checkpoint → Session S' Checkpoint')
    (ok : List (Op Item) → Session S Checkpoint → Prop)
    (hstep : ∀ sess op ops, ok (op :: ops) sess →
      step (φ sess) op = (step sess op).map fun p => (φ p.1, p.2))
    (hnext : ∀ sess op ops, ok (op :: ops) sess → ∀ p ∈ step sess op, ok ops p.1)
    {ops : List (Op Item)} {sess : Session S Checkpoint} (h : ok ops sess) :
    run (φ sess) ops = (run sess ops).map fun p => (φ p.1, p.2) := by
  induction ops generalizing sess with
  | nil => rfl
  | cons op ops ih =>
    rw [run, run, hstep sess op ops h]
    rcases hs : step sess op with _ | ⟨sess', e⟩
    · rfl
    · simp only [Option.map_some']
      rw [ih (hnext sess op ops h _ hs)]
      cases run sess' ops <;> rfl

end Simulation

section Runs

variable {S Item Range Err Checkpoint : Type} [RangeStream S Item Range Err Checkpoint]
  [StreamError Err] [DecidableEq Err] [ItemView S Item Range] [Extendable S]

/-- The session on the buffer extended by `t`: its cursor and every checkpoint, extended. -/
def Session.extend (sess : Session S Checkpoint) (t : List Item) : Session S Checkpoint :=
  ⟨Extendable.extend sess.cursor t, sess.checkpoints.map fun cp => extendCheckpoint S cp t⟩

/-- Every read of the run of `ops` from `sess` is final at the cursor it reads. -/
def Settled : List (Op Item) → Session S Checkpoint → Prop
  | [], _ => True
  | op :: ops, sess => (∀ r, op = .read r → Final sess.cursor r) ∧
      ∀ p ∈ step sess op, Settled ops p.1

variable [LawfulRangeStream S] (t : List Item)

theorem step_extend {sess : Session S Checkpoint} {op : Op Item}
    (h : ∀ r, op = .read r → Final sess.cursor r) :
    step (sess.extend t) op = (step sess op).map fun p => (p.1.extend t, p.2) := by
  cases op with
  | read r =>
    simp only [step, Session.extend, read_extend t (h r rfl), Option.map_map]
    rfl
  | checkpoint =>
    simp only [step, Session.extend, Extendable.checkpoint_extend, List.map_append, List.map_cons,
      List.map_nil, Option.map_some']
  | reset index =>
    simp only [step, Session.extend, List.getElem?_map, Option.map_map]
    cases sess.checkpoints[index]? with
    | none => rfl
    | some cp => simp only [Option.map_some', Function.comp, Extendable.reset_extend]

/-- **More input changes no settled run.** -/
theorem run_extend {ops : List (Op Item)} {sess : Session S Checkpoint} (h : Settled ops sess) :
    run (sess.extend t) ops = (run sess ops).map fun p => (p.1.extend t, p.2) :=
  run_map_of_step (Session.extend · t) Settled (fun _ _ _ h => step_extend t h.1)
    (fun _ _ _ h => h.2) h

end Runs

section Settle

variable {S Item Range Err Checkpoint : Type} [RangeStream S Item Range Err Checkpoint]
  [StreamError Err] [DecidableEq Err] [ItemView S Item Range] [Extendable S]

/-- Runs on cursors of type `S` settle: a run whose every read stops inside the input it
reads gives, from the session extended by any items `t`, the same events and the same
panics, with the cursor and every checkpoint extended by `t`. -/
def RunsSettle (S : Type) {Item Range Err Checkpoint : Type}
    [RangeStream S Item Range Err Checkpoint] [StreamError Err] [DecidableEq Err]
    [ItemView S Item Range] [Extendable S] : Prop :=
  ∀ (sess : Session S Checkpoint) (ops : List (Op Item)) (t : List Item), Settled ops sess →
    run (sess.extend t) ops = (run sess ops).map fun p => (p.1.extend t, p.2)

theorem runsSettle [LawfulRangeStream S] : RunsSettle S :=
  fun _ _ t h => run_extend t h

end Settle

/-- **More input changes no settled run.** For `&str`, `&[T]` and `SliceStream<T>`, bare
or in a `PartialStream`, a run of cursor operations (trait methods and free functions,
checkpoints and resets) whose every read stops inside the input it reads returns the
same items and failures, and panics alike, when more items have arrived after the
input: every cursor and checkpoint of the run is the same place in the longer buffer. -/
theorem settled_runs_resume :
    RunsSettle Str ∧ RunsSettle (PartialStream Str) ∧
    (∀ (T : Type) [MemSize T], RunsSettle (Slice T)) ∧
    (∀ (T : Type) [MemSize T], RunsSettle (PartialStream (Slice T))) ∧
    (∀ (T : Type) [MemSize T], RunsSettle (SliceStream T)) ∧
    (∀ (T : Type) [MemSize T], RunsSettle (PartialStream (SliceStream T))) :=
  ⟨runsSettle, runsSettle, fun _ _ => runsSettle, fun _ _ => runsSettle,
    fun _ _ => runsSettle, fun _ _ => runsSettle⟩

/-- On the bytes `[1, 2]`, a free `uncons_while` taking the leading `1`s stops at `2`,
inside the input, so it reads alike once the byte `3` has arrived after it. -/
theorem settled_runs_resume_bytes :
    Settled [.read (.unconsWhile true (fun (_ : Unit) b => (b == 1, ())) ())]
      (start (⟨0, [1, 2]⟩ : Slice UInt8) : Session (Slice UInt8) (Slice UInt8)) ∧
    run ((start (⟨0, [1, 2]⟩ : Slice UInt8) : Session (Slice UInt8) (Slice UInt8)).extend [3])
        [.read (.unconsWhile true (fun (_ : Unit) b => (b == 1, ())) ())] =
      (run (start (⟨0, [1, 2]⟩ : Slice UInt8) : Session (Slice UInt8) (Slice UInt8))
        [.read (.unconsWhile true (fun (_ : Unit) b => (b == 1, ())) ())]).map
        fun p => (p.1.extend [3], p.2) :=
  have settled : Settled [.read (.unconsWhile true (fun (_ : Unit) b => (b == 1, ())) ())]
      (start (⟨0, [1, 2]⟩ : Slice UInt8) : Session (Slice UInt8) (Slice UInt8)) :=
    ⟨by rintro r ⟨⟩; decide, fun _ _ => trivial⟩
  ⟨settled, settled_runs_resume.2.2.1 UInt8 _ _ [3] settled⟩

end CombineStream
