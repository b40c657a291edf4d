import CombineStream.Compose

/-!
# `PartialStream` in place of its input

`PartialStream(s)` forwards every trait method to `s` and only answers `is_partial`
differently, which the free functions read where a scan reaches the end of the input.
So a parser given `PartialStream(s)` in place of `s` reads alike unless it meets that end:

* `read_toPartial`: every read but a free scan that `f` accepts to the end (`Blind`)
  returns on `PartialStream(c)` what it returns on `c`, with the cursor wrapped.
* `run_toPartial`: a run whose reads are all blind (`BlindRun`) gives the same items,
  failures and panics on both, with the cursor wrapped and the same checkpoints; it is
  `read_toPartial` lifted to runs by `run_map_of_step`.
-/

namespace CombineStream

open ItemView

/-! ## Partial input -/

/-- The session of a parser given `PartialStream(s)` in place of `s`: its cursor wrapped,
its checkpoints as they are (the checkpoint of a `PartialStream` is its inner cursor's). -/
def Session.toPartial {S Checkpoint : Type} (sess : Session S Checkpoint) :
    Session (PartialStream S) Checkpoint :=
  ⟨⟨sess.cursor⟩, sess.checkpoints⟩

section Partial

variable {S Item Range Err Checkpoint : Type} [RangeStream S Item Range Err Checkpoint]
  [StreamError Err] [DecidableEq Err] [ItemView S Item Range]

/-- A read of `c` whose outcome does not show whether more input may follow: every read
but a free `uncons_while` or `uncons_while1` whose `f` accepts every item left. -/
def Blind (c : S) : Read Item → Prop
  | .unconsWhile true f st => ¬ Accepts f st (items c)
  | .unconsWhile1 true f st => ¬ Accepts f st (items c)
  | _ => True

instance (c : S) : (r : Read Item) → Decidable (Blind c r)
  | .uncons _ => isTrue trivial
  | .unconsRange _ _ => isTrue trivial
  | .unconsWhile false _ _ => isTrue trivial
  | .unconsWhile true f st => inferInstanceAs (Decidable (¬ Accepts f st (items c)))
  | .unconsWhile1 false _ _ => isTrue trivial
  | .unconsWhile1 true f st => inferInstanceAs (Decidable (¬ Accepts f st (items c)))

/-- Every read of the run of `ops` from `sess` is blind to partial input. -/
def BlindRun : List (Op Item) → Session S Checkpoint → Prop
  | [], _ => True
  | op :: ops, sess => (∀ r, op = .read r → Blind sess.cursor r) ∧
      ∀ p ∈ step sess op, BlindRun ops p.1

variable [LawfulRangeStream S]

/-- A blind read of `PartialStream(c)`, for `c` of complete input, returns what the read
of `c` returns and leaves the cursor wrapped. -/
theorem read_toPartial {c : S} (hc : RangeStream.isPartial c = false) {r : Read Item}
    (h : Blind c r) :
    read (PartialStream.mk c) r = (read c r).map fun p => (p.1, PartialStream.mk p.2) := by
  have agree := partialAgrees_of_complete c hc
  cases r with
  | uncons free =>
    cases free
    · rfl
    · simp only [read, agree.partialUncons, FastResult.ok?_consumeErr, Option.map_some']
  | unconsRange free size =>
    cases free
    · rfl
    · simp only [read, agree.partialUnconsRange, FastResult.ok?_consumeErr, Option.map_some']
      rfl
  | unconsWhile free f st =>
    cases free
    · rfl
    · simp only [read, agree.partialUnconsWhile, if_neg h, Option.map_some']
      rfl
  | unconsWhile1 free f st =>
    cases free
    · rfl
    · simp only [read, agree.partialUnconsWhile1, if_neg h, Option.map_map]
      rfl

theorem step_toPartial {sess : Session S Checkpoint}
    (hc : RangeStream.isPartial sess.cursor = false) {op : Op Item}
    (h : ∀ r, op = .read r → Blind sess.cursor r) :
    step sess.toPartial op = (step sess op).map fun p => (p.1.toPartial, p.2) := by
  cases op with
  | read r =>
    simp only [step, Session.toPartial, read_toPartial hc (h r rfl), Option.map_map]
    rfl
  | checkpoint => rfl
  | reset index =>
    simp only [step, Session.toPartial, Option.map_map]
    cases sess.checkpoints[index]? <;> rfl

/-- On a cursor type whose input is always complete, `PartialStream` changes no blind
run. -/
theorem run_toPartial (hc : ∀ c : S, RangeStream.isPartial c = false)
    {ops : List (Op Item)} {sess : Session S Checkpoint} (h : BlindRun ops sess) :
    run sess.toPartial ops = (run sess ops).map fun p => (p.1.toPartial, p.2) :=
  run_map_of_step Session.toPartial BlindRun (fun sess _ _ h => step_toPartial (hc sess.cursor) h.1)
    (fun _ _ _ h => h.2) h

end Partial

/-- **`PartialStream` changes only the scans that reach the end.** For `&str`, `&[T]` and
`SliceStream<T>`, a run of cursor operations (trait methods and free functions,
checkpoints and resets) on `PartialStream(s)` returns the same items and failures, and
panics alike, as the same run on `s`, with the cursor wrapped and the same checkpoints,
whenever no free `uncons_while` or `uncons_while1` in it has `f` accept every item left:
`PartialStream` forwards every trait method, and the free functions read `is_partial`
only where a scan reaches the end of the input. -/
theorem partial_runs_agree :
    (∀ (sess : Session Str Str) (ops : List (Op Char)), BlindRun ops sess →
      run sess.toPartial ops = (run sess ops).map fun p => (p.1.toPartial, p.2)) ∧
    (∀ (T : Type) [MemSize T] (sess : Session (Slice T) (Slice T)) (ops : List (Op T)),
      BlindRun ops sess →
        run sess.toPartial ops = (run sess ops).map fun p => (p.1.toPartial, p.2)) ∧
    (∀ (T : Type) [MemSize T] (sess : Session (SliceStream T) (SliceStream T))
      (ops : List (Op T)), BlindRun ops sess →
        run sess.toPartial ops = (run sess ops).map fun p => (p.1.toPartial, p.2)) :=
  ⟨fun _ _ => run_toPartial fun _ => rfl, fun _ _ _ _ => run_toPartial fun _ => rfl,
    fun _ _ _ _ => run_toPartial fun _ => rfl⟩

/-- On `"ab"`, a free `uncons_while` taking the leading `a`s stops inside the input, so
`PartialStream("ab")` reads it as `"ab"` does. -/
theorem partial_runs_agree_ab :
    BlindRun [.read (.unconsWhile true (fun (_ : Unit) ch => (ch == 'a', ())) ())]
      (start (⟨0, ['a', 'b']⟩ : Str) : Session Str Str) ∧
    run (start (⟨0, ['a', 'b']⟩ : Str) : Session Str Str).toPartial
        [.read (.unconsWhile true (fun (_ : Unit) ch => (ch == 'a', ())) ())] =
      (run (start (⟨0, ['a', 'b']⟩ : Str) : Session Str Str)
        [.read (.unconsWhile true (fun (_ : Unit) ch => (ch == 'a', ())) ())]).map
        fun p => (p.1.toPartial, p.2) :=
  have blind : BlindRun [.read (.unconsWhile true (fun (_ : Unit) ch => (ch == 'a', ())) ())]
      (start (⟨0, ['a', 'b']⟩ : Str) : Session Str Str) :=
    ⟨by rintro r ⟨⟩; decide, fun _ _ => trivial⟩
  ⟨blind, partial_runs_agree.1 _ _ blind⟩

end CombineStream
