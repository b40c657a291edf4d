import CombineStream.Utf8

/-!
# The text cursor `&str`

A `&str` is the address of its first byte and its chars; its length, its positions
and its distances are counted in bytes. Its cursor methods under their source names,
with `str_uncons_while`, the 8-way unrolled char scan behind `uncons_while` and
`uncons_while1`. A `split_at` off a char boundary and an underflowing byte
subtraction are panics, `none` here.

* `isCharBoundary_iff`: the local `is_char_boundary` byte test is exactly the char
  boundary test, so `unconsRange_eq` never meets a panicking `split_at`.
* `strLoop_eq_plainLoop`: the unrolled loop is the plain scan, and `strUnconsWhile_eq_scan`
  turns where it stops back into the byte offset of a char boundary.
-/

namespace CombineStream

/-- A `&'a str`: the address of its first byte, and its chars. -/
structure Str where
  ptr : Nat
  chars : List Char
  deriving DecidableEq, Repr

namespace Str

/-- `str::len`, in bytes. -/
def len (s : Str) : Nat := utf8Len s.chars

/-- The first `k` chars, at the same address. -/
def take (s : Str) (k : Nat) : Str := ⟨s.ptr, s.chars.take k⟩

/-- The chars after the first `k`, at the address of the byte after them. -/
def drop (s : Str) (k : Nat) : Str := ⟨s.ptr + utf8Len (s.chars.take k), s.chars.drop k⟩

/-- `str::split_at(mid)`, which panics (`none`) unless `mid` is a char boundary. -/
def splitAt (s : Str) (mid : Nat) : Option (Str × Str) :=
  (splitChars s.chars mid).map fun p => (⟨s.ptr, p.1⟩, ⟨s.ptr + mid, p.2⟩)

@[simp] theorem take_chars (s : Str) (k : Nat) : (s.take k).chars = s.chars.take k := rfl

@[simp] theorem drop_chars (s : Str) (k : Nat) : (s.drop k).chars = s.chars.drop k := rfl

@[simp] theorem take_ptr (s : Str) (k : Nat) : (s.take k).ptr = s.ptr := rfl

@[simp] theorem drop_ptr (s : Str) (k : Nat) : (s.drop k).ptr = s.ptr + utf8Len (s.chars.take k) :=
  rfl

@[simp] theorem drop_zero (s : Str) : s.drop 0 = s := by
  simp [drop]

theorem drop_drop (s : Str) (a b : Nat) : (s.drop a).drop b = s.drop (a + b) := by
  simp only [drop, List.drop_drop, Str.mk.injEq, and_true]
  rw [List.take_add, utf8Len_append, Nat.add_assoc]

theorem len_drop (s : Str) (k : Nat) : (s.drop k).len = s.len - utf8Len (s.chars.take k) := by
  have := utf8Len_take_add_drop s.chars k
  simp only [len, drop_chars]
  omega

theorem splitAt_take (s : Str) (k : Nat) :
    s.splitAt (utf8Len (s.chars.take k)) = some (s.take k, s.drop k) := by
  simp [splitAt, splitChars_take, take, drop]

/-! ## `StreamOnce`, `Positioned` and `uncons_range` -/

/-- `<&str as Positioned>::position`: `self.as_bytes().position()`, the address of the
first byte. -/
def position (s : Str) : PointerOffset := ⟨s.ptr⟩

/-- `<&str as StreamOnce>::uncons`: `chars.next()`, then `*self = chars.as_str()`. -/
def uncons (s : Str) : Except StringStreamError Char × Str :=
  match s.chars with
  | [] => (.error .eoi, s)
  | c :: chars => (.ok c, ⟨s.ptr + c.utf8Size, chars⟩)

theorem uncons_cons {s : Str} {c : Char} {chars : List Char} (h : s.chars = c :: chars) :
    s.uncons = (.ok c, s.drop 1) := by
  simp [uncons, drop, h]

/-- `is_char_boundary(s, index)`, the byte test local to `uncons_range`. -/
def isCharBoundary (s : Str) (index : Nat) : Bool :=
  if index = s.len then true
  else
    match (asBytes s.chars)[index]? with
    | none => false
    | some b => b < 128 || b ≥ 192

/-- `<&str as RangeStreamOnce>::uncons_range`. -/
def unconsRange (s : Str) (size : Nat) : Option (Except StringStreamError Str × Str) :=
  if size ≤ s.len then
    if isCharBoundary s size then (s.splitAt size).map fun p => (.ok p.1, p.2)
    else some (.error .characterBoundary, s)
  else some (.error .eoi, s)

/-- `<&str as RangeStreamOnce>::distance`: `self.position().0 - end.position().0`. -/
def distance (s checkpoint : Str) : Option Nat := usizeSub s.position.addr checkpoint.position.addr

theorem isContByte_iff (b : UInt8) : (b < 128 || b ≥ 192) = true ↔ ¬ IsContByte b := by
  simp only [Bool.or_eq_true, decide_eq_true_eq, IsContByte, UInt8.lt_def, UInt8.le_def,
    BitVec.lt_def, BitVec.le_def]
  show b.toNat < 128 ∨ 192 ≤ b.toNat ↔ ¬(128 ≤ b.toNat ∧ b.toNat < 192)
  omega

/-- The local byte test is the char boundary test, for every index of every string. -/
theorem isCharBoundary_iff (s : Str) (index : Nat) :
    s.isCharBoundary index = true ↔ IsCharBoundary s.chars index := by
  unfold isCharBoundary
  split
  · exact ⟨fun _ => ⟨s.chars.length, by simp [*, len]⟩, fun _ => rfl⟩
  · rename_i ne
    split
    · rename_i none
      simp only [Bool.false_eq_true, false_iff]
      intro boundary
      have := boundary.le
      rw [List.getElem?_eq_none_iff, length_asBytes] at none
      exact ne (by simp only [len]; omega)
    · rename_i b some
      rw [isContByte_iff, not_isContByte_asBytes_iff s.chars some]

theorem unconsRange_of_boundary {s : Str} {size : Nat} (k : Nat)
    (hk : size = utf8Len (s.chars.take k)) :
    s.unconsRange size = some (.ok (s.take k), s.drop k) := by
  have boundary : IsCharBoundary s.chars size := ⟨k, hk.symm⟩
  rw [unconsRange, if_pos (show size ≤ s.len from boundary.le),
    if_pos ((isCharBoundary_iff s size).mpr boundary), hk, splitAt_take]
  rfl

theorem unconsRange_of_not_boundary {s : Str} {size : Nat} (h : ¬ IsCharBoundary s.chars size) :
    s.unconsRange size =
      some (.error (if size ≤ s.len then .characterBoundary else .eoi), s) := by
  rw [unconsRange]
  split
  · rw [if_neg (mt (isCharBoundary_iff s size).mp h)]
  · rfl

/-- `uncons_range` never panics. -/
theorem unconsRange_isSome (s : Str) (size : Nat) : (s.unconsRange size).isSome := by
  by_cases h : IsCharBoundary s.chars size
  · obtain ⟨k, hk⟩ := h
    rw [unconsRange_of_boundary k hk.symm]; rfl
  · rw [unconsRange_of_not_boundary h]; rfl

/-- **`uncons_range` on `&str`.** It returns `Ok(s[..size])` and leaves `s[size..]`
exactly when `size` is the byte length of a prefix of the chars; `Err(Eoi)` when
`size > len`, and `Err(CharacterBoundary)` otherwise, both leaving the cursor as it
was. It never panics: its byte test agrees with the char boundaries of every string. -/
theorem unconsRange_eq (s : Str) (size : Nat) :
    (∀ k, size = utf8Len (s.chars.take k) →
      s.unconsRange size = some (.ok (s.take k), s.drop k)) ∧
    (s.len < size → s.unconsRange size = some (.error .eoi, s)) ∧
    (size ≤ s.len → ¬ IsCharBoundary s.chars size →
      s.unconsRange size = some (.error .characterBoundary, s)) ∧
    (s.isCharBoundary size = true ↔ IsCharBoundary s.chars size) := by
  refine ⟨unconsRange_of_boundary, fun h => ?_, fun h hb => ?_, isCharBoundary_iff s size⟩
  · rw [unconsRange, if_neg (Nat.not_le_of_lt h)]
  · rw [unconsRange_of_not_boundary hb, if_pos h]

end Str

/-! ## `str_uncons_while` -/

section UnconsWhile

variable {σ : Type} (f : σ → Char → Bool × σ)

/-- `test_next!()` expanded `k` times: `exit (chars, last_char_size, st)` when `chars`
runs out (`last_char_size` still `0`) or `f` rejects the char it yields, which
`chars` has already passed; `pass (chars, st)` when `f` accepts all `k` chars. -/
def testNexts : Nat → List Char → σ → Block (List Char × Nat × σ) (List Char × σ)
  | 0, chars, st => .pass (chars, st)
  | _ + 1, [], st => .exit ([], 0, st)
  | k + 1, c :: chars, st =>
    match f st c with
    | (false, st) => .exit (chars, c.utf8Size, st)
    | (true, st) => testNexts k chars st

theorem testNexts_pass {k : Nat} {chars chars' : List Char} {st st' : σ}
    (h : testNexts f k chars st = .pass (chars', st')) : chars'.length + k = chars.length := by
  induction k generalizing chars st with
  | zero => cases h; rfl
  | succ k ih =>
    rcases chars with _ | ⟨c, chars⟩
    · cases h
    · simp only [testNexts] at h
      split at h
      · cases h
      · exact congrArg Nat.succ (ih h)

/-- `loop { test_next!() × 8 }`: the chars left in `chars`, `last_char_size` and the
closure's state. -/
def strLoop (chars : List Char) (st : σ) : List Char × Nat × σ :=
  match _h : testNexts f 8 chars st with
  | .exit r => r
  | .pass (chars', st') => strLoop chars' st'
termination_by chars.length
decreasing_by have := testNexts_pass f _h; omega

/-- The loop one `test_next!()` at a time, without its unrolling. -/
def plainLoop : List Char → σ → List Char × Nat × σ
  | [], st => ([], 0, st)
  | c :: chars, st =>
    match f st c with
    | (false, st) => (chars, c.utf8Size, st)
    | (true, st) => plainLoop chars st

/-- `str_uncons_while(slice, chars, f)`: the run up to where the scan of `chars`
stopped, split off `slice` at byte `slice.len() - chars.as_str().len() -
last_char_size`; `none` when a subtraction underflows or `split_at` panics. -/
def strUnconsWhile (slice : Str) (chars : List Char) (st : σ) : Option (Str × Str × σ) :=
  match strLoop f chars st with
  | (rest, lastCharSize, st) =>
    match usizeSub slice.len (utf8Len rest) with
    | none => none
    | some len =>
      match usizeSub len lastCharSize with
      | none => none
      | some len =>
        match slice.splitAt len with
        | none => none
        | some (result, rest) => some (result, rest, st)

variable {f}

/-- A block of `k` tests is `k` rounds of the plain loop. -/
theorem testNexts_spec (k : Nat) (chars : List Char) (st : σ) :
    match testNexts f k chars st with
    | .exit r => plainLoop f chars st = r
    | .pass (chars', st') => plainLoop f chars st = plainLoop f chars' st' := by
  induction k generalizing chars st with
  | zero => rfl
  | succ k ih =>
    rcases chars with _ | ⟨c, chars⟩
    · rfl
    · simp only [testNexts, plainLoop]
      rcases f st c with ⟨_ | _, st'⟩
      · rfl
      · exact ih chars st'

theorem strLoop_eq_plainLoop (chars : List Char) (st : σ) :
    strLoop f chars st = plainLoop f chars st := by
  induction chars, st using strLoop.induct f with
  | case1 chars st r h =>
    have spec := testNexts_spec (f := f) 8 chars st
    rw [h] at spec
    rw [strLoop, h]
    exact spec.symm
  | case2 chars st chars' st' h ih =>
    have spec := testNexts_spec (f := f) 8 chars st
    rw [h] at spec
    rw [strLoop, h]
    exact ih.trans spec.symm

/-- The plain loop stops after the run `f` accepts and the char it rejects. -/
theorem plainLoop_eq_scan (chars : List Char) (st : σ) :
    plainLoop f chars st =
      (chars.drop ((scan f st chars).1 + 1), utf8Len ((chars.drop (scan f st chars).1).take 1),
        (scan f st chars).2) := by
  induction chars generalizing st with
  | nil => rfl
  | cons c chars ih =>
    rcases hf : f st c with ⟨_ | _, st'⟩
    · simp [plainLoop, hf, scan_cons_of_reject chars hf]
    · simp [plainLoop, hf, scan_cons_of_accept chars hf, ih]

/-- Started after the first `k` chars of `s`, `str_uncons_while` returns those chars
and the run `f` accepts after them, as a byte-exact sub-slice of `s`. -/
theorem strUnconsWhile_eq (s : Str) (k : Nat) (st : σ) :
    strUnconsWhile f s (s.chars.drop k) st =
      some (s.take (k + (scan f st (s.chars.drop k)).1),
        s.drop (k + (scan f st (s.chars.drop k)).1), (scan f st (s.chars.drop k)).2) := by
  generalize hn : (scan f st (s.chars.drop k)).1 = n
  have whole : utf8Len s.chars = utf8Len (s.chars.take (k + n)) +
      utf8Len (((s.chars.drop k).drop n).take 1) + utf8Len ((s.chars.drop k).drop (n + 1)) := by
    have front := utf8Len_take_add_drop s.chars (k + n)
    have next := utf8Len_take_add_drop ((s.chars.drop k).drop n) 1
    simp only [List.drop_drop, Nat.add_assoc] at front next ⊢
    omega
  simp only [strUnconsWhile, strLoop_eq_plainLoop, plainLoop_eq_scan, hn, Str.len,
    usizeSub_of_le (show utf8Len ((s.chars.drop k).drop (n + 1)) ≤ utf8Len s.chars by omega),
    usizeSub_of_le (show utf8Len (((s.chars.drop k).drop n).take 1) ≤
      utf8Len s.chars - utf8Len ((s.chars.drop k).drop (n + 1)) by omega),
    show utf8Len s.chars - utf8Len ((s.chars.drop k).drop (n + 1)) -
      utf8Len (((s.chars.drop k).drop n).take 1) = utf8Len (s.chars.take (k + n)) by omega,
    Str.splitAt_take]

end UnconsWhile

namespace Str

variable {σ : Type}

/-- `<&str as RangeStreamOnce>::uncons_while`: `Ok(str_uncons_while(self, self.chars(), f))`. -/
def unconsWhile (s : Str) (f : σ → Char → Bool × σ) (st : σ) :
    Option (Except StringStreamError Str × Str × σ) :=
  match strUnconsWhile f s s.chars st with
  | none => none
  | some (result, rest, st) => some (.ok result, rest, st)

/-- `<&str as RangeStreamOnce>::uncons_while1`: `EmptyErr` unless `f` accepts the first
char; then `str_uncons_while` with `chars` already past it. -/
def unconsWhile1 (s : Str) (f : σ → Char → Bool × σ) (st : σ) :
    Option (FastResult Str StringStreamError × Str × σ) :=
  match s.chars with
  | [] => some (.emptyErr .unexpectedParse, s, st)
  | c :: chars =>
    match f st c with
    | (false, st) => some (.emptyErr .unexpectedParse, s, st)
    | (true, st) =>
      match strUnconsWhile f s chars st with
      | none => none
      | some (result, rest, st) => some (.consumedOk result, rest, st)

/-- `uncons_while` takes the run `f` accepts. -/
theorem unconsWhile_eq (s : Str) (f : σ → Char → Bool × σ) (st : σ) :
    s.unconsWhile f st =
      some (.ok (s.take (scan f st s.chars).1), s.drop (scan f st s.chars).1,
        (scan f st s.chars).2) := by
  have := strUnconsWhile_eq (f := f) s 0 st
  simp only [List.drop_zero, Nat.zero_add] at this
  simp [unconsWhile, this]

/-- `uncons_while1` takes the run `f` accepts when it is not empty, and otherwise fails
without moving. -/
theorem unconsWhile1_eq (s : Str) (f : σ → Char → Bool × σ) (st : σ) :
    s.unconsWhile1 f st =
      some (if (scan f st s.chars).1 = 0 then (.emptyErr .unexpectedParse, s, (scan f st s.chars).2)
        else (.consumedOk (s.take (scan f st s.chars).1), s.drop (scan f st s.chars).1,
          (scan f st s.chars).2)) := by
  rcases s with ⟨ptr, _ | ⟨c, chars⟩⟩
  · rfl
  · rcases hf : f st c with ⟨_ | _, st'⟩
    · simp [unconsWhile1, hf, scan_cons_of_reject chars hf]
    · have := strUnconsWhile_eq (f := f) ⟨ptr, c :: chars⟩ 1 st'
      simp only [List.drop_succ_cons, List.drop_zero] at this
      simp [unconsWhile1, hf, scan_cons_of_accept chars hf, this, Nat.add_comm 1]

end Str

/-- **`str_uncons_while` is `take_while` over chars.** Called on `s` with `chars` past
the first `k ≤` (number of chars) chars, it returns those `k` chars followed by the
longest run of chars `f` accepts after them, leaves the rest, and has called `f`, in
order, on that run and on the first char it rejects; the byte split index never
underflows and is a char boundary, so `split_at` never panics. Hence `uncons_while`
(`k = 0`) and `uncons_while1` (`k = 1`, once `f` accepts the first char) take exactly
the run `f` accepts, as a sub-slice of `s`. -/
theorem strUnconsWhile_eq_scan {σ : Type} (s : Str) (f : σ → Char → Bool × σ) (st : σ) :
    (∀ k ≤ s.chars.length, strUnconsWhile f s (s.chars.drop k) st =
      some (s.take (k + (scan f st (s.chars.drop k)).1),
        s.drop (k + (scan f st (s.chars.drop k)).1),
        feed f st ((s.chars.drop k).take ((scan f st (s.chars.drop k)).1 + 1)))) ∧
    s.unconsWhile f st =
      some (.ok (s.take (scan f st s.chars).1), s.drop (scan f st s.chars).1,
        (scan f st s.chars).2) ∧
    s.unconsWhile1 f st =
      some (if (scan f st s.chars).1 = 0 then (.emptyErr .unexpectedParse, s, (scan f st s.chars).2)
        else (.consumedOk (s.take (scan f st s.chars).1), s.drop (scan f st s.chars).1,
          (scan f st s.chars).2)) :=
  ⟨fun k _ => by rw [strUnconsWhile_eq s k, ← scan_snd], Str.unconsWhile_eq s f st,
    Str.unconsWhile1_eq s f st⟩

end CombineStream
