import CombineStream.Resume

/-!
# Ranges taken one after another

`uncons_range(a)` followed by `uncons_range(b)` on the cursor it leaves is
`uncons_range(a + b)`: the two ranges are adjacent sub-slices of the input which
together are the one range, and the second call fails, with the same error, exactly
when the one call does. On `&str` this rests on the char boundaries after the first
range being those of the input past its bytes (`isCharBoundary_drop_iff`).
-/

namespace CombineStream

/-- After the first `k` chars, the char boundaries are those of `cs` past their bytes. -/
theorem isCharBoundary_drop_iff (cs : List Char) (k : Nat) {b : Nat} :
    IsCharBoundary (cs.drop k) b ↔ IsCharBoundary cs (utf8Len (cs.take k) + b) := by
  constructor
  · rintro ⟨m, rfl⟩
    exact ⟨k + m, by rw [List.take_add, utf8Len_append]⟩
  · rintro ⟨j, hj⟩
    rcases Nat.le_total k j with le | le
    · have split := congrArg utf8Len (List.take_add cs k (j - k))
      rw [Nat.add_sub_cancel' le, utf8Len_append] at split
      exact ⟨j - k, by omega⟩
    · have split := congrArg utf8Len (List.take_add cs j (k - j))
      rw [Nat.add_sub_cancel' le, utf8Len_append] at split
      exact ⟨0, by rw [List.take_zero, utf8Len_nil]; omega⟩

namespace Str

/-- A successful `uncons_range(a)` took the first `k` chars, whose bytes are `a`. -/
theorem unconsRange_ok {s r c : Str} {a : Nat} (h : s.unconsRange a = some (.ok r, c)) :
    ∃ k ≤ s.chars.length, a = utf8Len (s.chars.take k) ∧ r = s.take k ∧ c = s.drop k := by
  by_cases boundary : IsCharBoundary s.chars a
  · obtain ⟨k, le, rfl⟩ := boundary.exists_le
    rw [unconsRange_of_boundary k rfl] at h
    obtain ⟨hr, rfl⟩ := Prod.mk.inj (Option.some.inj h)
    exact ⟨k, le, rfl, (Except.ok.inj hr).symm, rfl⟩
  · rw [unconsRange_of_not_boundary boundary] at h
    cases h

/-- A failing `uncons_range(a)` met no char boundary at `a`, and left the cursor. -/
theorem unconsRange_error {s c : Str} {a : Nat} {e : StringStreamError}
    (h : s.unconsRange a = some (.error e, c)) :
    ¬ IsCharBoundary s.chars a ∧ e = (if a ≤ s.len then .characterBoundary else .eoi) ∧
      c = s := by
  by_cases boundary : IsCharBoundary s.chars a
  · obtain ⟨k, hk⟩ := boundary
    rw [unconsRange_of_boundary k hk.symm] at h
    cases h
  · rw [unconsRange_of_not_boundary boundary] at h
    obtain ⟨he, rfl⟩ := Prod.mk.inj (Option.some.inj h)
    exact ⟨boundary, (Except.error.inj he).symm, rfl⟩

/-- Two successful `uncons_range` calls take what one takes. -/
theorem unconsRange_add_ok {s r₁ c₁ r₂ c₂ : Str} {a b : Nat}
    (h₁ : s.unconsRange a = some (.ok r₁, c₁))
    (h₂ : c₁.unconsRange b = some (.ok r₂, c₂)) :
    s.unconsRange (a + b) = some (.ok ⟨r₁.ptr, r₁.chars ++ r₂.chars⟩, c₂) ∧
      r₂.ptr = r₁.ptr + a := by
  obtain ⟨k, -, rfl, rfl, rfl⟩ := unconsRange_ok h₁
  obtain ⟨m, -, rfl, rfl, rfl⟩ := unconsRange_ok h₂
  have sum : utf8Len (s.chars.take k) + utf8Len ((s.chars.drop k).take m) =
      utf8Len (s.chars.take (k + m)) := by
    rw [List.take_add, utf8Len_append]
  refine ⟨?_, rfl⟩
  rw [drop_chars, sum, unconsRange_of_boundary (k + m) rfl, drop_drop]
  simp only [take, drop, List.take_add]

/-- When the second `uncons_range` fails, the one call fails with the same error. -/
theorem unconsRange_add_error {s r₁ c₁ : Str} {a b : Nat} {e : StringStreamError}
    (h₁ : s.unconsRange a = some (.ok r₁, c₁))
    (h₂ : c₁.unconsRange b = some (.error e, c₁)) :
    s.unconsRange (a + b) = some (.error e, s) := by
  obtain ⟨k, -, rfl, rfl, rfl⟩ := unconsRange_ok h₁
  obtain ⟨boundary, rfl, -⟩ := unconsRange_error h₂
  have within : utf8Len (s.chars.take k) + b ≤ utf8Len s.chars ↔
      b ≤ utf8Len (s.chars.drop k) := by
    have := utf8Len_take_add_drop s.chars k
    omega
  rw [unconsRange_of_not_boundary (mt (isCharBoundary_drop_iff s.chars k).mpr boundary)]
  simp only [len, drop_chars, within]

end Str

namespace Slice

variable {T : Type} [MemSize T]

theorem unconsRange_ok {s r c : Slice T} {a : Nat} (h : s.unconsRange a = (.ok r, c)) :
    a ≤ s.len ∧ r = s.take a ∧ c = s.drop a := by
  by_cases le : a ≤ s.len
  · rw [unconsRange_of_le le] at h
    obtain ⟨hr, rfl⟩ := Prod.mk.inj h
    exact ⟨le, (Except.ok.inj hr).symm, rfl⟩
  · rw [unconsRange_of_lt (Nat.lt_of_not_le le)] at h
    cases h

theorem unconsRange_add_ok {s r₁ c₁ r₂ c₂ : Slice T} {a b : Nat}
    (h₁ : s.unconsRange a = (.ok r₁, c₁)) (h₂ : c₁.unconsRange b = (.ok r₂, c₂)) :
    s.unconsRange (a + b) = (.ok ⟨r₁.ptr, r₁.data ++ r₂.data⟩, c₂) ∧
      r₂.ptr = r₁.ptr + a * MemSize.size T := by
  obtain ⟨le₁, rfl, rfl⟩ := unconsRange_ok h₁
  obtain ⟨le₂, rfl, rfl⟩ := unconsRange_ok h₂
  rw [len_drop] at le₂
  refine ⟨?_, rfl⟩
  rw [unconsRange_of_le (by omega), drop_drop]
  simp only [take, drop, List.take_add]

theorem unconsRange_add_error {s r₁ c₁ : Slice T} {a b : Nat} {e : UnexpectedParse}
    (h₁ : s.unconsRange a = (.ok r₁, c₁)) (h₂ : c₁.unconsRange b = (.error e, c₁)) :
    s.unconsRange (a + b) = (.error e, s) := by
  obtain ⟨le₁, rfl, rfl⟩ := unconsRange_ok h₁
  by_cases le₂ : b ≤ (s.drop a).len
  · rw [unconsRange_of_le le₂] at h₂
    cases h₂
  · rw [unconsRange_of_lt (Nat.lt_of_not_le le₂)] at h₂
    obtain rfl := Except.error.inj (Prod.mk.inj h₂).1
    rw [len_drop] at le₂
    exact unconsRange_of_lt (by omega)

end Slice

namespace SliceStream

variable {T : Type} [MemSize T]

/-- `uncons_range` of `SliceStream(s)` is that of `s`. -/
theorem unconsRange_slice {s c : SliceStream T} {a : Nat} {r : Except UnexpectedParse (Slice T)}
    (h : s.unconsRange a = (r, c)) : s.slice.unconsRange a = (r, c.slice) := by
  obtain ⟨hr, rfl⟩ := Prod.mk.inj h
  exact Prod.ext hr rfl

theorem unconsRange_add_ok {s c₁ c₂ : SliceStream T} {r₁ r₂ : Slice T} {a b : Nat}
    (h₁ : s.unconsRange a = (.ok r₁, c₁)) (h₂ : c₁.unconsRange b = (.ok r₂, c₂)) :
    s.unconsRange (a + b) = (.ok ⟨r₁.ptr, r₁.data ++ r₂.data⟩, c₂) ∧
      r₂.ptr = r₁.ptr + a * MemSize.size T := by
  obtain ⟨h, ptr⟩ := Slice.unconsRange_add_ok (unconsRange_slice h₁) (unconsRange_slice h₂)
  exact ⟨by rw [unconsRange, h], ptr⟩

theorem unconsRange_add_error {s c₁ : SliceStream T} {r₁ : Slice T} {a b : Nat}
    {e : UnexpectedParse} (h₁ : s.unconsRange a = (.ok r₁, c₁))
    (h₂ : c₁.unconsRange b = (.error e, c₁)) :
    s.unconsRange (a + b) = (.error e, s) := by
  rw [unconsRange, Slice.unconsRange_add_error (unconsRange_slice h₁) (unconsRange_slice h₂)]

end SliceStream

/-- **`uncons_range(a)` then `uncons_range(b)` is `uncons_range(a + b)`.** For `&str`,
`&[T]` and `SliceStream<T>`, after a successful `uncons_range(a)`: when `uncons_range(b)`
on the cursor it leaves succeeds, `uncons_range(a + b)` on the input succeeds, leaves
the same cursor and returns the two ranges joined, the second starting right after the
first (`a` bytes on, for `&str`; `a` items of `size_of::<T>()` bytes on, for slices); and
when it fails, `uncons_range(a + b)` fails with the same error, leaving the input. So the
two calls and the one call take the same input, or fail alike. -/
theorem ranges_compose :
    (∀ (s r₁ c₁ : Str) (a b : Nat), s.unconsRange a = some (.ok r₁, c₁) →
      (∀ r₂ c₂, c₁.unconsRange b = some (.ok r₂, c₂) →
        s.unconsRange (a + b) = some (.ok ⟨r₁.ptr, r₁.chars ++ r₂.chars⟩, c₂) ∧
          r₂.ptr = r₁.ptr + a) ∧
      (∀ e, c₁.unconsRange b = some (.error e, c₁) →
        s.unconsRange (a + b) = some (.error e, s))) ∧
    (∀ (T : Type) [MemSize T] (s r₁ c₁ : Slice T) (a b : Nat),
      s.unconsRange a = (.ok r₁, c₁) →
      (∀ r₂ c₂, c₁.unconsRange b = (.ok r₂, c₂) →
        s.unconsRange (a + b) = (.ok ⟨r₁.ptr, r₁.data ++ r₂.data⟩, c₂) ∧
          r₂.ptr = r₁.ptr + a * MemSize.size T) ∧
      (∀ e, c₁.unconsRange b = (.error e, c₁) → s.unconsRange (a + b) = (.error e, s))) ∧
    (∀ (T : Type) [MemSize T] (s c₁ : SliceStream T) (r₁ : Slice T) (a b : Nat),
      s.unconsRange a = (.ok r₁, c₁) →
      (∀ r₂ c₂, c₁.unconsRange b = (.ok r₂, c₂) →
        s.unconsRange (a + b) = (.ok ⟨r₁.ptr, r₁.data ++ r₂.data⟩, c₂) ∧
          r₂.ptr = r₁.ptr + a * MemSize.size T) ∧
      (∀ e, c₁.unconsRange b = (.error e, c₁) → s.unconsRange (a + b) = (.error e, s))) :=
  ⟨fun _ _ _ _ _ h₁ => ⟨fun _ _ h₂ => Str.unconsRange_add_ok h₁ h₂,
      fun _ h₂ => Str.unconsRange_add_error h₁ h₂⟩,
    fun _ _ _ _ _ _ _ h₁ => ⟨fun _ _ h₂ => Slice.unconsRange_add_ok h₁ h₂,
      fun _ h₂ => Slice.unconsRange_add_error h₁ h₂⟩,
    fun _ _ _ _ _ _ _ h₁ => ⟨fun _ _ h₂ => SliceStream.unconsRange_add_ok h₁ h₂,
      fun _ h₂ => SliceStream.unconsRange_add_error h₁ h₂⟩⟩

/-- On `"aéb"`, whose `é` takes two bytes: after `uncons_range(1)` took `a`, the range of
`2` bytes more takes `é`, as `uncons_range(3)` takes `aé`; and `uncons_range(1)` more
splits `é`, so `uncons_range(2)` fails with the same error. -/
theorem ranges_compose_multibyte :
    ((⟨0, ['a', 'é', 'b']⟩ : Str).unconsRange (1 + 2) =
        some (.ok ⟨0, ['a'] ++ ['é']⟩, ⟨3, ['b']⟩) ∧
      (⟨1, ['é']⟩ : Str).ptr = (⟨0, ['a']⟩ : Str).ptr + 1) ∧
    (⟨0, ['a', 'é', 'b']⟩ : Str).unconsRange (1 + 1) =
      some (.error .characterBoundary, ⟨0, ['a', 'é', 'b']⟩) :=
  ⟨(ranges_compose.1 ⟨0, ['a', 'é', 'b']⟩ ⟨0, ['a']⟩ ⟨1, ['é', 'b']⟩ 1 2 rfl).1
      ⟨1, ['é']⟩ ⟨3, ['b']⟩ rfl,
    (ranges_compose.1 ⟨0, ['a', 'é', 'b']⟩ ⟨0, ['a']⟩ ⟨1, ['é', 'b']⟩ 1 1 rfl).2
      .characterBoundary rfl⟩

end CombineStream
