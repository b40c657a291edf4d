import CombineStream.Basic

/-!
# UTF-8 text as chars and as bytes

A `&str` is valid UTF-8, so it is determined by its chars; Lean's `Char` is exactly
a Unicode scalar value. This module relates the two views the stream module mixes:

* `utf8Len cs` is the byte length `str::len`, and `asBytes cs` is `as_bytes()`, the
  chars encoded by `String.utf8EncodeChar`;
* a byte index is a char boundary (`IsCharBoundary`) when it is the byte length of
  a prefix of the chars. `not_isContByte_asBytes_iff` reads the boundaries off the
  bytes alone: the byte at `i` is not a continuation byte `0b10xxxxxx` exactly at
  the boundaries below the length;
* `splitChars` is `str::split_at` on the chars: it splits at a boundary and panics
  (`none`) everywhere else.
-/

namespace CombineStream

/-! ## Byte length -/

/-- The UTF-8 byte length of `cs`: `str::len`. -/
def utf8Len : List Char → Nat
  | [] => 0
  | c :: cs => c.utf8Size + utf8Len cs

@[simp] theorem utf8Len_nil : utf8Len [] = 0 := rfl

@[simp] theorem utf8Len_cons (c : Char) (cs : List Char) :
    utf8Len (c :: cs) = c.utf8Size + utf8Len cs := rfl

@[simp] theorem utf8Len_append (as bs : List Char) :
    utf8Len (as ++ bs) = utf8Len as + utf8Len bs := by
  induction as with
  | nil => simp
  | cons a as ih => simp [ih, Nat.add_assoc]

theorem utf8Len_take_add_drop (cs : List Char) (k : Nat) :
    utf8Len (cs.take k) + utf8Len (cs.drop k) = utf8Len cs := by
  rw [← utf8Len_append, List.take_append_drop]

theorem utf8Len_eq_zero {cs : List Char} : utf8Len cs = 0 ↔ cs = [] := by
  cases cs with
  | nil => simp
  | cons c cs => simp; have := c.utf8Size_pos; omega

/-! ## Bytes -/

/-- `as_bytes()`: the UTF-8 encoding of `cs`. -/
def asBytes (cs : List Char) : List UInt8 := cs.flatMap String.utf8EncodeChar

@[simp] theorem asBytes_cons (c : Char) (cs : List Char) :
    asBytes (c :: cs) = String.utf8EncodeChar c ++ asBytes cs := rfl

@[simp] theorem length_asBytes (cs : List Char) : (asBytes cs).length = utf8Len cs := by
  induction cs with
  | nil => rfl
  | cons c cs ih => simp [ih]

/-- A continuation byte `0b10xxxxxx`, which never starts a char. -/
def IsContByte (b : UInt8) : Prop := 128 ≤ b.toNat ∧ b.toNat < 192

theorem UInt8.toNat_or (a b : UInt8) : (a ||| b).toNat = a.toNat ||| b.toNat :=
  BitVec.toNat_or _ _

/-- Setting bits above the low `i` ones adds them. -/
theorem or_two_pow_mul {y i : Nat} (h : y < 2 ^ i) (a : Nat) :
    y ||| 2 ^ i * a = 2 ^ i * a + y := by
  rw [Nat.or_comm, Nat.mul_add_lt_is_or h]

/-- A byte `x &&& m ||| t`, the low bits of `x` under the tag `t = 2 ^ i * a` above the
mask `m < 2 ^ i`, lies in `t .. t + 2 ^ i`. -/
theorem tagged_byte_bounds (x m t : UInt8) {i a : Nat} (hm : m.toNat < 2 ^ i)
    (ht : t.toNat = 2 ^ i * a) :
    t.toNat ≤ (x &&& m ||| t).toNat ∧ (x &&& m ||| t).toNat < t.toNat + 2 ^ i := by
  have low := Nat.and_lt_two_pow x.toNat hm
  rw [UInt8.toNat_or, UInt8.and_toNat, ht, or_two_pow_mul low]
  omega

theorem isContByte_cont (x : UInt8) : IsContByte (x &&& 0x3f ||| 0x80) :=
  tagged_byte_bounds x 0x3f 0x80 (i := 6) (a := 2) (by decide) (by decide)

/-- A byte tagged `0b110xxxxx` or above starts a char. -/
theorem not_isContByte_tagged (x m t : UInt8) {i a : Nat} (hm : m.toNat < 2 ^ i)
    (ht : t.toNat = 2 ^ i * a) (lead : 192 ≤ t.toNat) : ¬ IsContByte (x &&& m ||| t) :=
  fun h => Nat.lt_irrefl _ (Nat.lt_of_lt_of_le h.2 (lead.trans (tagged_byte_bounds x m t hm ht).1))

theorem not_isContByte_ascii {v : UInt32} (h : v ≤ 0x7f) : ¬ IsContByte v.toUInt8 := by
  have small : v.toNat ≤ 127 := UInt32.toNat_le_of_le (by decide) h
  have byte : v.toUInt8.toNat = v.toNat := UInt8.toNat_ofNat_of_lt (show v.toNat < 256 by omega)
  simp only [IsContByte, byte]
  omega

/-- Every char is encoded as one byte that is not a continuation byte, followed by
continuation bytes only. -/
theorem utf8EncodeChar_eq_cons (c : Char) :
    ∃ b bs, String.utf8EncodeChar c = b :: bs ∧ ¬ IsContByte b ∧
      ∀ b' ∈ bs, IsContByte b' := by
  unfold String.utf8EncodeChar
  dsimp only
  split_ifs with h1 h2 h3
  · exact ⟨_, _, rfl, not_isContByte_ascii h1, by simp⟩
  · exact ⟨_, _, rfl, not_isContByte_tagged _ 0x1f 0xc0 (i := 5) (a := 6) (by decide)
      (by decide) (by decide), by simp [isContByte_cont]⟩
  · exact ⟨_, _, rfl, not_isContByte_tagged _ 0x0f 0xe0 (i := 4) (a := 14) (by decide)
      (by decide) (by decide), by simp [isContByte_cont]⟩
  · exact ⟨_, _, rfl, not_isContByte_tagged _ 0x07 0xf0 (i := 3) (a := 30) (by decide)
      (by decide) (by decide), by simp [isContByte_cont]⟩

/-! ## Char boundaries -/

/-- Byte index `i` is a char boundary of `cs`: the byte length of a prefix of it. -/
def IsCharBoundary (cs : List Char) (i : Nat) : Prop := ∃ k, utf8Len (cs.take k) = i

theorem isCharBoundary_take (cs : List Char) (k : Nat) :
    IsCharBoundary cs (utf8Len (cs.take k)) := ⟨k, rfl⟩

@[simp] theorem isCharBoundary_nil {i : Nat} : IsCharBoundary [] i ↔ i = 0 := by
  simp [IsCharBoundary, eq_comm]

theorem isCharBoundary_cons {c : Char} {cs : List Char} {i : Nat} :
    IsCharBoundary (c :: cs) i ↔
      i = 0 ∨ c.utf8Size ≤ i ∧ IsCharBoundary cs (i - c.utf8Size) := by
  constructor
  · rintro ⟨_ | k, rfl⟩
    · simp
    · exact .inr ⟨by simp, k, by simp⟩
  · rintro (rfl | ⟨le, k, hk⟩)
    · exact ⟨0, rfl⟩
    · exact ⟨k + 1, by simp [hk]; omega⟩

theorem IsCharBoundary.le {cs : List Char} {i : Nat} (h : IsCharBoundary cs i) :
    i ≤ utf8Len cs := by
  obtain ⟨k, rfl⟩ := h
  have := utf8Len_take_add_drop cs k
  omega

/-- The bytes of `cs` show its char boundaries: a byte of it starts a char exactly
when its index is a boundary. -/
theorem not_isContByte_asBytes_iff (cs : List Char) {i : Nat} {b : UInt8}
    (h : (asBytes cs)[i]? = some b) : ¬ IsContByte b ↔ IsCharBoundary cs i := by
  induction cs generalizing i with
  | nil => simp [asBytes] at h
  | cons c cs ih =>
    obtain ⟨b₀, bs, enc, lead, cont⟩ := utf8EncodeChar_eq_cons c
    have size : c.utf8Size = bs.length + 1 := by
      rw [← String.length_utf8EncodeChar, enc, List.length_cons]
    rw [asBytes_cons, enc, List.cons_append] at h
    rw [isCharBoundary_cons, size]
    rcases i with _ | i
    · simp only [List.getElem?_cons_zero, Option.some.injEq] at h
      subst h
      simpa using lead
    · simp only [List.getElem?_cons_succ] at h
      simp only [Nat.add_one_ne_zero, false_or, Nat.add_sub_add_right, Nat.add_le_add_iff_right]
      by_cases within : i < bs.length
      · rw [List.getElem?_append_left within] at h
        simp [cont b (List.getElem?_mem h), Nat.not_le_of_lt within]
      · rw [List.getElem?_append_right (by omega)] at h
        simp [ih h, Nat.le_of_not_lt within]

/-! ## `str::split_at` -/

/-- `str::split_at` on the chars: the chars before and after byte `mid`, or a panic
(`none`) when `mid` is not a char boundary. -/
def splitChars : List Char → Nat → Option (List Char × List Char)
  | [], mid => if mid = 0 then some ([], []) else none
  | c :: cs, mid =>
    if mid = 0 then some ([], c :: cs)
    else if c.utf8Size ≤ mid then
      (splitChars cs (mid - c.utf8Size)).map fun p => (c :: p.1, p.2)
    else none

/-- At the boundary after `k` chars, `split_at` returns the first `k` chars and the rest. -/
theorem splitChars_take (cs : List Char) (k : Nat) :
    splitChars cs (utf8Len (cs.take k)) = some (cs.take k, cs.drop k) := by
  induction cs generalizing k with
  | nil => simp [splitChars]
  | cons c cs ih =>
    rcases k with _ | k
    · simp [splitChars]
    · have := c.utf8Size_pos
      simp [splitChars, ih, Nat.ne_of_gt (Nat.lt_add_right _ this)]

theorem splitChars_eq_some {cs : List Char} {mid : Nat} {p : List Char × List Char}
    (h : splitChars cs mid = some p) :
    ∃ k, mid = utf8Len (cs.take k) ∧ p = (cs.take k, cs.drop k) := by
  induction cs generalizing mid p with
  | nil =>
    simp only [splitChars] at h
    split_ifs at h with zero
    cases h
    exact ⟨0, by simp [zero]⟩
  | cons c cs ih =>
    simp only [splitChars] at h
    split_ifs at h with zero size
    · cases h; exact ⟨0, by simp [zero]⟩
    · obtain ⟨q, hq, rfl⟩ := Option.map_eq_some'.mp h
      obtain ⟨k, hmid, rfl⟩ := ih hq
      exact ⟨k + 1, by simp; omega, by simp⟩

end CombineStream
