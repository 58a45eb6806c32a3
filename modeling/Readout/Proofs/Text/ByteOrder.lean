/-!
# Texts in byte order

Texts are compared character by character, which is the order of their UTF-8 bytes
(`bytes_lt_iff`). The first byte of a character tells how many follow it and grows with their
number, and characters of one length are encoded in digits of six bits, the leading ones first.
-/

namespace Readout.Text

/-- The bytes of a text in UTF-8. -/
def bytes (s : String) : List UInt8 := s.toList.flatMap String.utf8EncodeChar

/-- A code point and its bytes: digits of six bits behind a first one, of which the range tells how
many there are. -/
inductive Encodes : Nat → List UInt8 → Prop
  | one {a : Nat} : a < 128 → Encodes a [.ofNat a]
  | two {a b : Nat} : 2 ≤ a → a < 32 → b < 64 →
      Encodes (a * 64 + b) [.ofNat (a + 192), .ofNat (b + 128)]
  | three {a b c : Nat} : 32 ≤ a * 64 + b → a < 16 → b < 64 → c < 64 →
      Encodes ((a * 64 + b) * 64 + c) [.ofNat (a + 224), .ofNat (b + 128), .ofNat (c + 128)]
  | four {a b c d : Nat} : 16 ≤ a * 64 + b → a < 8 → b < 64 → c < 64 → d < 64 →
      Encodes (((a * 64 + b) * 64 + c) * 64 + d)
        [.ofNat (a + 240), .ofNat (b + 128), .ofNat (c + 128), .ofNat (d + 128)]

theorem encodes_utf8EncodeChar (c : Char) :
    Encodes c.val.toNat (String.utf8EncodeChar c) := by
  have hlt : c.val.toNat < 2 ^ 21 := by
    rcases c.valid with h | ⟨-, h⟩ <;> omega
  unfold String.utf8EncodeChar
  generalize c.val.toNat = v at hlt
  simp only
  split
  · exact .one (by omega)
  · split
    · have h := Encodes.two (a := v / 64) (b := v % 64) (by omega) (by omega) (by omega)
      have hfirst : v / 64 % 32 = v / 64 := by omega
      rwa [show v / 64 * 64 + v % 64 = v by omega, ← hfirst] at h
    · split
      · have h := Encodes.three (a := v / 4096) (b := v / 64 % 64) (c := v % 64)
          (by omega) (by omega) (by omega) (by omega)
        have hfirst : v / 4096 % 16 = v / 4096 := by omega
        rwa [show (v / 4096 * 64 + v / 64 % 64) * 64 + v % 64 = v by omega, ← hfirst] at h
      · have h := Encodes.four (a := v / 262144) (b := v / 4096 % 64) (c := v / 64 % 64)
          (d := v % 64) (by omega) (by omega) (by omega) (by omega) (by omega)
        have hfirst : v / 262144 % 8 = v / 262144 := by omega
        rwa [show ((v / 262144 * 64 + v / 4096 % 64) * 64 + v / 64 % 64) * 64 + v % 64 = v by omega,
          ← hfirst] at h

theorem ofNat_lt_ofNat_iff {m n : Nat} (hm : m < 256) (hn : n < 256) :
    UInt8.ofNat m < UInt8.ofNat n ↔ m < n := by
  rw [UInt8.lt_iff_toNat_lt, UInt8.toNat_ofNat', UInt8.toNat_ofNat', Nat.mod_eq_of_lt hm,
    Nat.mod_eq_of_lt hn]

theorem ofNat_eq_ofNat_iff {m n : Nat} (hm : m < 256) (hn : n < 256) :
    UInt8.ofNat m = UInt8.ofNat n ↔ m = n := by
  rw [← UInt8.toNat_inj, UInt8.toNat_ofNat', UInt8.toNat_ofNat', Nat.mod_eq_of_lt hm,
    Nat.mod_eq_of_lt hn]

/-- The smaller of two code points has the smaller bytes, whatever stands behind them. -/
theorem Encodes.append_lt {v w : Nat} {p q : List UInt8} (hp : Encodes v p) (hq : Encodes w q)
    (h : v < w) (l r : List UInt8) : p ++ l < q ++ r := by
  cases hp <;> cases hq <;>
    simp (disch := omega) only [List.cons_append, List.nil_append, List.cons_lt_cons_iff,
      ofNat_lt_ofNat_iff, ofNat_eq_ofNat_iff] <;>
    omega

theorem Encodes.ne_nil {v : Nat} {p : List UInt8} (h : Encodes v p) : p ≠ [] := by
  cases h <;> exact List.cons_ne_nil _ _

theorem utf8EncodeChar_append_lt_iff {c d : Char} {l r : List UInt8} :
    String.utf8EncodeChar c ++ l < String.utf8EncodeChar d ++ r ↔ c < d ∨ c = d ∧ l < r := by
  have hc := encodes_utf8EncodeChar c
  have hd := encodes_utf8EncodeChar d
  rcases Nat.lt_trichotomy c.val.toNat d.val.toNat with hlt | heq | hgt
  · exact iff_of_true (hc.append_lt hd hlt l r) (.inl hlt)
  · obtain rfl : c = d := Char.ext (UInt32.toNat_inj.mp heq)
    have hfront (p : List UInt8) : p ++ l < p ++ r ↔ l < r := by
      induction p with
      | nil => rfl
      | cons b p ih => simp [ih]
    simp [hfront]
  · have hne : c ≠ d := by
      rintro rfl
      exact Nat.lt_irrefl _ hgt
    refine iff_of_false (List.lt_asymm (hd.append_lt hc hgt r l)) ?_
    rintro (hlt | ⟨heq, -⟩)
    · exact Nat.lt_asymm hgt hlt
    · exact hne heq

/-- The order of the bytes is the order of the texts. -/
theorem bytes_lt_iff {s t : String} : bytes s < bytes t ↔ s < t := by
  rw [String.lt_iff, bytes, bytes]
  generalize s.toList = l
  generalize t.toList = r
  induction l generalizing r with
  | nil =>
    cases r with
    | nil => exact iff_of_false (List.lt_irrefl _) (List.lt_irrefl _)
    | cons d r =>
      obtain ⟨b, bs, hb⟩ := List.exists_cons_of_ne_nil (encodes_utf8EncodeChar d).ne_nil
      rw [List.flatMap_nil, List.flatMap_cons, hb]
      exact iff_of_true (List.nil_lt_cons _ _) (List.nil_lt_cons _ _)
  | cons c l ih =>
    cases r with
    | nil => exact iff_of_false (List.not_lt_nil _) (List.not_lt_nil _)
    | cons d r =>
      rw [List.flatMap_cons, List.flatMap_cons, utf8EncodeChar_append_lt_iff, ih,
        List.cons_lt_cons_iff]

end Readout.Text
