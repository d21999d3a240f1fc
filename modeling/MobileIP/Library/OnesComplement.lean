import MobileIP.Library.LittleEndian

/-! One's-complement sums of little-endian halfwords. The double fold of a
32-bit accumulator is the canonical representative of its residue modulo 65535,
with 0 kept apart from 65535. -/
namespace OnesComplement

open LittleEndian

/-- The plain sum of the halfwords of a buffer; a last odd byte is a low byte. -/
def wordSum : Bytes → ℕ
  | a :: b :: d => a.toNat+256*b.toNat+wordSum d
  | [a] => a.toNat
  | [] => 0

/-- Add the carries of a 32-bit sum back into its low halfword, twice. -/
def fold16 (n : ℕ) : ℕ :=
  let s := n%65536+n/65536
  (s+s/65536)%65536

theorem fold16_le (n : ℕ) : fold16 n ≤ 65535 :=
  Nat.le_of_lt_succ (Nat.mod_lt _ (by decide))

theorem fold16_eq (n : ℕ) (hn : n < 4294967296) :
    fold16 n = if n = 0 then 0 else (n-1)%65535+1 := by
  split_ifs with h0
  · subst h0
    rfl
  · have hs : n-1 = 65535*(n/65536)+(n%65536+n/65536-1) := by omega
    have hpos : 1 ≤ n%65536+n/65536 := by omega
    have hle : n%65536+n/65536 ≤ 131070 := by omega
    unfold fold16
    dsimp only
    generalize n%65536+n/65536 = s at hs hpos hle ⊢
    generalize n/65536 = q at hs
    have hmod : (n-1)%65535 = (s-1)%65535 := by rw [hs, Nat.mul_add_mod]
    rw [hmod]
    -- at most one carry is left after the first fold
    rcases Nat.lt_or_ge s 65536 with hlt | hge
    · rw [Nat.div_eq_of_lt hlt]
      omega
    · have h1 : s/65536 = 1 := by omega
      rw [h1]
      omega

theorem fold16_eq_max_iff (n : ℕ) (hn : n < 4294967296) :
    fold16 n = 65535 ↔ 0 < n ∧ 65535 ∣ n := by
  rw [fold16_eq n hn]
  split_ifs with h0
  · simp [h0]
  · omega

theorem fold16_add_fold16 (a b : ℕ) (h : a+b < 4294967296) :
    fold16 (a+fold16 b) = fold16 (a+b) := by
  -- both sides have the same residue, and both vanish only if everything does
  have hb := fold16_eq b (by omega)
  have hle := fold16_le b
  rw [fold16_eq (a+b) h]
  split_ifs at hb with h0
  · subst h0
    rw [hb, fold16_eq _ h]
  · rw [hb, fold16_eq _ (by omega), if_neg (by omega), if_neg (by omega)]
    omega

theorem fold16_add_complement (n : ℕ) (hn : n < 4294901760) :
    fold16 (n+(65535-fold16 n)) = 65535 := by
  have hf := fold16_eq n (by omega)
  have hle := fold16_le n
  rw [fold16_eq_max_iff _ (by omega)]
  split_ifs at hf with h0
  · omega
  · omega

/-- The complement taken over more data verifies a part of it exactly when the
remaining data sums to zero modulo 65535. -/
theorem fold16_complement_part_iff (part rest : ℕ) (hp : 0 < part)
    (h : part+rest < 4294901760) :
    fold16 (part+(65535-fold16 (part+rest))) = 65535 ↔ 65535 ∣ rest := by
  have hf := fold16_eq (part+rest) (by omega)
  have hle := fold16_le (part+rest)
  rw [if_neg (by omega)] at hf
  rw [fold16_eq_max_iff _ (by omega)]
  omega

theorem wordSum_cons_cons (a b : UInt8) (d : Bytes) :
    wordSum (a :: b :: d) = a.toNat+256*b.toNat+wordSum d := rfl

theorem wordSum_append_le16 (x : UInt16) (d : Bytes) :
    wordSum (le16 x ++ d) = x.toNat+wordSum d := by
  have hx : x.toNat < 65536 := x.toNat_lt
  simp only [le16, List.cons_append, List.nil_append, wordSum_cons_cons, UInt8.toNat_ofNat']
  omega

theorem wordSum_append (a d : Bytes) (ha : a.length%2 = 0) :
    wordSum (a ++ d) = wordSum a+wordSum d := by
  induction a using wordSum.induct with
  | case1 b c a ih =>
    have hl : a.length%2 = 0 := by
      simp only [List.length_cons] at ha
      omega
    simp only [List.cons_append, wordSum_cons_cons, ih hl]
    omega
  | case2 b => simp at ha
  | case3 => simp [wordSum]

theorem wordSum_le (d : Bytes) : wordSum d ≤ 65535*((d.length+1)/2) := by
  induction d using wordSum.induct with
  | case1 b c a ih =>
    have hb : b.toNat < 256 := b.toNat_lt
    have hc : c.toNat < 256 := c.toNat_lt
    simp only [wordSum_cons_cons, List.length_cons]
    omega
  | case2 b =>
    have hb : b.toNat < 256 := b.toNat_lt
    simp only [wordSum, List.length_cons, List.length_nil]
    omega
  | case3 => simp [wordSum]

end OnesComplement
