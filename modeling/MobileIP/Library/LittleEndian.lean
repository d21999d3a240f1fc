import Mathlib.Algebra.Group.Nat.Defs
import Mathlib.Data.List.Basic
import Mathlib.Tactic.Common

/-! Little-endian words in byte memory. A structure that is laid over a byte
buffer is read field by field with `byteAt`, `u16At`, `u32At` and `u64At`, and
written as the concatenation of its fields' bytes. -/
namespace LittleEndian

abbrev Bytes := List UInt8

def le16 (x : UInt16) : Bytes :=
  [UInt8.ofNat x.toNat, UInt8.ofNat (x.toNat/256)]

def le32 (x : UInt32) : Bytes :=
  le16 (UInt16.ofNat x.toNat) ++ le16 (UInt16.ofNat (x.toNat/65536))

def le64 (x : UInt64) : Bytes :=
  le32 (UInt32.ofNat x.toNat) ++ le32 (UInt32.ofNat (x.toNat/4294967296))

/-- A read past the end of the buffer gives zero. -/
def byteAt (d : Bytes) (i : ℕ) : UInt8 := d.getD i 0

def u16At (d : Bytes) (i : ℕ) : UInt16 :=
  UInt16.ofNat ((byteAt d i).toNat+256*(byteAt d (i+1)).toNat)

def u32At (d : Bytes) (i : ℕ) : UInt32 :=
  UInt32.ofNat ((u16At d i).toNat+65536*(u16At d (i+2)).toNat)

def u64At (d : Bytes) (i : ℕ) : UInt64 :=
  UInt64.ofNat ((u32At d i).toNat+4294967296*(u32At d (i+4)).toNat)

@[simp] theorem byteAt_cons_zero (a : UInt8) (d : Bytes) : byteAt (a :: d) 0 = a := rfl

@[simp] theorem byteAt_cons_succ (a : UInt8) (d : Bytes) (i : ℕ) :
    byteAt (a :: d) (i+1) = byteAt d i := rfl

theorem byteAt_of_length_le (d : Bytes) (i : ℕ) (h : d.length ≤ i) : byteAt d i = 0 := by
  rw [byteAt, List.getD_eq_getElem?_getD, List.getElem?_eq_none h]
  rfl

/-- What is written behind the first `n` bytes does not show in them. -/
theorem byteAt_take_append (d e : Bytes) (n i : ℕ) (hi : i < n) (hn : n ≤ d.length) :
    byteAt (d.take n ++ e) i = byteAt d i := by
  have hlen : i < (d.take n).length := by
    rw [List.length_take]
    omega
  rw [byteAt, byteAt, List.getD_eq_getElem?_getD, List.getD_eq_getElem?_getD,
    List.getElem?_append_left hlen, List.getElem?_take_of_lt hi]

@[simp] theorem u16At_cons_succ (a : UInt8) (d : Bytes) (i : ℕ) :
    u16At (a :: d) (i+1) = u16At d i := rfl

@[simp] theorem u32At_cons_succ (a : UInt8) (d : Bytes) (i : ℕ) :
    u32At (a :: d) (i+1) = u32At d i := rfl

@[simp] theorem u64At_cons_succ (a : UInt8) (d : Bytes) (i : ℕ) :
    u64At (a :: d) (i+1) = u64At d i := rfl

@[simp] theorem byteAt_le16_append (x : UInt16) (d : Bytes) (i : ℕ) :
    byteAt (le16 x ++ d) (i+2) = byteAt d i := rfl

@[simp] theorem u16At_le16_append (x : UInt16) (d : Bytes) (i : ℕ) :
    u16At (le16 x ++ d) (i+2) = u16At d i := rfl

@[simp] theorem u32At_le16_append (x : UInt16) (d : Bytes) (i : ℕ) :
    u32At (le16 x ++ d) (i+2) = u32At d i := rfl

@[simp] theorem u16At_le32_append (x : UInt32) (d : Bytes) (i : ℕ) :
    u16At (le32 x ++ d) (i+4) = u16At d i := rfl

@[simp] theorem u32At_le32_append (x : UInt32) (d : Bytes) (i : ℕ) :
    u32At (le32 x ++ d) (i+4) = u32At d i := rfl

@[simp] theorem u64At_le16_append (x : UInt16) (d : Bytes) (i : ℕ) :
    u64At (le16 x ++ d) (i+2) = u64At d i := rfl

@[simp] theorem u64At_le32_append (x : UInt32) (d : Bytes) (i : ℕ) :
    u64At (le32 x ++ d) (i+4) = u64At d i := rfl

@[simp] theorem u16At_le16 (x : UInt16) (d : Bytes) : u16At (le16 x ++ d) 0 = x := by
  -- the two bytes are the remainder and the quotient by 256
  have hx : x.toNat < 65536 := x.toNat_lt
  apply UInt16.toNat_inj.mp
  simp only [u16At, le16, List.cons_append, List.nil_append, byteAt_cons_zero, byteAt_cons_succ,
    UInt8.toNat_ofNat', UInt16.toNat_ofNat']
  omega

@[simp] theorem u32At_le32 (x : UInt32) (d : Bytes) : u32At (le32 x ++ d) 0 = x := by
  have hx : x.toNat < 4294967296 := x.toNat_lt
  have hhi : u16At (le32 x ++ d) 2 = UInt16.ofNat (x.toNat/65536) := by
    rw [le32, List.append_assoc, u16At_le16_append _ _ 0]
    exact u16At_le16 _ _
  apply UInt32.toNat_inj.mp
  rw [u32At, hhi, le32, List.append_assoc, u16At_le16]
  simp only [UInt16.toNat_ofNat', UInt32.toNat_ofNat']
  omega

@[simp] theorem u64At_le64 (x : UInt64) (d : Bytes) : u64At (le64 x ++ d) 0 = x := by
  have hx : x.toNat < 18446744073709551616 := x.toNat_lt
  have hhi : u32At (le64 x ++ d) 4 = UInt32.ofNat (x.toNat/4294967296) := by
    rw [le64, List.append_assoc, u32At_le32_append _ _ 0]
    exact u32At_le32 _ _
  apply UInt64.toNat_inj.mp
  rw [u64At, hhi, le64, List.append_assoc, u32At_le32]
  simp only [UInt32.toNat_ofNat', UInt64.toNat_ofNat']
  omega

/-- The bytes that were read as a halfword. -/
theorem le16_u16At (d : Bytes) (i : ℕ) : le16 (u16At d i) = [byteAt d i, byteAt d (i+1)] := by
  have hlo : (byteAt d i).toNat < 256 := UInt8.toNat_lt _
  have hhi : (byteAt d (i+1)).toNat < 256 := UInt8.toNat_lt _
  unfold le16 u16At
  rw [UInt16.toNat_ofNat']
  congr 1
  · apply UInt8.toNat_inj.mp
    rw [UInt8.toNat_ofNat']
    omega
  · congr 1
    apply UInt8.toNat_inj.mp
    rw [UInt8.toNat_ofNat']
    omega

theorem le32_u32At (d : Bytes) (i : ℕ) :
    le32 (u32At d i) = [byteAt d i, byteAt d (i+1), byteAt d (i+2), byteAt d (i+3)] := by
  have hlo : (u16At d i).toNat < 65536 := UInt16.toNat_lt _
  have hhi : (u16At d (i+2)).toNat < 65536 := UInt16.toNat_lt _
  have h1 : UInt16.ofNat (u32At d i).toNat = u16At d i := by
    apply UInt16.toNat_inj.mp
    unfold u32At
    rw [UInt16.toNat_ofNat', UInt32.toNat_ofNat']
    omega
  have h2 : UInt16.ofNat ((u32At d i).toNat/65536) = u16At d (i+2) := by
    apply UInt16.toNat_inj.mp
    unfold u32At
    rw [UInt16.toNat_ofNat', UInt32.toNat_ofNat']
    omega
  unfold le32
  rw [h1, h2, le16_u16At, le16_u16At]
  rfl

/-- Two numbers that agree above and below a bit differ by that bit. -/
theorem eq_of_bit (n m k : ℕ) (hdiv : m/2^(k+1) = n/2^(k+1)) (hmod : m%2^k = n%2^k) :
    m+2^k*(n/2^k%2) = n+2^k*(m/2^k%2) := by
  have hn := Nat.div_add_mod n (2^k)
  have hm := Nat.div_add_mod m (2^k)
  have hnq := Nat.div_add_mod (n/2^k) 2
  have hmq := Nat.div_add_mod (m/2^k) 2
  rw [Nat.div_div_eq_div_mul, ← Nat.pow_succ] at hnq hmq
  rw [hdiv] at hmq
  have hbits : m/2^k+n/2^k%2 = n/2^k+m/2^k%2 := by
    generalize n/2^(k+1) = x at hnq hmq
    generalize n/2^k = y at hnq ⊢
    generalize m/2^k = z at hmq ⊢
    omega
  calc m+2^k*(n/2^k%2) = 2^k*(m/2^k)+n%2^k+2^k*(n/2^k%2) := by rw [← hmod, hm]
    _ = 2^k*(m/2^k+n/2^k%2)+n%2^k := by rw [Nat.mul_add]; omega
    _ = 2^k*(n/2^k+m/2^k%2)+n%2^k := by rw [hbits]
    _ = n+2^k*(m/2^k%2) := by rw [Nat.mul_add]; omega

/-- Setting a flag. -/
theorem or_two_pow (n k : ℕ) : (n ||| 2^k)+2^k*(n/2^k%2) = n+2^k := by
  have hdiv : (n ||| 2^k)/2^(k+1) = n/2^(k+1) := by
    rw [Nat.or_div_two_pow, Nat.div_eq_of_lt (Nat.pow_lt_pow_succ (by decide)), Nat.or_zero]
  have hmod : (n ||| 2^k)%2^k = n%2^k := by
    rw [Nat.or_mod_two_pow, Nat.mod_self, Nat.or_zero]
  have hbit : (n ||| 2^k)/2^k%2 = 1 := by
    have hlow := Nat.or_mod_two_pow (a := n/2^k) (b := 1) (n := 1)
    rw [Nat.pow_one] at hlow
    rw [Nat.or_div_two_pow, Nat.div_self (Nat.two_pow_pos k), hlow]
    rcases Nat.mod_two_eq_zero_or_one (n/2^k) with h0 | h1
    · rw [h0]
      rfl
    · rw [h1]
      rfl
  have heq := eq_of_bit n (n ||| 2^k) k hdiv hmod
  rw [hbit, Nat.mul_one] at heq
  exact heq

/-- Clearing a flag with a mask that has all other bits. -/
theorem and_clear (n mask k : ℕ) (hdiv : n/2^(k+1) &&& mask/2^(k+1) = n/2^(k+1))
    (hmod : n%2^k &&& mask%2^k = n%2^k) (hbit : mask/2^k%2 = 0) :
    (n &&& mask)+2^k*(n/2^k%2) = n := by
  have hbit' : (n &&& mask)/2^k%2 = 0 := by
    have hlow := Nat.and_mod_two_pow (a := n/2^k) (b := mask/2^k) (n := 1)
    rw [Nat.pow_one] at hlow
    rw [Nat.and_div_two_pow, hlow, hbit, Nat.and_zero]
  have heq := eq_of_bit n (n &&& mask) k (by rw [Nat.and_div_two_pow, hdiv])
    (by rw [Nat.and_mod_two_pow, hmod])
  rw [hbit', Nat.mul_zero, Nat.add_zero] at heq
  exact heq

/-- The two bytes of a halfword in the other order. -/
def swap16 (x : UInt16) : UInt16 := UInt16.ofNat (x.toNat%256*256+x.toNat/256)

def swap32 (x : UInt32) : UInt32 :=
  UInt32.ofNat ((swap16 (UInt16.ofNat x.toNat)).toNat*65536+
    (swap16 (UInt16.ofNat (x.toNat/65536))).toNat)

theorem toNat_swap16 (x : UInt16) : (swap16 x).toNat = x.toNat%256*256+x.toNat/256 := by
  have hx : x.toNat < 65536 := x.toNat_lt
  simp only [swap16, UInt16.toNat_ofNat']
  omega

@[simp] theorem swap16_swap16 (x : UInt16) : swap16 (swap16 x) = x := by
  have hx : x.toNat < 65536 := x.toNat_lt
  apply UInt16.toNat_inj.mp
  rw [toNat_swap16, toNat_swap16]
  omega

/-- The halfword `r` after `k` decrements that are all made on its other byte order. -/
def countdown16 (r : UInt16) (k : ℕ) : UInt16 := swap16 (swap16 r-UInt16.ofNat k)

theorem countdown16_zero (r : UInt16) : countdown16 r 0 = r := by
  have hsub : swap16 r-UInt16.ofNat 0 = swap16 r := UInt16.sub_zero _
  rw [countdown16, hsub, swap16_swap16]

theorem countdown16_succ (r : UInt16) (k : ℕ) :
    swap16 (swap16 (countdown16 r k)-1) = countdown16 r (k+1) := by
  have hsub : swap16 r-UInt16.ofNat k-1 = swap16 r-UInt16.ofNat (k+1) := by
    apply UInt16.toNat_inj.mp
    simp only [UInt16.toNat_sub, UInt16.toNat_ofNat', UInt16.toNat_one]
    omega
  rw [countdown16, swap16_swap16, hsub, countdown16]

theorem toNat_swap16_countdown16 (r : UInt16) (k : ℕ) (hk : k ≤ (swap16 r).toNat) :
    (swap16 (countdown16 r k)).toNat = (swap16 r).toNat-k := by
  have hr : (swap16 r).toNat < 65536 := UInt16.toNat_lt _
  rw [countdown16, swap16_swap16]
  simp only [UInt16.toNat_sub, UInt16.toNat_ofNat']
  omega

/-- What `k` such decrements take off: the bytes of `k` in the other order, and one more if
the high byte of `r` had to borrow. -/
def spent16 (r k : ℕ) : ℕ := k%256*256+k/256+if r/256 < k%256 then 1 else 0

theorem spent16_lt (r : UInt16) (k : ℕ) (hk : k ≤ (swap16 r).toNat) : spent16 r.toNat k < 65536 := by
  have hr : r.toNat < 65536 := r.toNat_lt
  rw [toNat_swap16] at hk
  unfold spent16
  split_ifs
  · omega
  · omega

theorem countdown16_eq (r : UInt16) (k : ℕ) (hk : k ≤ (swap16 r).toNat) :
    countdown16 r k = r-UInt16.ofNat (spent16 r.toNat k) := by
  have hr : r.toNat < 65536 := r.toNat_lt
  have hback := toNat_swap16_countdown16 r k hk
  have hspent := spent16_lt r k hk
  rw [toNat_swap16] at hk hback
  rw [toNat_swap16] at hback
  have hc : (countdown16 r k).toNat < 65536 := UInt16.toNat_lt _
  apply UInt16.toNat_inj.mp
  simp only [UInt16.toNat_sub, UInt16.toNat_ofNat']
  rw [Nat.mod_eq_of_lt hspent]
  unfold spent16
  -- the borrow decides which way the high byte wraps
  by_cases hborrow : r.toNat/256 < k%256
  · have hhigh : (countdown16 r k).toNat/256+k%256 = r.toNat/256+256 := by omega
    have hlow : (countdown16 r k).toNat%256+k/256+1 = r.toNat%256 := by omega
    rw [if_pos hborrow]
    omega
  · have hhigh : (countdown16 r k).toNat/256+k%256 = r.toNat/256 := by omega
    have hlow : (countdown16 r k).toNat%256+k/256 = r.toNat%256 := by omega
    rw [if_neg hborrow]
    omega

/-- The decrements take off what they should only if the two bytes of their number agree. -/
theorem spent16_eq_self_iff (r k : ℕ) :
    spent16 r k = k ↔ k%256 = k/256 ∧ k%256 ≤ r/256 := by
  unfold spent16
  split_ifs
  · omega
  · omega

end LittleEndian
