import MobileIP.Forwarding

/-! `IPFragmenter`: a packet that is longer than the MTU leaves as fragments, of which the
first keeps all options and the later ones only those that are marked to be copied. -/
namespace MobileIP

open LittleEndian OnesComplement

def ipDf : UInt16 := 0x4000

def ipMf : UInt16 := 0x2000

/-- The configuration; `configure` refuses an MTU below 8, and the element compares it as a
signed integer. -/
structure IPFragmenter where
  mtu : ℕ
  honorDf : Bool
  mtu_ge : 8 ≤ mtu
  mtu_lt : mtu < 2147483648

namespace IPFragmenter

/-- The first loop of `optcopy`. Every turn consumes at least one byte, so the number of
option bytes is enough fuel. -/
def copiedOptions : ℕ → Bytes → Bytes
  | 0, _ => []
  | _+1, [] => []
  | fuel+1, o :: rest =>
    let oin := o :: rest
    let len := (byteAt oin 1).toNat
    if o = 1 then copiedOptions fuel rest
    else if o = 0 ∨ oin.length = 1 ∨ len < 2 ∨ oin.length < len then []
    else (if o &&& 0x80 ≠ 0 then oin.take len else []) ++ copiedOptions fuel (oin.drop len)

def optcopy (opts : Bytes) : Bytes :=
  let oout := copiedOptions opts.length opts
  oout ++ List.replicate ((4-oout.length%4)%4) 0

/-- What is common to the fragments of a packet: its header as the first fragment carries it,
the options of the later ones, and its payload. -/
structure Source where
  ip : ClickIp
  opts : Bytes
  payload : Bytes
  inDlen : ℕ
  hadMf : Bool
  anno : IPAddress

/-- The fragment that carries `outDlen` bytes from `off` on. -/
def later (s : Source) (off outDlen : ℕ) : Packet :=
  let outHlen := sizeofClickIp+s.opts.length
  let ipOff := htons (ntohs s.ip.ipOff+UInt16.ofNat (off/8))
  let qip := { s.ip with
    ipHl := BitVec.ofNat 4 (outHlen/4)
    ipOff := if s.inDlen ≤ outDlen+off ∧ s.hadMf = false then ipOff &&& ~~~htons ipMf else ipOff
    ipLen := htons (UInt16.ofNat (outHlen+outDlen)) }
  { data := (qip.resum s.opts).toBytes ++ (s.opts ++ (s.payload.drop off).take outDlen)
    dstIpAnno := s.anno }

/-- The loop over the remaining fragments; every turn moves on by at least one byte. -/
def fragmentLoop (mtu : ℕ) (s : Source) : ℕ → ℕ → List Packet
  | 0, _ => []
  | fuel+1, off =>
    if off < s.inDlen then
      let outDlen := (mtu-(sizeofClickIp+s.opts.length))/8*8
      let outDlen := if s.inDlen < outDlen+off then s.inDlen-off else outDlen
      later s off outDlen :: fragmentLoop mtu s fuel (off+outDlen)
    else []

/-- If the DF bit is cheated, the `ip_id` is not trusted either: it is drawn. -/
def cheatDf (random : UInt16) (ip : ClickIp) : ClickIp :=
  if ip.ipOff &&& htons ipDf ≠ 0 then
    { ip with ipId := random, ipOff := ip.ipOff &&& ~~~htons ipDf }
  else ip

def firstHeader (ip : ClickIp) (opts : Bytes) (len : ℕ) : ClickIp :=
  ClickIp.resum { ip with
    ipLen := htons (UInt16.ofNat len)
    ipOff := ip.ipOff ||| htons ipMf } opts

def firstDlen (f : IPFragmenter) (p : Packet) : ℕ := (f.mtu-headerLength p)/8*8

/-- The header of the packet after the first fragment has been prepared. -/
def preparedIp (f : IPFragmenter) (random : UInt16) (p : Packet) : ClickIp :=
  firstHeader (cheatDf random (ipHeader p)) (ipOptions p) (headerLength p+firstDlen f p)

def first (f : IPFragmenter) (random : UInt16) (p : Packet) : Packet :=
  { p with
    data := (p.setHeader (preparedIp f random p)).data.take (headerLength p+firstDlen f p) }

def source (f : IPFragmenter) (random : UInt16) (p : Packet) : Source where
  ip := preparedIp f random p
  opts := optcopy (ipOptions p)
  payload := ipPayload p
  inDlen := (ntohs (ipHeader p).ipLen).toNat-headerLength p
  hadMf := (cheatDf random (ipHeader p)).ipOff &&& htons ipMf != 0
  anno := p.dstIpAnno

def fragment (f : IPFragmenter) (random : UInt16) (p : Packet) : List Action :=
  if ((ipHeader p).ipOff &&& htons ipDf ≠ 0 ∧ f.honorDf = true) ∨ firstDlen f p < 8 then
    [.forward 1 p]
  else
    let s := source f random p
    .emit 0 (first f random p) ::
      ((fragmentLoop f.mtu s s.inDlen (firstDlen f p)).map (.emit 0) ++ [.kill])

def push (f : IPFragmenter) (random : UInt16) (p : Packet) : List Action :=
  if p.data.length ≤ f.mtu then [.forward 0 p] else fragment f random p

end IPFragmenter

/-- The offset of a fragment in bytes, and the flags, in a header's word `ip_off`. -/
def fragOffset (p : Packet) : ℕ := 8*((ntohs (ipHeader p).ipOff).toNat%8192)

def moreFragments (p : Packet) : Bool := (ntohs (ipHeader p).ipOff).toNat/8192%2 == 1

def dontFragment (p : Packet) : Bool := (ntohs (ipHeader p).ipOff).toNat/16384%2 == 1

theorem and_flag_iff (x mask : UInt16) (k : ℕ) (hmask : mask.toNat = 2^k) :
    x &&& mask ≠ 0 ↔ x.toNat/2^k%2 = 1 := by
  rw [Ne, ← UInt16.toNat_inj, UInt16.toNat_and, hmask, UInt16.toNat_zero]
  constructor
  · intro hne
    by_contra hbit
    apply hne
    apply Nat.eq_of_testBit_eq
    intro i
    rw [Nat.testBit_and, Nat.testBit_two_pow, Nat.zero_testBit]
    by_cases hi : k = i
    · subst hi
      rw [Nat.testBit_eq_decide_div_mod_eq, decide_eq_false hbit, Bool.false_and]
    · rw [decide_eq_false hi, Bool.and_false]
  · intro hbit hzero
    have htest : (x.toNat &&& 2^k).testBit k = true := by
      rw [Nat.testBit_and, Nat.testBit_two_pow_self, Nat.testBit_eq_decide_div_mod_eq,
        decide_eq_true hbit]
      rfl
    rw [hzero, Nat.zero_testBit] at htest
    cases htest

theorem toNat_ntohs (x : UInt16) : (ntohs x).toNat = x.toNat%256*256+x.toNat/256 := toNat_swap16 x

/-- The flags stand in the low byte of the raw word. -/
theorem ntohs_div (x : UInt16) (k : ℕ) : (ntohs x).toNat/(256*2^k) = x.toNat%256/2^k := by
  have hhi : x.toNat/256 < 256 := by
    have := x.toNat_lt
    omega
  rw [toNat_ntohs, ← Nat.div_div_eq_div_mul]
  congr 1
  omega

theorem htons_flags : (htons ipDf).toNat = 2^6 ∧ (htons ipMf).toNat = 2^5 := by decide

theorem and_df_iff (x : UInt16) : x &&& htons ipDf ≠ 0 ↔ (ntohs x).toNat/16384%2 = 1 := by
  have hdiv := ntohs_div x 6
  rw [and_flag_iff x _ 6 htons_flags.1]
  omega

theorem and_mf_iff (x : UInt16) : x &&& htons ipMf ≠ 0 ↔ (ntohs x).toNat/8192%2 = 1 := by
  have hdiv := ntohs_div x 5
  rw [and_flag_iff x _ 5 htons_flags.2]
  omega

theorem ntohs_set_mf (x : UInt16) :
    (ntohs (x ||| htons ipMf)).toNat+8192*((ntohs x).toNat/8192%2) = (ntohs x).toNat+8192 := by
  have hx : x.toNat < 65536 := x.toNat_lt
  have hor := or_two_pow x.toNat 5
  have hy : (x ||| htons ipMf).toNat = x.toNat ||| 2^5 := by
    rw [UInt16.toNat_or, htons_flags.2]
  rw [← hy] at hor
  have hdiv := ntohs_div x 5
  rw [show 8192 = 256*2^5 from rfl, hdiv, toNat_ntohs, toNat_ntohs]
  generalize (x ||| htons ipMf).toNat = y at hor ⊢
  have hhi : y/256 = x.toNat/256 := by omega
  have hlo : y%256+32*(x.toNat%256/32%2) = x.toNat%256+32 := by omega
  rw [hhi]
  omega

theorem toNat_clear_flag (x : UInt16) (k : ℕ) (hk : k = 5 ∨ k = 6) (mask : UInt16)
    (hmask : mask.toNat = 2^k) : (x &&& ~~~mask).toNat+2^k*(x.toNat/2^k%2) = x.toNat := by
  have hx : x.toNat < 65536 := x.toNat_lt
  have hnot : (~~~mask).toNat = 65535-2^k := by
    rw [UInt16.toNat_not, hmask]
    rfl
  rw [UInt16.toNat_and, hnot]
  apply and_clear
  · rcases hk with rfl | rfl
    · rw [show (65535-2^5)/2^(5+1) = 2^10-1 from rfl, Nat.and_two_pow_sub_one_eq_mod]
      omega
    · rw [show (65535-2^6)/2^(6+1) = 2^9-1 from rfl, Nat.and_two_pow_sub_one_eq_mod]
      omega
  · rcases hk with rfl | rfl
    · rw [show (65535-2^5)%2^5 = 2^5-1 from rfl, Nat.and_two_pow_sub_one_eq_mod]
      omega
    · rw [show (65535-2^6)%2^6 = 2^6-1 from rfl, Nat.and_two_pow_sub_one_eq_mod]
      omega
  · rcases hk with rfl | rfl
    · rfl
    · rfl

/-- A flag that is cleared in network order takes its weight from the number. -/
theorem ntohs_clear_flag (x : UInt16) (k : ℕ) (hk : k = 5 ∨ k = 6) (mask : UInt16)
    (hmask : mask.toNat = 2^k) :
    (ntohs (x &&& ~~~mask)).toNat+256*2^k*((ntohs x).toNat/(256*2^k)%2) = (ntohs x).toNat := by
  have hx : x.toNat < 65536 := x.toNat_lt
  have hclear := toNat_clear_flag x k hk mask hmask
  rw [ntohs_div x k, toNat_ntohs, toNat_ntohs]
  generalize (x &&& ~~~mask).toNat = y at hclear ⊢
  rcases hk with rfl | rfl
  · have hhi : y/256 = x.toNat/256 := by omega
    have hlo : y%256+32*(x.toNat%256/32%2) = x.toNat%256 := by omega
    rw [hhi]
    omega
  · have hhi : y/256 = x.toNat/256 := by omega
    have hlo : y%256+64*(x.toNat%256/64%2) = x.toNat%256 := by omega
    rw [hhi]
    omega

namespace IPFragmenter

theorem length_copiedOptions (fuel : ℕ) (opts : Bytes) :
    (copiedOptions fuel opts).length ≤ opts.length := by
  induction fuel generalizing opts with
  | zero => exact Nat.zero_le _
  | succ fuel ih =>
    cases opts with
    | nil => exact Nat.le_refl 0
    | cons o rest =>
      unfold copiedOptions
      dsimp only
      split_ifs with h1 h2 h3
      · exact Nat.le_succ_of_le (ih rest)
      · exact Nat.zero_le _
      all_goals
        have hle := ih ((o :: rest).drop (byteAt (o :: rest) 1).toNat)
        rw [List.length_drop] at hle
        push Not at h2
        simp only [List.length_append, List.length_take, List.length_nil]
        omega

/-- The copied options fill whole words and need no more room than the options did. -/
theorem length_optcopy (opts : Bytes) (h : opts.length%4 = 0) :
    (optcopy opts).length%4 = 0 ∧ (optcopy opts).length ≤ opts.length := by
  have hle := length_copiedOptions opts.length opts
  unfold optcopy
  dsimp only
  rw [List.length_append, List.length_replicate]
  generalize (copiedOptions opts.length opts).length = n at hle ⊢
  omega

/-- The packet `q` is the fragment of `p` that starts at byte `off` of the payload. -/
structure FragmentOf (f : IPFragmenter) (random : UInt16) (p q : Packet) (off : ℕ) (last : Bool) :
    Prop where
  checked : Checked q
  size : q.data.length ≤ f.mtu
  nonempty : ipPayload q ≠ []
  aligned : last = false → (ipPayload q).length%8 = 0
  offset : fragOffset q = fragOffset p+off
  more : moreFragments q = (!last || moreFragments p)
  fragmentable : dontFragment q = false
  addresses : (ipHeader q).ipSrc = (ipHeader p).ipSrc ∧ (ipHeader q).ipDst = (ipHeader p).ipDst ∧
    q.dstIpAnno = p.dstIpAnno
  protocol : (ipHeader q).ipP = (ipHeader p).ipP ∧ (ipHeader q).ipTos = (ipHeader p).ipTos ∧
    (ipHeader q).ipTtl = (ipHeader p).ipTtl
  id : (ipHeader q).ipId = if dontFragment p then random else (ipHeader p).ipId

/-- The fragments `qs` carry the payload of `p` from `off` on. -/
def Continues (f : IPFragmenter) (random : UInt16) (p : Packet) : ℕ → List Packet → Prop
  | off, [] => off = (ipPayload p).length
  | off, q :: qs => FragmentOf f random p q off qs.isEmpty ∧
      ipPayload q = ((ipPayload p).drop off).take (ipPayload q).length ∧
      Continues f random p (off+(ipPayload q).length) qs

variable {f : IPFragmenter} {random : UInt16} {p : Packet}

theorem Continues.flatten {off : ℕ} {qs : List Packet} (h : Continues f random p off qs) :
    (qs.map ipPayload).flatten = (ipPayload p).drop off := by
  induction qs generalizing off with
  | nil =>
    have hoff : off = (ipPayload p).length := h
    rw [hoff, List.drop_length]
    rfl
  | cons q qs ih =>
    obtain ⟨-, hq, hrest⟩ := h
    rw [List.map_cons, List.flatten_cons, ih hrest, ← List.drop_drop]
    conv_lhs =>
      lhs
      rw [hq]
    exact List.take_append_drop _ _

theorem Continues.split {off : ℕ} {pre post : List Packet} {q : Packet}
    (h : Continues f random p off (pre ++ q :: post)) :
    FragmentOf f random p q (off+(pre.map ipPayload).flatten.length) post.isEmpty := by
  induction pre generalizing off with
  | nil => exact h.1
  | cons x pre ih =>
    have hrest := ih h.2.2
    rw [List.map_cons, List.flatten_cons, List.length_append, ← Nat.add_assoc]
    exact hrest

/-- What the loop of `fragment` has to know about the common part. -/
structure SourceOf (f : IPFragmenter) (random : UInt16) (p : Packet) (s : Source) : Prop where
  payload : s.payload = ipPayload p
  inDlen : s.inDlen = (ipPayload p).length
  words : s.opts.length%4 = 0
  opts_le : s.opts.length ≤ 40
  room : 28+s.opts.length ≤ f.mtu
  total : 20+s.opts.length+(ipPayload p).length < 65536
  version : s.ip.ipV = 4
  offset : (ntohs s.ip.ipOff).toNat%8192*8 = fragOffset p
  mf : (ntohs s.ip.ipOff).toNat/8192%2 = 1
  df : (ntohs s.ip.ipOff).toNat/16384%2 = 0
  hadMf : s.hadMf = moreFragments p
  bound : fragOffset p+(ipPayload p).length ≤ 65536
  addresses : s.ip.ipSrc = (ipHeader p).ipSrc ∧ s.ip.ipDst = (ipHeader p).ipDst ∧ s.anno = p.dstIpAnno
  protocol : s.ip.ipP = (ipHeader p).ipP ∧ s.ip.ipTos = (ipHeader p).ipTos ∧ s.ip.ipTtl = (ipHeader p).ipTtl
  id : s.ip.ipId = if dontFragment p then random else (ipHeader p).ipId

/-- The word `ip_off` of a later fragment. -/
theorem later_ipOff {s : Source} (hs : SourceOf f random p s) (off : ℕ) (h8 : off%8 = 0)
    (hlt : off < (ipPayload p).length) (clear : Bool) :
    let h := (ntohs (if clear then htons (ntohs s.ip.ipOff+UInt16.ofNat (off/8)) &&& ~~~htons ipMf
      else htons (ntohs s.ip.ipOff+UInt16.ofNat (off/8)))).toNat
    8*(h%8192) = fragOffset p+off ∧ h/8192%2 = (if clear then 0 else 1) ∧ h/16384%2 = 0 := by
  have hb := hs.bound
  have ho := hs.offset
  have hmf := hs.mf
  have hdf := hs.df
  have hword : (ntohs s.ip.ipOff).toNat < 65536 := UInt16.toNat_lt _
  -- the sum stays within the thirteen bits of the offset
  have hsum : (ntohs s.ip.ipOff+UInt16.ofNat (off/8)).toNat = (ntohs s.ip.ipOff).toNat+off/8 := by
    rw [UInt16.toNat_add, UInt16.toNat_ofNat']
    omega
  dsimp only
  cases clear with
  | false =>
    rw [if_neg Bool.false_ne_true, ntohs_htons, hsum, if_neg Bool.false_ne_true]
    omega
  | true =>
    have hclear := ntohs_clear_flag (htons (ntohs s.ip.ipOff+UInt16.ofNat (off/8))) 5 (Or.inl rfl)
      (htons ipMf) htons_flags.2
    rw [ntohs_htons, hsum] at hclear
    rw [if_pos rfl, if_pos rfl]
    omega

theorem later_spec {s : Source} (hs : SourceOf f random p s) (off outDlen : ℕ) (h8 : off%8 = 0)
    (hpos : 0 < outDlen) (hle : off+outDlen ≤ (ipPayload p).length)
    (hroom : 20+s.opts.length+outDlen ≤ f.mtu) (last : Bool)
    (hlast : last = decide ((ipPayload p).length ≤ off+outDlen))
    (haligned : last = false → outDlen%8 = 0) :
    FragmentOf f random p (later s off outDlen) off last ∧
      ipPayload (later s off outDlen) = ((ipPayload p).drop off).take outDlen ∧
      (ipPayload (later s off outDlen)).length = outDlen := by
  let clear : Bool := decide (s.inDlen ≤ outDlen+off ∧ s.hadMf = false)
  have hw := hs.words
  have h40 := hs.opts_le
  have ht := hs.total
  -- the header before its checksum is filled in
  let qip : ClickIp := { s.ip with
    ipHl := BitVec.ofNat 4 ((sizeofClickIp+s.opts.length)/4)
    ipOff := if clear then htons (ntohs s.ip.ipOff+UInt16.ofNat (off/8)) &&& ~~~htons ipMf
      else htons (ntohs s.ip.ipOff+UInt16.ofNat (off/8))
    ipLen := htons (UInt16.ofNat (sizeofClickIp+s.opts.length+outDlen)) }
  have hq : later s off outDlen =
      ⟨(qip.resum s.opts).toBytes ++ (s.opts ++ (s.payload.drop off).take outDlen), s.anno⟩ := by
    unfold later
    dsimp only [qip, clear]
    simp only [decide_eq_true_eq]
  have hl : 4*(qip.resum s.opts).ipHl.toNat = 20+s.opts.length := by
    change 4*((20+s.opts.length)/4%16) = _
    omega
  obtain ⟨hip, hhl, -, hpay, hlen, htake⟩ :=
    packet_parts (qip.resum s.opts) s.opts ((s.payload.drop off).take outDlen) s.anno hl
  rw [← hq] at hip hhl hpay hlen htake
  have hchunk : ((s.payload.drop off).take outDlen).length = outDlen := by
    rw [List.length_take, List.length_drop, hs.payload]
    omega
  rw [hchunk] at hlen
  rw [hs.payload] at hpay
  obtain ⟨hoff, hmore, hdf⟩ := later_ipOff hs off h8 (by omega) clear
  have hin := hs.inDlen
  refine ⟨⟨⟨?_, ?_, ?_, ?_, ?_⟩, ?_, ?_, ?_, ?_, ?_, ?_, ?_, ?_, ?_⟩, hpay, ?_⟩
  · rw [hip]
    exact hs.version
  · rw [hip]
    omega
  · omega
  · rw [hip, hlen]
    change (ntohs (htons (UInt16.ofNat (20+s.opts.length+outDlen)))).toNat = _
    rw [ntohs_htons, UInt16.toNat_ofNat']
    omega
  · rw [htake]
    exact clickInCksum_resum qip s.opts (by omega)
  · omega
  · intro hnil
    rw [← hs.payload] at hpay
    rw [hnil] at hpay
    rw [← hpay] at hchunk
    simp at hchunk
    omega
  · intro hfalse
    rw [hpay, ← hs.payload, hchunk]
    exact haligned hfalse
  · unfold fragOffset
    rw [hip]
    exact hoff
  · unfold moreFragments
    rw [hip]
    change ((ntohs (if clear then _ else _)).toNat/8192%2 == 1) = _
    rw [hmore]
    change ((if clear then 0 else 1) == 1) = (!last || moreFragments p)
    have hclear : clear = (last && !moreFragments p) := by
      rw [hlast, ← hs.hadMf]
      dsimp only [clear]
      rw [hin, Nat.add_comm outDlen off, Bool.decide_and]
      cases s.hadMf <;> rfl
    rw [hclear]
    cases last <;> cases moreFragments p <;> rfl
  · unfold dontFragment
    rw [hip]
    change ((ntohs (if clear then _ else _)).toNat/16384%2 == 1) = _
    rw [hdf]
    rfl
  · rw [hip, hq]
    exact hs.addresses
  · rw [hip]
    exact hs.protocol
  · rw [hip]
    exact hs.id
  · rw [hpay, ← hs.payload, hchunk]

/-- The loop carries on to the end of the payload. -/
theorem fragmentLoop_spec {s : Source} (hs : SourceOf f random p s) (fuel off : ℕ) (h8 : off%8 = 0)
    (hle : off ≤ (ipPayload p).length) (hfuel : (ipPayload p).length ≤ fuel+off) :
    Continues f random p off (fragmentLoop f.mtu s fuel off) ∧
      ((fragmentLoop f.mtu s fuel off).isEmpty = decide (off = (ipPayload p).length)) := by
  have hin := hs.inDlen
  have hroom := hs.room
  induction fuel generalizing off with
  | zero =>
    have hoff : off = (ipPayload p).length := by omega
    refine ⟨hoff, ?_⟩
    rw [decide_eq_true hoff]
    rfl
  | succ fuel ih =>
    rw [fragmentLoop]
    rcases Nat.eq_or_lt_of_le hle with heq | hlt
    · rw [if_neg (by omega)]
      refine ⟨heq, ?_⟩
      rw [decide_eq_true heq]
      rfl
    · have hlt' : off < s.inDlen := by omega
      rw [if_pos hlt', decide_eq_false (by omega)]
      refine ⟨?_, rfl⟩
      -- a full fragment, or the rest
      let full := (f.mtu-(sizeofClickIp+s.opts.length))/8*8
      let outDlen := if s.inDlen < full+off then s.inDlen-off else full
      have hfull : 8 ≤ full ∧ 20+s.opts.length+full ≤ f.mtu ∧ full%8 = 0 := by
        change 8 ≤ (f.mtu-(20+s.opts.length))/8*8 ∧ 20+s.opts.length+(f.mtu-(20+s.opts.length))/8*8 ≤ f.mtu ∧
          (f.mtu-(20+s.opts.length))/8*8%8 = 0
        omega
      have hout : 0 < outDlen ∧ off+outDlen ≤ (ipPayload p).length ∧ outDlen ≤ full ∧
          (off+outDlen < (ipPayload p).length → outDlen%8 = 0) := by
        dsimp only [outDlen]
        split_ifs with hshort
        · omega
        · omega
      have hspec := later_spec hs off outDlen h8 hout.1 hout.2.1 (by omega) _ rfl (by
        intro hnot
        have hnl := of_decide_eq_false hnot
        exact hout.2.2.2 (by omega))
      obtain ⟨hfrag, hpay, hlen⟩ := hspec
      have h8' : off+outDlen < (ipPayload p).length → (off+outDlen)%8 = 0 := by
        intro hless
        have := hout.2.2.2 hless
        omega
      rcases Nat.eq_or_lt_of_le hout.2.1 with hend | hmore
      · have hnil : fragmentLoop f.mtu s fuel (off+outDlen) = [] := by
          cases fuel with
          | zero => rfl
          | succ fuel =>
            rw [fragmentLoop, if_neg (by omega)]
        change Continues f random p off (later s off outDlen :: fragmentLoop f.mtu s fuel (off+outDlen))
        rw [hnil]
        refine ⟨?_, by rw [hpay, List.length_take, List.length_drop]; congr 1; omega, ?_⟩
        · rw [decide_eq_true (by omega)] at hfrag
          exact hfrag
        · change off+(ipPayload (later s off outDlen)).length = _
          omega
      · have hih := ih (off+outDlen) (h8' hmore) (by omega) (by omega)
        change Continues f random p off (later s off outDlen :: fragmentLoop f.mtu s fuel (off+outDlen))
        refine ⟨?_, by rw [hlen]; exact hpay, ?_⟩
        · rw [hih.2, decide_eq_false (by omega)]
          rw [decide_eq_false (by omega)] at hfrag
          exact hfrag
        · rw [hlen]
          exact hih.1

theorem cheatDf_ipOff (random : UInt16) (ip : ClickIp) :
    (ntohs (cheatDf random ip).ipOff).toNat+16384*((ntohs ip.ipOff).toNat/16384%2) =
      (ntohs ip.ipOff).toNat := by
  unfold cheatDf
  split_ifs with hdf
  · exact ntohs_clear_flag ip.ipOff 6 (Or.inr rfl) (htons ipDf) htons_flags.1
  · rw [and_df_iff] at hdf
    omega

theorem cheatDf_id (random : UInt16) (p : Packet) :
    (cheatDf random (ipHeader p)).ipId = if dontFragment p then random else (ipHeader p).ipId := by
  have hiff := and_df_iff (ipHeader p).ipOff
  unfold cheatDf dontFragment
  simp only [beq_iff_eq]
  split_ifs with h1 h2 h2
  · rfl
  · exact absurd (hiff.mp h1) h2
  · exact absurd (hiff.mpr h2) h1
  · rfl

theorem cheatDf_fields (random : UInt16) (ip : ClickIp) :
    ∃ id off, cheatDf random ip = { ip with ipId := id, ipOff := off } := by
  unfold cheatDf
  split_ifs
  · exact ⟨_, _, rfl⟩
  · exact ⟨_, _, rfl⟩

/-- The flags and the offset of the first fragment. -/
theorem preparedIp_ipOff (f : IPFragmenter) (random : UInt16) (p : Packet) :
    (ntohs (preparedIp f random p).ipOff).toNat%8192*8 = fragOffset p ∧
      (ntohs (preparedIp f random p).ipOff).toNat/8192%2 = 1 ∧
      (ntohs (preparedIp f random p).ipOff).toNat/16384%2 = 0 := by
  have h1 := cheatDf_ipOff random (ipHeader p)
  have h2 := ntohs_set_mf (cheatDf random (ipHeader p)).ipOff
  have hw : (ntohs (ipHeader p).ipOff).toNat < 65536 := UInt16.toNat_lt _
  have hoff : (preparedIp f random p).ipOff = (cheatDf random (ipHeader p)).ipOff ||| htons ipMf := rfl
  unfold fragOffset
  rw [hoff]
  omega

theorem hadMf_eq (random : UInt16) (p : Packet) :
    ((cheatDf random (ipHeader p)).ipOff &&& htons ipMf != 0) = moreFragments p := by
  have h1 := cheatDf_ipOff random (ipHeader p)
  have hiff := and_mf_iff (cheatDf random (ipHeader p)).ipOff
  have hw : (ntohs (ipHeader p).ipOff).toNat < 65536 := UInt16.toNat_lt _
  unfold moreFragments
  rw [Bool.eq_iff_iff, bne_iff_ne, hiff, beq_iff_eq]
  omega

/-- What the prepared header takes over from the packet. -/
theorem preparedIp_fields (f : IPFragmenter) (random : UInt16) (p : Packet) :
    ∃ id off len sum, preparedIp f random p =
      { ipHeader p with ipId := id, ipOff := off, ipLen := len, ipSum := sum } := by
  obtain ⟨id, off, hcheat⟩ := cheatDf_fields random (ipHeader p)
  unfold preparedIp firstHeader ClickIp.resum
  rw [hcheat]
  exact ⟨_, _, _, _, rfl⟩

/-- A packet that has to be fragmented, and can be. -/
structure Fragmentable (f : IPFragmenter) (p : Packet) : Prop where
  checked : Checked p
  big : f.mtu < p.data.length
  mtu : headerLength p+8 ≤ f.mtu
  df : dontFragment p = false ∨ f.honorDf = false
  bound : fragOffset p+(ipPayload p).length ≤ 65536

theorem Fragmentable.lengths (h : Fragmentable f p) :
    8 ≤ firstDlen f p ∧ headerLength p+firstDlen f p ≤ f.mtu ∧ firstDlen f p%8 = 0 ∧
      firstDlen f p < (ipPayload p).length ∧ (ipPayload p).length = p.data.length-headerLength p ∧
      (ipOptions p).length = headerLength p-20 ∧ 20 ≤ headerLength p ∧ headerLength p ≤ 60 ∧
      p.data.length < 65536 ∧ headerLength p%4 = 0 := by
  have hpaylen : (ipPayload p).length = p.data.length-headerLength p := List.length_drop
  have hoptlen := length_ipOptions p h.checked.header_le
  have h20 := h.checked.twenty_le
  have h60 := headerLength_lt p
  have hlt := h.checked.length_lt
  have hbig := h.big
  have hmtu := h.mtu
  have h4 : headerLength p%4 = 0 := Nat.mul_mod_right 4 _
  unfold firstDlen
  omega

theorem Fragmentable.source (h : Fragmentable f p) : SourceOf f random p (source f random p) := by
  obtain ⟨-, -, -, -, hpaylen, hoptlen, h20, h60, hlt, h4⟩ := h.lengths
  have hmtu := h.mtu
  have hle := h.checked.header_le
  have hcopy := length_optcopy (ipOptions p) (by omega)
  obtain ⟨id, off, len, sum, hfields⟩ := preparedIp_fields f random p
  have hflags := preparedIp_ipOff f random p
  refine ⟨rfl, ?_, hcopy.1, ?_, ?_, ?_, ?_, hflags.1, hflags.2.1, hflags.2.2, hadMf_eq random p, h.bound,
    ?_, ?_, cheatDf_id random p⟩
  · change (ntohs (ipHeader p).ipLen).toNat-headerLength p = _
    rw [h.checked.total, hpaylen]
  · change (optcopy (ipOptions p)).length ≤ 40
    omega
  · change 28+(optcopy (ipOptions p)).length ≤ f.mtu
    omega
  · change 20+(optcopy (ipOptions p)).length+_ < 65536
    omega
  · change (preparedIp f random p).ipV = 4
    rw [hfields]
    exact h.checked.version
  · change (preparedIp f random p).ipSrc = _ ∧ (preparedIp f random p).ipDst = _ ∧ _
    rw [hfields]
    exact ⟨rfl, rfl, rfl⟩
  · change (preparedIp f random p).ipP = _ ∧ (preparedIp f random p).ipTos = _ ∧
      (preparedIp f random p).ipTtl = _
    rw [hfields]
    exact ⟨rfl, rfl, rfl⟩

/-- The first fragment keeps the header with all its options. -/
theorem Fragmentable.first_eq (h : Fragmentable f p) : first f random p =
    ⟨(preparedIp f random p).toBytes ++ (ipOptions p ++ (ipPayload p).take (firstDlen f p)),
      p.dstIpAnno⟩ := by
  obtain ⟨-, -, -, -, hpaylen, hoptlen, h20, -, -, -⟩ := h.lengths
  have hdrop : p.data.drop sizeofClickIp = ipOptions p ++ ipPayload p := by
    conv_lhs => rw [h.checked.data_eq]
    exact List.drop_left' (ClickIp.length_toBytes _)
  have hwhole : (p.setHeader (preparedIp f random p)).data.take (headerLength p+firstDlen f p) =
      (preparedIp f random p).toBytes ++ (ipOptions p ++ (ipPayload p).take (firstDlen f p)) := by
    unfold Packet.setHeader
    dsimp only
    rw [hdrop, List.take_append, List.take_of_length_le (by rw [ClickIp.length_toBytes]; omega),
      ClickIp.length_toBytes, List.take_append, List.take_of_length_le (by omega), hoptlen]
    congr 3
    omega
  exact congrArg (fun d => (⟨d, p.dstIpAnno⟩ : Packet)) hwhole

theorem Fragmentable.first_spec (h : Fragmentable f p) (random : UInt16) :
    FragmentOf f random p (first f random p) 0 false ∧
      ipPayload (first f random p) = (ipPayload p).take (firstDlen f p) ∧
      (ipPayload (first f random p)).length = firstDlen f p := by
  obtain ⟨h8, hmtu, hmod, hless, hpaylen, hoptlen, h20, h60, hlt, h4⟩ := h.lengths
  have hsource : SourceOf f random p (IPFragmenter.source f random p) := h.source
  obtain ⟨id, off, len, sum, hfields⟩ := preparedIp_fields f random p
  have hflags := preparedIp_ipOff f random p
  have hhl : 4*(preparedIp f random p).ipHl.toNat = 20+(ipOptions p).length := by
    rw [hfields, hoptlen]
    change headerLength p = _
    omega
  obtain ⟨hip, hhl', -, hpay, hlen, htake⟩ := packet_parts (preparedIp f random p) (ipOptions p)
    ((ipPayload p).take (firstDlen f p)) p.dstIpAnno hhl
  rw [← h.first_eq] at hip hhl' hpay hlen htake
  have htakelen : ((ipPayload p).take (firstDlen f p)).length = firstDlen f p := by
    rw [List.length_take]
    omega
  refine ⟨⟨⟨?_, ?_, ?_, ?_, ?_⟩, ?_, ?_, ?_, ?_, ?_, ?_, ?_, ?_, ?_⟩, hpay, by rw [hpay, htakelen]⟩
  · rw [hip]
    exact hsource.version
  · rw [hip]
    omega
  · omega
  · rw [hip, hlen, htakelen]
    change (ntohs (htons (UInt16.ofNat (headerLength p+firstDlen f p)))).toNat = _
    rw [ntohs_htons, UInt16.toNat_ofNat']
    omega
  · rw [htake]
    exact clickInCksum_resum _ (ipOptions p) (by omega)
  · omega
  · intro hnil
    rw [hpay] at hnil
    rw [hnil] at htakelen
    simp at htakelen
    omega
  · intro _
    rw [hpay, htakelen]
    exact hmod
  · unfold fragOffset
    rw [hip, Nat.mul_comm, Nat.add_zero]
    exact hflags.1
  · unfold moreFragments
    rw [hip, hflags.2.1]
    rfl
  · unfold dontFragment
    rw [hip, hflags.2.2]
    rfl
  · rw [hip]
    exact hsource.addresses
  · rw [hip]
    exact hsource.protocol
  · rw [hip]
    exact hsource.id

theorem outputs_emits (port : ℕ) (l : List Packet) :
    outputs port (l.map (.emit 0) ++ [.kill]) = if 0 = port then l else [] := by
  induction l with
  | nil => simp
  | cons a l ih =>
    rw [List.map_cons, List.cons_append, outputs_emit, ih]
    split_ifs
    · rfl
    · rfl

theorem Fragmentable.push_eq (h : Fragmentable f p) : push f random p =
    .emit 0 (first f random p) :: ((fragmentLoop f.mtu (IPFragmenter.source f random p)
      (IPFragmenter.source f random p).inDlen (firstDlen f p)).map (.emit 0) ++ [.kill]) := by
  have hbig := h.big
  have hlen := h.lengths.1
  have hnot : ¬ (((ipHeader p).ipOff &&& htons ipDf ≠ 0 ∧ f.honorDf = true) ∨ firstDlen f p < 8) := by
    rintro (⟨hset, hhonor⟩ | hshort)
    · rcases h.df with hdf | hdf
      · unfold dontFragment at hdf
        rw [(and_df_iff _).mp hset] at hdf
        cases hdf
      · rw [hdf] at hhonor
        cases hhonor
    · omega
  unfold push fragment
  rw [if_neg (by omega)]
  exact if_neg hnot

theorem Fragmentable.continues (h : Fragmentable f p) (random : UInt16) :
    Continues f random p 0 (outputs 0 (push f random p)) ∧ outputs 1 (push f random p) = [] := by
  obtain ⟨-, -, hmod, hless, -⟩ := h.lengths
  have hsource : SourceOf f random p (IPFragmenter.source f random p) := h.source
  have hin := hsource.inDlen
  have hloop := fragmentLoop_spec hsource (IPFragmenter.source f random p).inDlen (firstDlen f p) hmod
    (by omega) (by omega)
  obtain ⟨hfirst, hpay, hlen⟩ := h.first_spec random
  rw [h.push_eq, outputs_emit, outputs_emits, if_pos rfl, if_pos rfl, outputs_emit, outputs_emits,
    if_neg (by decide), if_neg (by decide)]
  refine ⟨⟨?_, by rw [hlen, List.drop_zero]; exact hpay, by rw [hlen, Nat.zero_add]; exact hloop.1⟩, rfl⟩
  rw [hloop.2, decide_eq_false (by omega)]
  exact hfirst

/-- A packet that is longer than the MTU leaves in fragments that fit it. Each one passes the
header check, names the place of its bytes in the payload, and has the more-fragments flag as
it must; put together they are the payload of the packet. -/
theorem fragments_carry_the_packet (f : IPFragmenter) (random : UInt16) (p : Packet)
    (h : Fragmentable f p) :
    let qs := outputs 0 (push f random p)
    (qs.map ipPayload).flatten = ipPayload p ∧ outputs 1 (push f random p) = [] ∧
      ∀ pre q post, qs = pre ++ q :: post →
        FragmentOf f random p q (pre.map ipPayload).flatten.length post.isEmpty := by
  have hcontinues := h.continues random
  refine ⟨?_, hcontinues.2, ?_⟩
  · rw [hcontinues.1.flatten, List.drop_zero]
  · intro pre q post hsplit
    rw [hsplit] at hcontinues
    have hq := hcontinues.1.split
    rwa [Nat.zero_add] at hq

theorem datagram_in_fragments :
    let f : IPFragmenter := ⟨36, true, by decide, by decide⟩
    let p := Deployment.datagram 1 (List.replicate 20 7)
    let qs := outputs 0 (push f 0 p)
    (qs.map ipPayload).flatten = ipPayload p ∧ outputs 1 (push f 0 p) = [] ∧
      ∀ pre q post, qs = pre ++ q :: post →
        FragmentOf f 0 p q (pre.map ipPayload).flatten.length post.isEmpty := by
  intro f p
  have hchecked : Checked p := ⟨by decide, by decide, by decide, by decide, by decide⟩
  exact fragments_carry_the_packet f 0 p
    ⟨hchecked, by decide, by decide, Or.inl (by decide), by decide⟩

end IPFragmenter

end MobileIP
