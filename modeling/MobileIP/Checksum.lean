import MobileIP.Headers
import MobileIP.Library.OnesComplement

/-! The Internet checksum functions of `in_cksum.c`, and the two ways in which
the elements use them: storing a checksum in a header whose checksum field is
zero, and testing a received datagram. -/
namespace MobileIP

open LittleEndian OnesComplement

def sumWords : Bytes → UInt32 → UInt32
  | a :: b :: w, sum => sumWords w (sum+UInt32.ofNat (a.toNat+256*b.toNat))
  | [a], sum => sum+UInt32.ofNat a.toNat
  | [], sum => sum

def clickInCksum (addr : Bytes) : UInt16 :=
  let sum := sumWords addr 0
  let sum : UInt32 := (sum &&& (0xffff : UInt32))+(sum >>> 16)
  let sum := sum+(sum >>> 16)
  (~~~sum).toUInt16

def clickInCksumPseudohdrRaw (csum src dst : UInt32) (proto : UInt8) (packetLen : ℕ) : UInt16 :=
  let csum := ~~~csum &&& (0xffff : UInt32)
  let csum := csum+((src &&& (0xffff : UInt32))+(src >>> 16))
  let csum := csum+((dst &&& (0xffff : UInt32))+(dst >>> 16))
  let csum := csum+((htons (UInt16.ofNat packetLen)).toUInt32+(htons proto.toUInt16).toUInt32)
  let csum : UInt32 := (csum &&& (0xffff : UInt32))+(csum >>> 16)
  (~~~(csum+(csum >>> 16)) &&& (0xffff : UInt32)).toUInt16

/-- The option walk of `click_in_cksum_pseudohdr_hard`: the final destination
named by a source-routing option, if there is one. Every turn consumes at least
one byte, so the number of option bytes is enough fuel. -/
def sourceRouteDestination : ℕ → Bytes → Option IPAddress
  | 0, _ => none
  | _+1, [] => none
  | fuel+1, o :: rest =>
    if o = 1 then sourceRouteDestination fuel rest
    else if o = 0 then none
    else
      let opt := o :: rest
      let len := (byteAt opt 1).toNat
      if opt.length ≤ 1 ∨ len < 2 ∨ opt.length < len then none
      else if (o = 137 ∨ o = 131) ∧ 7 ≤ len then some (u32At opt (len-4))
      else sourceRouteDestination fuel (opt.drop len)

def clickInCksumPseudohdrHard (csum : UInt32) (iph : Bytes) (packetLen : ℕ) : UInt16 :=
  let ip := ClickIp.ofBytes iph
  let opts := (iph.take (4*ip.ipHl.toNat)).drop sizeofClickIp
  let dst := (sourceRouteDestination opts.length opts).getD ip.ipDst
  clickInCksumPseudohdrRaw csum ip.ipSrc dst ip.ipP packetLen

def clickInCksumPseudohdr (dataCsum : UInt16) (iph : Bytes) (transportLen : ℕ) : UInt16 :=
  -- `iph` is the memory from the IP header on; only options need the slow path
  let ip := ClickIp.ofBytes iph
  if ip.ipHl = 5 then
    clickInCksumPseudohdrRaw dataCsum.toUInt32 ip.ipSrc ip.ipDst ip.ipP transportLen
  else clickInCksumPseudohdrHard dataCsum.toUInt32 iph transportLen

def ClickIp.withSum (ip : ClickIp) : ClickIp :=
  { ip with ipSum := clickInCksum { ip with ipSum := 0 }.toBytes }

/-- `uh_sum` as the elements fill it in: the field is zero while it is computed. -/
def ClickUdp.withSum (udp : ClickUdp) (ip : ClickIp) (payload : Bytes) : ClickUdp :=
  let seg := { udp with uhSum := 0 }.toBytes ++ payload
  { udp with uhSum := clickInCksumPseudohdr (clickInCksum seg) (ip.toBytes ++ seg) seg.length }

/-- The test by which `relayReq`, `relayRep` and `RegNode::push` reject a datagram
that starts at `iph`: the checksum does not verify and is not absent. -/
def badUdpChecksum (iph : Bytes) : Bool :=
  let udph := iph.drop sizeofClickIp
  clickInCksumPseudohdr (clickInCksum udph) iph (iph.length-sizeofClickIp) != 0 &&
    ntohs (ClickUdp.ofBytes udph).uhSum != 0

theorem toNat_sumWords (d : Bytes) (sum : UInt32) :
    (sumWords d sum).toNat = (sum.toNat+wordSum d)%4294967296 := by
  induction d, sum using sumWords.induct with
  | case1 sum a b w ih =>
    rw [sumWords, ih, wordSum_cons_cons]
    simp only [UInt32.toNat_add, UInt32.toNat_ofNat']
    omega
  | case2 sum a =>
    simp only [sumWords, wordSum, UInt32.toNat_add, UInt32.toNat_ofNat']
    omega
  | case3 sum =>
    have := sum.toNat_lt
    simp only [sumWords, wordSum]
    omega

theorem toNat_low_half (s : UInt32) : (s &&& 0xffff).toNat = s.toNat%65536 :=
  Nat.and_two_pow_sub_one_eq_mod s.toNat 16

theorem toNat_high_half (s : UInt32) : (s >>> 16).toNat = s.toNat/65536 :=
  Nat.shiftRight_eq_div_pow s.toNat 16

theorem toNat_complement (s : UInt32) : (~~~s).toNat = 4294967295-s.toNat :=
  UInt32.toNat_not s

theorem toNat_fold (s : UInt32) :
    let t := (s &&& (0xffff : UInt32))+(s >>> 16)
    (t+(t >>> 16)).toNat%65536 = fold16 s.toNat := by
  have hs : s.toNat < 4294967296 := s.toNat_lt
  have ht : ((s &&& (0xffff : UInt32))+(s >>> 16)).toNat = s.toNat%65536+s.toNat/65536 := by
    rw [UInt32.toNat_add, toNat_low_half, toNat_high_half]
    omega
  dsimp only
  rw [UInt32.toNat_add, toNat_high_half, ht]
  unfold fold16
  dsimp only
  omega

/-- As long as the accumulator does not wrap, the checksum is the complement of
the folded sum. -/
theorem toNat_clickInCksum (d : Bytes) (h : wordSum d < 4294967296) :
    (clickInCksum d).toNat = 65535-fold16 (wordSum d) := by
  have hs : (sumWords d 0).toNat = wordSum d := by
    rw [toNat_sumWords, UInt32.toNat_zero, Nat.zero_add, Nat.mod_eq_of_lt h]
  have hf := toNat_fold (sumWords d 0)
  dsimp only at hf
  rw [hs] at hf
  unfold clickInCksum
  dsimp only
  rw [UInt32.toNat_toUInt16, toNat_complement]
  generalize ((sumWords d 0 &&& (0xffff : UInt32))+(sumWords d 0 >>> 16)+
    (((sumWords d 0 &&& (0xffff : UInt32))+(sumWords d 0 >>> 16)) >>> 16)) = t at hf ⊢
  have ht : t.toNat < 4294967296 := t.toNat_lt
  omega

def pseudoSum (src dst : UInt32) (proto : UInt8) (len : ℕ) : ℕ :=
  (src.toNat%65536+src.toNat/65536)+(dst.toNat%65536+dst.toNat/65536)+
    ((htons (UInt16.ofNat len)).toNat+(htons proto.toUInt16).toNat)

theorem pseudoSum_le (src dst : UInt32) (proto : UInt8) (len : ℕ) :
    pseudoSum src dst proto len ≤ 393210 := by
  have hs : src.toNat < 4294967296 := src.toNat_lt
  have hd : dst.toNat < 4294967296 := dst.toNat_lt
  have hl : (htons (UInt16.ofNat len)).toNat < 65536 := UInt16.toNat_lt _
  have hp : (htons proto.toUInt16).toNat < 65536 := UInt16.toNat_lt _
  unfold pseudoSum
  omega

theorem toNat_clickInCksumPseudohdrRaw (csum : UInt16) (src dst : UInt32) (proto : UInt8)
    (len : ℕ) :
    (clickInCksumPseudohdrRaw csum.toUInt32 src dst proto len).toNat =
      65535-fold16 (65535-csum.toNat+pseudoSum src dst proto len) := by
  -- `s` is the register before the two folds: the data sum, reopened, and the pseudo-header
  have hc : csum.toNat < 65536 := csum.toNat_lt
  have hle := pseudoSum_le src dst proto len
  let s : UInt32 := (~~~csum.toUInt32 &&& (0xffff : UInt32))+
    ((src &&& (0xffff : UInt32))+(src >>> 16))+((dst &&& (0xffff : UInt32))+(dst >>> 16))+
    ((htons (UInt16.ofNat len)).toUInt32+(htons proto.toUInt16).toUInt32)
  have hs : s.toNat = 65535-csum.toNat+pseudoSum src dst proto len := by
    have hl : (htons (UInt16.ofNat len)).toNat < 65536 := UInt16.toNat_lt _
    have hp : (htons proto.toUInt16).toNat < 65536 := UInt16.toNat_lt _
    have hsrc : src.toNat < 4294967296 := src.toNat_lt
    have hdst : dst.toNat < 4294967296 := dst.toNat_lt
    simp only [s, UInt32.toNat_add, toNat_low_half, toNat_high_half, toNat_complement,
      UInt16.toNat_toUInt32, pseudoSum]
    omega
  have hf := toNat_fold s
  dsimp only at hf
  rw [hs] at hf
  change ((~~~((s &&& (0xffff : UInt32))+(s >>> 16)+(((s &&& (0xffff : UInt32))+(s >>> 16)) >>> 16))
    &&& (0xffff : UInt32)).toUInt16).toNat = _
  rw [UInt32.toNat_toUInt16, toNat_low_half, toNat_complement]
  generalize ((s &&& (0xffff : UInt32))+(s >>> 16)+(((s &&& (0xffff : UInt32))+(s >>> 16)) >>> 16)) =
    t at hf ⊢
  have ht : t.toNat < 4294967296 := t.toNat_lt
  omega

theorem wordSum_udp (udp : ClickUdp) (payload : Bytes) :
    wordSum (udp.toBytes ++ payload) =
      udp.uhSum.toNat+wordSum ({ udp with uhSum := 0 }.toBytes ++ payload) := by
  simp only [ClickUdp.toBytes, List.append_assoc, wordSum_append_le16, UInt16.toNat_zero]
  omega

theorem wordSum_ip (ip : ClickIp) :
    wordSum ip.toBytes = ip.ipSum.toNat+wordSum { ip with ipSum := 0 }.toBytes := by
  simp only [ClickIp.toBytes, wordSum_cons_cons, wordSum_append_le16, UInt16.toNat_zero]
  omega

theorem clickInCksum_eq_zero_iff (d : Bytes) (h : wordSum d < 4294967296) :
    clickInCksum d = 0 ↔ fold16 (wordSum d) = 65535 := by
  have hle := fold16_le (wordSum d)
  have hn := toNat_clickInCksum d h
  rw [← UInt16.toNat_inj, hn, UInt16.toNat_zero]
  omega

/-- A checksum that is written over a zero halfword verifies. -/
theorem clickInCksum_filled (d d0 : Bytes) (hlen : d0.length ≤ 65536)
    (hd : wordSum d = (clickInCksum d0).toNat+wordSum d0) : clickInCksum d = 0 := by
  have hle := wordSum_le d0
  have hc := toNat_clickInCksum d0 (by omega)
  have hs : wordSum d = wordSum d0+(65535-fold16 (wordSum d0)) := by
    rw [hd, hc, Nat.add_comm]
  rw [clickInCksum_eq_zero_iff _ (by omega), hs]
  exact fold16_add_complement _ (by omega)

/-- Every IP header checksum that is filled in over the 20 header bytes verifies. -/
theorem clickInCksum_withSum (ip : ClickIp) : clickInCksum ip.withSum.toBytes = 0 := by
  have hsum : ip.withSum.ipSum = clickInCksum { ip with ipSum := 0 }.toBytes := rfl
  have hzero : { ip.withSum with ipSum := 0 } = { ip with ipSum := 0 } := rfl
  apply clickInCksum_filled _ { ip with ipSum := 0 }.toBytes (by simp)
  rw [wordSum_ip, hsum, hzero]

/-- The destination that the pseudo-header names: that of the IP header, or the end of a
source route among the options. The options reach into the UDP header, which every element
expects right behind the first 20 bytes. -/
def pseudoDst (iph : Bytes) : IPAddress :=
  let ip := ClickIp.ofBytes iph
  if ip.ipHl = 5 then ip.ipDst
  else
    let opts := (iph.take (4*ip.ipHl.toNat)).drop sizeofClickIp
    (sourceRouteDestination opts.length opts).getD ip.ipDst

theorem clickInCksumPseudohdr_eq (csum : UInt16) (iph : Bytes) (len : ℕ) :
    clickInCksumPseudohdr csum iph len =
      clickInCksumPseudohdrRaw csum.toUInt32 (ClickIp.ofBytes iph).ipSrc (pseudoDst iph)
        (ClickIp.ofBytes iph).ipP len := by
  unfold clickInCksumPseudohdr clickInCksumPseudohdrHard pseudoDst
  by_cases h : (ClickIp.ofBytes iph).ipHl = 5
  · simp only [if_pos h]
  · simp only [if_neg h]

theorem sourceRouteDestination_short (fuel : ℕ) (opts : Bytes) (h : opts.length ≤ 6) :
    sourceRouteDestination fuel opts = none := by
  -- a source route takes seven bytes, and the walk never looks behind the options
  induction fuel generalizing opts with
  | zero => rfl
  | succ fuel ih =>
    cases opts with
    | nil => rfl
    | cons o rest =>
      have hrest : rest.length ≤ 6 := Nat.le_of_succ_le h
      have hdrop : ((o :: rest).drop (byteAt (o :: rest) 1).toNat).length ≤ 6 := by
        rw [List.length_drop]
        omega
      unfold sourceRouteDestination
      dsimp only
      split_ifs with h1 h2 h3 h4
      · exact ih rest hrest
      · rfl
      · rfl
      · -- an option that fits is too short to hold an address
        have hlen : (byteAt (o :: rest) 1).toNat ≤ (o :: rest).length := by
          apply Nat.le_of_not_lt
          exact fun hlt => h3 (Or.inr (Or.inr hlt))
        omega
      · exact ih _ hdrop

/-- Up to six header words there is no room for a source route. -/
theorem pseudoDst_short (iph : Bytes) (h : (ClickIp.ofBytes iph).ipHl.toNat ≤ 6) :
    pseudoDst iph = (ClickIp.ofBytes iph).ipDst := by
  have hlen : ((iph.take (4*(ClickIp.ofBytes iph).ipHl.toNat)).drop sizeofClickIp).length ≤ 6 := by
    rw [List.length_drop, List.length_take]
    change _-20 ≤ 6
    omega
  unfold pseudoDst
  dsimp only
  rw [sourceRouteDestination_short _ _ hlen, Option.getD_none, ite_self]

theorem toNat_udpCksum (ip : ClickIp) (seg : Bytes) (h : wordSum seg < 4294500000) :
    (clickInCksumPseudohdr (clickInCksum seg) (ip.toBytes ++ seg) seg.length).toNat =
      65535-fold16 (wordSum seg+
        pseudoSum ip.ipSrc (pseudoDst (ip.toBytes ++ seg)) ip.ipP seg.length) := by
  have hle := pseudoSum_le ip.ipSrc (pseudoDst (ip.toBytes ++ seg)) ip.ipP seg.length
  have hf := fold16_le (wordSum seg)
  have hc := toNat_clickInCksum seg (by omega)
  rw [clickInCksumPseudohdr_eq, ClickIp.ofBytes_toBytes, toNat_clickInCksumPseudohdrRaw, hc,
    show 65535-(65535-fold16 (wordSum seg)) = fold16 (wordSum seg) by omega, Nat.add_comm,
    fold16_add_fold16 _ _ (by omega), Nat.add_comm]

/-- Every UDP checksum that is filled in passes the receivers' test, the case of
a computed checksum of zero included, if filling it in does not move the destination that
the pseudo-header names. -/
theorem badUdpChecksum_withSum (ip : ClickIp) (udp : ClickUdp) (payload : Bytes)
    (hp : payload.length ≤ 65536)
    (hdst : pseudoDst (ip.toBytes ++ ((udp.withSum ip payload).toBytes ++ payload)) =
      pseudoDst (ip.toBytes ++ ({ udp with uhSum := 0 }.toBytes ++ payload))) :
    badUdpChecksum (ip.toBytes ++ ((udp.withSum ip payload).toBytes ++ payload)) = false := by
  let seg0 := { udp with uhSum := 0 }.toBytes ++ payload
  let seg := (udp.withSum ip payload).toBytes ++ payload
  have hlen : seg.length = seg0.length := by
    simp only [seg, seg0, List.length_append, ClickUdp.length_toBytes]
  have hlen0 : seg0.length = 8+payload.length := by
    simp only [seg0, List.length_append, ClickUdp.length_toBytes]
  have hle := wordSum_le seg0
  have hps := pseudoSum_le ip.ipSrc (pseudoDst (ip.toBytes ++ seg0)) ip.ipP seg0.length
  have hc := toNat_udpCksum ip seg0 (by omega)
  have hs : wordSum seg = wordSum seg0+(65535-fold16 (wordSum seg0+
      pseudoSum ip.ipSrc (pseudoDst (ip.toBytes ++ seg0)) ip.ipP seg0.length)) := by
    rw [← hc, Nat.add_comm]
    exact wordSum_udp (udp.withSum ip payload) payload
  -- the sum over the filled-in segment is the sum before and its complement
  have hv := toNat_udpCksum ip seg (by omega)
  have hzero : clickInCksumPseudohdr (clickInCksum seg) (ip.toBytes ++ seg) seg.length = 0 := by
    apply UInt16.toNat_inj.mp
    have hd : pseudoDst (ip.toBytes ++ seg) = pseudoDst (ip.toBytes ++ seg0) := hdst
    rw [hv, hd, hlen, hs, Nat.add_right_comm, fold16_add_complement _ (by omega)]
    rfl
  have hdrop : (ip.toBytes ++ seg).drop sizeofClickIp = seg := rfl
  have hl20 : (ip.toBytes ++ seg).length-sizeofClickIp = seg.length := by
    rw [List.length_append, ClickIp.length_toBytes]
    exact Nat.add_sub_cancel_left 20 seg.length
  change badUdpChecksum (ip.toBytes ++ seg) = false
  unfold badUdpChecksum
  dsimp only
  rw [hdrop, hl20, hzero]
  rfl

end MobileIP
