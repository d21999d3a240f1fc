import MobileIP.Tunnel

/-! The elements of a forwarding path that rewrite the IP header in place. What
`CheckIPHeader` has tested when a packet enters a router still holds behind each of them. -/
namespace MobileIP

open LittleEndian OnesComplement

def ipHeader (p : Packet) : ClickIp := ClickIp.ofBytes p.data

def headerLength (p : Packet) : ℕ := 4*(ipHeader p).ipHl.toNat

def ipOptions (p : Packet) : Bytes := (p.data.take (headerLength p)).drop sizeofClickIp

def ipPayload (p : Packet) : Bytes := p.data.drop (headerLength p)

/-- The packet after the assignments that make its header `ip`. -/
def Packet.setHeader (p : Packet) (ip : ClickIp) : Packet :=
  { p with data := ip.toBytes ++ p.data.drop sizeofClickIp }

/-- `ip_sum = 0; ip_sum = click_in_cksum(ip, hlen)`, with the options behind the header. -/
def ClickIp.resum (ip : ClickIp) (opts : Bytes) : ClickIp :=
  { ip with ipSum := clickInCksum ({ ip with ipSum := 0 }.toBytes ++ opts) }

/-- What `CheckIPHeader` lets through. -/
structure Checked (p : Packet) : Prop where
  version : (ipHeader p).ipV = 4
  header : 5 ≤ (ipHeader p).ipHl.toNat
  header_le : headerLength p ≤ p.data.length
  total : (ntohs (ipHeader p).ipLen).toNat = p.data.length
  checksum : clickInCksum (p.data.take (headerLength p)) = 0

namespace DecIPTTL

/-- The decrement with the incremental update of the checksum. -/
def decrement (ip : ClickIp) : ClickIp :=
  let sum := 65535-(ntohs ip.ipSum).toNat+0xFEFF
  { ip with
    ipTtl := ip.ipTtl-1
    ipSum := ~~~htons (UInt16.ofNat (sum+sum/65536)) }

/-- As the scripts configure it: active, and for multicast packets too. -/
def simpleAction (p : Packet) : List Action :=
  if (ipHeader p).ipTtl.toNat ≤ 1 then [.forward 1 p]
  else [.forward 0 (p.setHeader (decrement (ipHeader p)))]

end DecIPTTL

namespace FixIPSrc

/-- The annotation is set by `ICMPError` on the packets that it makes. -/
def simpleAction (myIp : IPAddress) (fixIpSrcAnno : Bool) (p : Packet) : Packet :=
  if fixIpSrcAnno then
    p.setHeader (ClickIp.resum { ipHeader p with ipSrc := myIp } (ipOptions p))
  else p

end FixIPSrc

def SetIPChecksum.simpleAction (p : Packet) : Option Packet :=
  let hlen := headerLength p
  if sizeofClickIp ≤ p.data.length ∧ sizeofClickIp ≤ hlen ∧ hlen ≤ p.data.length then
    some (p.setHeader (ClickIp.resum (ipHeader p) (ipOptions p)))
  else none

@[simp] theorem ipHeader_setHeader (p : Packet) (ip : ClickIp) : ipHeader (p.setHeader ip) = ip :=
  ClickIp.ofBytes_toBytes ip _

@[simp] theorem drop_setHeader (p : Packet) (ip : ClickIp) :
    (p.setHeader ip).data.drop sizeofClickIp = p.data.drop sizeofClickIp :=
  List.drop_left' (ClickIp.length_toBytes ip)

@[simp] theorem dstIpAnno_setHeader (p : Packet) (ip : ClickIp) :
    (p.setHeader ip).dstIpAnno = p.dstIpAnno := rfl

theorem length_setHeader (p : Packet) (ip : ClickIp) (h : 20 ≤ p.data.length) :
    (p.setHeader ip).data.length = p.data.length := by
  unfold Packet.setHeader
  rw [List.length_append, ClickIp.length_toBytes, List.length_drop]
  change 20+(p.data.length-20) = _
  omega

theorem Checked.length {p : Packet} (h : Checked p) : 20 ≤ p.data.length := by
  have h5 := h.header
  have hle := h.header_le
  unfold headerLength at hle
  omega

theorem Checked.length_lt {p : Packet} (h : Checked p) : p.data.length < 65536 := by
  rw [← h.total]
  exact UInt16.toNat_lt _

/-- The check does not look at the annotation. -/
theorem Checked.of_data {p q : Packet} (h : Checked p) (hd : q.data = p.data) : Checked q := by
  obtain ⟨h1, h2, h3, h4, h5⟩ := h
  unfold headerLength ipHeader at *
  rw [← hd] at h1 h2 h3 h4 h5
  exact ⟨h1, h2, h3, h4, h5⟩

theorem headerLength_lt (p : Packet) : headerLength p ≤ 60 := by
  have hlt : (ipHeader p).ipHl.toNat < 16 := (ipHeader p).ipHl.isLt
  unfold headerLength
  omega

theorem length_ipOptions (p : Packet) (h : headerLength p ≤ p.data.length) :
    (ipOptions p).length = headerLength p-20 := by
  unfold ipOptions
  rw [List.length_drop, List.length_take, Nat.min_eq_left h]
  rfl

theorem take_header (p : Packet) (h : 20 ≤ p.data.length) (h5 : 20 ≤ headerLength p) :
    p.data.take (headerLength p) = (ipHeader p).toBytes ++ ipOptions p := by
  unfold ipHeader
  rw [ClickIp.toBytes_ofBytes p.data h]
  have htake : p.data.take 20 = (p.data.take (headerLength p)).take 20 := by
    rw [List.take_take, Nat.min_eq_left h5]
  rw [htake]
  exact (List.take_append_drop 20 _).symm

/-- A header of the same length leaves options and payload where they are. -/
theorem options_payload_setHeader (p : Packet) (ip : ClickIp)
    (hl : ip.ipHl = (ipHeader p).ipHl) (h5 : 20 ≤ headerLength p) :
    headerLength (p.setHeader ip) = headerLength p ∧ ipOptions (p.setHeader ip) = ipOptions p ∧
      ipPayload (p.setHeader ip) = ipPayload p := by
  have hlen : headerLength (p.setHeader ip) = headerLength p := by
    unfold headerLength
    rw [ipHeader_setHeader, hl]
  have hdrop := drop_setHeader p ip
  refine ⟨hlen, ?_, ?_⟩
  · unfold ipOptions
    rw [hlen, List.drop_take, List.drop_take, hdrop]
  · unfold ipPayload
    rw [hlen]
    obtain ⟨n, hn⟩ : ∃ n, headerLength p = sizeofClickIp+n := ⟨headerLength p-20, by
      change headerLength p = 20+_
      omega⟩
    rw [hn, ← List.drop_drop, ← List.drop_drop, hdrop]

theorem Checked.twenty_le {p : Packet} (h : Checked p) : 20 ≤ headerLength p := by
  have h5 := h.header
  unfold headerLength
  omega

/-- An assignment to header fields keeps the check if it touches neither version nor lengths
and the new header verifies. -/
theorem Checked.setHeader {p : Packet} (h : Checked p) (ip : ClickIp) (hv : ip.ipV = (ipHeader p).ipV)
    (hl : ip.ipHl = (ipHeader p).ipHl) (hlen : ip.ipLen = (ipHeader p).ipLen)
    (hsum : clickInCksum (ip.toBytes ++ ipOptions p) = 0) : Checked (p.setHeader ip) := by
  obtain ⟨hhl, hopts, -⟩ := options_payload_setHeader p ip hl h.twenty_le
  have hlength := length_setHeader p ip h.length
  refine ⟨?_, ?_, ?_, ?_, ?_⟩
  · rw [ipHeader_setHeader, hv]
    exact h.version
  · rw [ipHeader_setHeader, hl]
    exact h.header
  · rw [hhl, hlength]
    exact h.header_le
  · rw [ipHeader_setHeader, hlen, hlength]
    exact h.total
  · rw [take_header _ (by rw [hlength]; exact h.length) (by rw [hhl]; exact h.twenty_le),
      ipHeader_setHeader, hopts]
    exact hsum

theorem wordSum_header (ip : ClickIp) (opts : Bytes) :
    wordSum (ip.toBytes ++ opts) = ip.ipSum.toNat+wordSum ({ ip with ipSum := 0 }.toBytes ++ opts) := by
  rw [wordSum_append _ opts (by rw [ClickIp.length_toBytes]),
    wordSum_append _ opts (by rw [ClickIp.length_toBytes]), wordSum_ip]
  omega

/-- A checksum that is taken over header and options verifies. -/
theorem clickInCksum_resum (ip : ClickIp) (opts : Bytes) (h : opts.length ≤ 65516) :
    clickInCksum ((ip.resum opts).toBytes ++ opts) = 0 := by
  apply clickInCksum_filled _ ({ ip with ipSum := 0 }.toBytes ++ opts)
  · rw [List.length_append, ClickIp.length_toBytes]
    omega
  · exact wordSum_header (ip.resum opts) opts

/-- A packet that is put together from header, options and payload. -/
theorem packet_parts (ip : ClickIp) (opts payload : Bytes) (anno : IPAddress)
    (hl : 4*ip.ipHl.toNat = 20+opts.length) :
    let q : Packet := ⟨ip.toBytes ++ (opts ++ payload), anno⟩
    ipHeader q = ip ∧ headerLength q = 20+opts.length ∧ ipOptions q = opts ∧ ipPayload q = payload ∧
      q.data.length = 20+opts.length+payload.length ∧
      q.data.take (headerLength q) = ip.toBytes ++ opts := by
  intro q
  have hip : ipHeader q = ip := ClickIp.ofBytes_toBytes ip _
  have hhl : headerLength q = 20+opts.length := by
    unfold headerLength
    rw [hip, hl]
  have hsplit : q.data = (ip.toBytes ++ opts) ++ payload := (List.append_assoc _ _ _).symm
  have hlen : (ip.toBytes ++ opts).length = 20+opts.length := by
    rw [List.length_append, ClickIp.length_toBytes]
  have htake : q.data.take (headerLength q) = ip.toBytes ++ opts := by
    rw [hhl, hsplit]
    exact List.take_left' hlen
  refine ⟨hip, hhl, ?_, ?_, ?_, htake⟩
  · unfold ipOptions
    rw [htake]
    exact List.drop_left' (ClickIp.length_toBytes ip)
  · unfold ipPayload
    rw [hhl, hsplit]
    exact List.drop_left' hlen
  · rw [hsplit, List.length_append, hlen]

theorem Checked.data_eq {p : Packet} (h : Checked p) :
    p.data = (ipHeader p).toBytes ++ (ipOptions p ++ ipPayload p) := by
  have htake := take_header p h.length h.twenty_le
  have hsplit := List.take_append_drop (headerLength p) p.data
  rw [htake, List.append_assoc] at hsplit
  exact hsplit.symm

theorem CheckIPHeader_eq (p : Packet) : CheckIPHeader.simpleAction p =
    if p.data.length < sizeofClickIp then none
    else if (ipHeader p).ipV ≠ 4 then none
    else if headerLength p < sizeofClickIp then none
    else if p.data.length < (ntohs (ipHeader p).ipLen).toNat ∨
      (ntohs (ipHeader p).ipLen).toNat < headerLength p then none
    else if clickInCksum (p.data.take (headerLength p)) ≠ 0 then none
    else some (⟨if (ntohs (ipHeader p).ipLen).toNat < p.data.length then
        p.data.take (ntohs (ipHeader p).ipLen).toNat else p.data, (ipHeader p).ipDst⟩, headerLength p) :=
  rfl

/-- The check of `CheckIPHeader` and what it promises: the packet is cut down to its total
length, nothing else changes, and the offset is the length of the header. -/
theorem CheckIPHeader_spec (p q : Packet) (offset : ℕ)
    (h : CheckIPHeader.simpleAction p = some (q, offset)) :
    Checked q ∧ offset = headerLength q ∧ q.dstIpAnno = (ipHeader q).ipDst ∧
      q.data = p.data.take (ntohs (ipHeader p).ipLen).toNat ∧ ipHeader q = ipHeader p := by
  rw [CheckIPHeader_eq] at h
  by_cases h1 : p.data.length < sizeofClickIp
  · rw [if_pos h1] at h
    cases h
  by_cases h2 : (ipHeader p).ipV ≠ 4
  · rw [if_neg h1, if_pos h2] at h
    cases h
  by_cases h3 : headerLength p < sizeofClickIp
  · rw [if_neg h1, if_neg h2, if_pos h3] at h
    cases h
  by_cases h4 : p.data.length < (ntohs (ipHeader p).ipLen).toNat ∨
      (ntohs (ipHeader p).ipLen).toNat < headerLength p
  · rw [if_neg h1, if_neg h2, if_neg h3, if_pos h4] at h
    cases h
  by_cases h5 : clickInCksum (p.data.take (headerLength p)) ≠ 0
  · rw [if_neg h1, if_neg h2, if_neg h3, if_neg h4, if_pos h5] at h
    cases h
  rw [if_neg h1, if_neg h2, if_neg h3, if_neg h4, if_neg h5] at h
  obtain ⟨hq, hoff⟩ := Prod.mk.inj (Option.some.inj h)
  have hlen : 20 ≤ p.data.length := Nat.le_of_not_lt h1
  have hhl : 20 ≤ headerLength p := Nat.le_of_not_lt h3
  have hdata : q.data = p.data.take (ntohs (ipHeader p).ipLen).toNat := by
    rw [← hq]
    dsimp only
    split_ifs with hlt
    · rfl
    · rw [List.take_of_length_le (by omega)]
  have hheader : ipHeader q = ipHeader p := by
    unfold ipHeader at hdata h4 hhl ⊢
    rw [hdata]
    exact ClickIp.ofBytes_take _ _ (by omega) hlen
  have hsame : headerLength q = headerLength p := by
    unfold headerLength
    rw [hheader]
  have hqlen : q.data.length = (ntohs (ipHeader p).ipLen).toNat := by
    rw [hdata, List.length_take]
    omega
  refine ⟨⟨?_, ?_, ?_, ?_, ?_⟩, ?_, ?_, hdata, hheader⟩
  · rw [hheader]
    exact not_not.mp h2
  · rw [hheader]
    unfold headerLength at hhl
    omega
  · omega
  · rw [hheader, hqlen]
  · rw [hsame, hdata, List.take_take, Nat.min_eq_left (by omega)]
    exact not_not.mp h5
  · rw [hsame, ← hoff]
  · rw [hheader, ← hq]

/-- A packet that has been checked passes again, unchanged but for its annotation. -/
theorem Checked.passes {p : Packet} (h : Checked p) :
    CheckIPHeader.simpleAction p =
      some ({ p with dstIpAnno := (ipHeader p).ipDst }, headerLength p) := by
  have h1 : ¬ p.data.length < sizeofClickIp := Nat.not_lt.mpr h.length
  have h2 : ¬ (ipHeader p).ipV ≠ 4 := not_not_intro h.version
  have h3 : ¬ headerLength p < sizeofClickIp := Nat.not_lt.mpr h.twenty_le
  have htotal := h.total
  have hle := h.header_le
  have h4 : ¬ (p.data.length < (ntohs (ipHeader p).ipLen).toNat ∨
      (ntohs (ipHeader p).ipLen).toNat < headerLength p) := by omega
  have h5 : ¬ clickInCksum (p.data.take (headerLength p)) ≠ 0 := not_not_intro h.checksum
  have h6 : ¬ (ntohs (ipHeader p).ipLen).toNat < p.data.length := by omega
  rw [CheckIPHeader_eq, if_neg h1, if_neg h2, if_neg h3, if_neg h4, if_neg h5, if_neg h6]

namespace DecIPTTL

/-- Halfwords in the two byte orders: the new checksum is one more than the old one, as a
residue, and so makes up for the time to live. -/
theorem decrement_sum (ip : ClickIp) :
    (decrement ip).ipSum.toNat%65535 = (ip.ipSum.toNat+1)%65535 := by
  have hs : ip.ipSum.toNat < 65536 := UInt16.toNat_lt _
  obtain ⟨lo, hi, hlo, hhi, hsum⟩ : ∃ lo hi, lo < 256 ∧ hi < 256 ∧ ip.ipSum.toNat = lo+256*hi :=
    ⟨ip.ipSum.toNat%256, ip.ipSum.toNat/256, by omega, by omega, by omega⟩
  have hn : (ntohs ip.ipSum).toNat = 256*lo+hi := by
    unfold ntohs
    rw [toNat_swap16, hsum]
    omega
  unfold decrement
  dsimp only
  rw [UInt16.toNat_not, hn, hsum]
  unfold htons
  rw [toNat_swap16, UInt16.toNat_ofNat']
  have hsize : UInt16.size-1 = 65535 := rfl
  rw [hsize]
  -- whether the addition carries decides which byte the increment reaches
  rcases Nat.lt_or_ge (256*lo+hi) 65279 with hlt | hge
  · have hcarry : (65535-(256*lo+hi)+0xFEFF)/65536 = 1 := by omega
    have hf : (65535-(256*lo+hi)+0xFEFF+1)%2^16 = 255-hi+256*(254-lo) := by omega
    rw [hcarry, hf]
    have h1 : (255-hi+256*(254-lo))%256 = 255-hi := by omega
    have h2 : (255-hi+256*(254-lo))/256 = 254-lo := by omega
    rw [h1, h2]
    omega
  · have hcarry : (65535-(256*lo+hi)+0xFEFF)/65536 = 0 := by omega
    have hf : (65535-(256*lo+hi)+0xFEFF+0)%2^16 = 130814-(256*lo+hi) := by omega
    rw [hcarry, hf]
    have hcases : lo = 254 ∧ hi = 255 ∨ lo = 255 := by omega
    rcases hcases with ⟨rfl, rfl⟩ | rfl
    · rfl
    · have h1 : 130814-(256*255+hi) = 65534-hi := by omega
      rw [h1]
      rcases Nat.eq_or_lt_of_le (Nat.le_of_lt_succ hhi) with rfl | hlt
      · rfl
      · have h2 : (65534-hi)/256 = 255 := by omega
        have h3 : (65534-hi)%256 = 254-hi := by omega
        have h4 : 65535-((254-hi)*256+255) = 255+256*hi+1 := by omega
        rw [h2, h3, h4]

theorem wordSum_ttl (ip : ClickIp) (opts : Bytes) (h : 1 ≤ ip.ipTtl.toNat) :
    wordSum ({ decrement ip with ipSum := 0 }.toBytes ++ opts)+1 =
      wordSum ({ ip with ipSum := 0 }.toBytes ++ opts) := by
  have httl : (ip.ipTtl-1).toNat = ip.ipTtl.toNat-1 := by
    have := ip.ipTtl.toNat_lt
    rw [UInt8.toNat_sub, UInt8.toNat_one]
    omega
  rw [wordSum_append _ opts (by rw [ClickIp.length_toBytes]),
    wordSum_append _ opts (by rw [ClickIp.length_toBytes])]
  simp only [ClickIp.toBytes, wordSum_cons_cons, wordSum_append_le16, decrement, httl]
  omega

theorem wordSum_header_pos (ip : ClickIp) (opts : Bytes) (hv : ip.ipV = 4) :
    0 < wordSum ({ ip with ipSum := 0 }.toBytes ++ opts) := by
  have hle := byteAt_zero_le_wordSum ({ ip with ipSum := 0 }.toBytes ++ opts)
  have hb : (byteAt ({ ip with ipSum := 0 }.toBytes ++ opts) 0).toNat =
      (ip.ipHl.toNat+16*ip.ipV.toNat)%256 := UInt8.toNat_ofNat'
  have hl : ip.ipHl.toNat < 16 := ip.ipHl.isLt
  have h4 : ip.ipV.toNat = 4 := by rw [hv]; rfl
  omega

/-- The incremental update is right both ways: the new header verifies exactly if the old
one did. -/
theorem decrement_verifies_iff (ip : ClickIp) (opts : Bytes) (hv : ip.ipV = 4)
    (ht : 1 ≤ ip.ipTtl.toNat) (ho : opts.length ≤ 40) :
    clickInCksum ((decrement ip).toBytes ++ opts) = 0 ↔ clickInCksum (ip.toBytes ++ opts) = 0 := by
  have hlen : (ip.toBytes ++ opts).length ≤ 60 := by
    rw [List.length_append, ClickIp.length_toBytes]
    omega
  have hlen' : ((decrement ip).toBytes ++ opts).length ≤ 60 := by
    rw [List.length_append, ClickIp.length_toBytes]
    omega
  have hle := wordSum_le (ip.toBytes ++ opts)
  have hle' := wordSum_le ((decrement ip).toBytes ++ opts)
  have hpos := wordSum_header_pos ip opts hv
  have hpos' := wordSum_header_pos (decrement ip) opts hv
  have hsum := wordSum_header ip opts
  have hsum' := wordSum_header (decrement ip) opts
  have httl := wordSum_ttl ip opts ht
  have hmod := decrement_sum ip
  have hsame : wordSum ((decrement ip).toBytes ++ opts)%65535 = wordSum (ip.toBytes ++ opts)%65535 := by
    have hshift := Nat.add_mod_eq_add_mod_right
      (wordSum ({ decrement ip with ipSum := 0 }.toBytes ++ opts)) hmod
    rw [hsum, hsum', ← httl, Nat.add_comm _ 1, ← Nat.add_assoc]
    exact hshift
  rw [clickInCksum_eq_zero_iff _ (by omega), clickInCksum_eq_zero_iff _ (by omega),
    fold16_eq_max_iff _ (by omega), fold16_eq_max_iff _ (by omega), Nat.dvd_iff_mod_eq_zero,
    Nat.dvd_iff_mod_eq_zero, hsame, and_iff_right (by omega), and_iff_right (by omega)]

/-- One hop. -/
theorem simpleAction_checked (p : Packet) (h : Checked p) (ht : 2 ≤ (ipHeader p).ipTtl.toNat) :
    ∃ q, simpleAction p = [.forward 0 q] ∧ Checked q ∧
      ipHeader q = decrement (ipHeader p) ∧ ipOptions q = ipOptions p ∧ ipPayload q = ipPayload p ∧
      q.dstIpAnno = p.dstIpAnno := by
  have hopts : (ipOptions p).length ≤ 40 := by
    have hlt := headerLength_lt p
    rw [length_ipOptions p h.header_le]
    omega
  have hsame := options_payload_setHeader p (decrement (ipHeader p)) rfl h.twenty_le
  refine ⟨p.setHeader (decrement (ipHeader p)), ?_, ?_, ipHeader_setHeader _ _, hsame.2.1, hsame.2.2,
    rfl⟩
  · unfold simpleAction
    rw [if_neg (by omega)]
  · apply h.setHeader (decrement (ipHeader p)) rfl rfl rfl
    rw [decrement_verifies_iff _ _ h.version (by omega) hopts,
      ← take_header p h.length h.twenty_le]
    exact h.checksum

/-- The way through `k` routers, as far as the time to live lasts. -/
def hops : ℕ → Packet → Option Packet
  | 0, p => some p
  | k+1, p => (outputs 0 (simpleAction p)).head?.bind (hops k)

/-- Header fields that no router changes. -/
def SameFlow (ip ip' : ClickIp) : Prop :=
  ∃ ttl sum, ip' = { ip with ipTtl := ttl, ipSum := sum }

/-- A packet that was checked once arrives checked after any number of routers, with one less
to live for each of them and nothing else changed; the router that finds a time to live of
one sends it to its error output. -/
theorem checked_over_hops (p : Packet) (h : Checked p) (k : ℕ) :
    ((hops k p).isSome ↔ k = 0 ∨ k < (ipHeader p).ipTtl.toNat) ∧
      ∀ q, hops k p = some q → Checked q ∧ (ipHeader q).ipTtl.toNat+k = (ipHeader p).ipTtl.toNat ∧
        SameFlow (ipHeader p) (ipHeader q) ∧ ipOptions q = ipOptions p ∧ ipPayload q = ipPayload p ∧
        (simpleAction q = [.forward 1 q] ↔ (ipHeader p).ipTtl.toNat ≤ k+1) := by
  induction k generalizing p with
  | zero =>
    refine ⟨by simp [hops], ?_⟩
    intro q hq
    obtain rfl := Option.some.inj hq
    refine ⟨h, rfl, ⟨_, _, rfl⟩, rfl, rfl, ?_⟩
    unfold simpleAction
    split_ifs with hle
    · exact ⟨fun _ => hle, fun _ => rfl⟩
    · constructor
      · intro heq
        cases (Action.forward.inj (List.cons.inj heq).1).1
      · exact fun hno => absurd hno hle
  | succ k ih =>
    rcases Nat.lt_or_ge 1 (ipHeader p).ipTtl.toNat with ht | ht
    · obtain ⟨q, hsent, hq, hheader, hopts, hpay, -⟩ := simpleAction_checked p h ht
      have httl : (ipHeader q).ipTtl.toNat+1 = (ipHeader p).ipTtl.toNat := by
        have hb := (ipHeader p).ipTtl.toNat_lt
        rw [hheader]
        change ((ipHeader p).ipTtl-1).toNat+1 = _
        rw [UInt8.toNat_sub, UInt8.toNat_one]
        omega
      have hhops : hops (k+1) p = hops k q := by
        rw [hops, hsent]
        rfl
      obtain ⟨hsome, hrest⟩ := ih q hq
      rw [hhops]
      refine ⟨by rw [hsome]; omega, ?_⟩
      intro r hr
      obtain ⟨hchecked, hlife, ⟨ttl, sum, hflow⟩, hro, hrp, herr⟩ := hrest r hr
      refine ⟨hchecked, by omega, ⟨ttl, sum, ?_⟩, hro.trans hopts, hrp.trans hpay, ?_⟩
      · rw [hflow, hheader]
        rfl
      · rw [herr]
        omega
    · have hhops : hops (k+1) p = none := by
        rw [hops]
        unfold simpleAction
        rw [if_pos ht]
        rfl
      rw [hhops]
      refine ⟨?_, fun q hq => by cases hq⟩
      simp only [Option.isSome_none, Bool.false_eq_true, false_iff]
      omega

theorem datagram_over_hops :
    let p := Deployment.datagram 1 [8, 0, 0xf7, 0xfd, 0, 1, 0, 1]
    ∃ q, hops 63 p = some q ∧ Checked q ∧ simpleAction q = [.forward 1 q] := by
  intro p
  have h : Checked p := ⟨by decide, by decide, by decide, by decide, by decide⟩
  have hrun := checked_over_hops p h 63
  have hsome := hrun.1.mpr (Or.inr (by decide))
  obtain ⟨q, hq⟩ := Option.isSome_iff_exists.mp hsome
  obtain ⟨hchecked, -, -, -, -, herr⟩ := hrun.2 q hq
  exact ⟨q, hq, hchecked, herr.mpr (by decide)⟩

end DecIPTTL

end MobileIP
