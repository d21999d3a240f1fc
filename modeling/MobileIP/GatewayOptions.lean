import MobileIP.Forwarding

/-! `IPGWOptions`: a gateway records its address and the time in the record-route and
timestamp options of a packet that passes, and refuses options that do not parse. -/
namespace MobileIP

open LittleEndian OnesComplement

/-- `memcpy(d + i, b, length of b)`. -/
def overwrite (d : Bytes) (i : ℕ) (b : Bytes) : Bytes := d.take i ++ (b ++ d.drop (i+b.length))

structure IPGWOptions where
  preferredAddr : IPAddress
  myAddrs : List IPAddress

namespace IPGWOptions

/-- Where the loop stands: the packet data, whether it has been written to, and the offset of
the option. -/
structure Walk where
  oa : Bytes
  written : Bool
  oi : ℕ

/-- `send_error` at an offset, which becomes the pointer of the parameter problem. -/
structure ParamProblem where
  oa : Bytes
  oi : ℕ

def recordRoute (g : IPGWOptions) (w : Walk) (xlen : ℕ) : Except ParamProblem Walk :=
  -- the pointer is 1-origin: the source's `p` is one less
  let ptr := (byteAt w.oa (w.oi+2)).toNat
  if 4 ≤ ptr ∧ ptr+3 ≤ xlen then
    let oa := overwrite w.oa (w.oi+(ptr-1)) (le32 g.preferredAddr)
    .ok ⟨overwrite oa (w.oi+2) [byteAt oa (w.oi+2)+4], true, w.oi+xlen⟩
  else if ptr ≠ xlen+1 then .error ⟨w.oa, w.oi+2⟩
  else .ok ⟨w.oa, true, w.oi+xlen⟩

/-- An overflow of the timestamp option is counted in the high half of its fourth byte. -/
def overflowed (w : Walk) (xlen oflw flg : ℕ) : Except ParamProblem Walk :=
  if oflw < 15 then
    .ok ⟨overwrite w.oa (w.oi+3) [UInt8.ofNat ((oflw+1)*16+flg)], true, w.oi+xlen⟩
  else .error ⟨w.oa, w.oi+3⟩

def timestamp (g : IPGWOptions) (ms : UInt32) (w : Walk) (xlen : ℕ) : Except ParamProblem Walk :=
  let ptr := (byteAt w.oa (w.oi+2)).toNat
  let oflw := (byteAt w.oa (w.oi+3)).toNat/16
  let flg := (byteAt w.oa (w.oi+3)).toNat%16
  let p := ptr-1
  let advance (oa : Bytes) (n : UInt8) : Except ParamProblem Walk :=
    .ok ⟨overwrite oa (w.oi+2) [byteAt oa (w.oi+2)+n], true, w.oi+xlen⟩
  if ptr < 5 then .error ⟨w.oa, w.oi+2⟩
  else if flg = 0 then
    if p+4 ≤ xlen then advance (overwrite w.oa (w.oi+p) (le32 ms)) 4
    else overflowed w xlen oflw flg
  else if flg = 1 then
    if p+8 ≤ xlen then
      advance (overwrite (overwrite w.oa (w.oi+p) (le32 g.preferredAddr)) (w.oi+p+4) (le32 ms)) 8
    else overflowed w xlen oflw flg
  else if flg = 3 ∧ p+8 ≤ xlen then
    if g.myAddrs.contains (u32At w.oa (w.oi+p)) then advance (overwrite w.oa (w.oi+p+4) (le32 ms)) 8
    else .ok ⟨w.oa, true, w.oi+xlen⟩
  else .error ⟨w.oa, w.oi+3⟩

/-- The loop of `handle_options`. Every turn moves on by at least one byte, so the length of
the header is enough fuel. -/
def optionLoop (g : IPGWOptions) (ms : UInt32) (hlen : ℕ) : ℕ → Walk → Except ParamProblem Walk
  | 0, w => .ok w
  | fuel+1, w =>
    if hlen ≤ w.oi then .ok w
    else
      let type := byteAt w.oa w.oi
      let xlen := (byteAt w.oa (w.oi+1)).toNat
      if type = 1 then optionLoop g ms hlen fuel { w with oi := w.oi+1 }
      else if type = 0 then .ok w
      else if xlen < 2 ∨ hlen < w.oi+xlen then .error ⟨w.oa, w.oi+1⟩
      else
        match (if type = 7 then recordRoute g w xlen
          else if type = 68 then timestamp g ms w xlen
          else .ok { w with oi := w.oi+xlen }) with
        | .error e => .error e
        | .ok w' => optionLoop g ms hlen fuel w'

/-- `simple_action`: the packet with its checksum renewed if an option was handled, or the
packet and the offset for the error output. -/
def simpleAction (g : IPGWOptions) (ms : UInt32) (p : Packet) : Except (Packet × ℕ) Packet :=
  let hlen := headerLength p
  if hlen ≤ sizeofClickIp then .ok p
  else
    match optionLoop g ms hlen hlen ⟨p.data, false, sizeofClickIp⟩ with
    | .error e => .error ({ p with data := e.oa }, e.oi)
    | .ok w =>
      let q : Packet := { p with data := w.oa }
      .ok (if w.written then q.setHeader (ClickIp.resum (ipHeader q) (ipOptions q)) else q)

end IPGWOptions

theorem length_overwrite (d : Bytes) (i : ℕ) (b : Bytes) (h : i+b.length ≤ d.length) :
    (overwrite d i b).length = d.length := by
  unfold overwrite
  rw [List.length_append, List.length_append, List.length_take, List.length_drop]
  omega

theorem take_overwrite (d : Bytes) (i k : ℕ) (b : Bytes) (hk : k ≤ i) (hi : i ≤ d.length) :
    (overwrite d i b).take k = d.take k := by
  unfold overwrite
  rw [List.take_append_of_le_length (by rw [List.length_take]; omega), List.take_take,
    Nat.min_eq_left hk]

theorem drop_overwrite (d : Bytes) (i k : ℕ) (b : Bytes) (hk : i+b.length ≤ k) (hi : i ≤ d.length) :
    (overwrite d i b).drop k = d.drop k := by
  obtain ⟨n, rfl⟩ : ∃ n, k = i+b.length+n := ⟨k-(i+b.length), by omega⟩
  unfold overwrite
  rw [← List.append_assoc, ← List.drop_drop,
    List.drop_left' (by rw [List.length_append, List.length_take, Nat.min_eq_left hi]),
    List.drop_drop]

theorem byteAt_of_drop_eq (d e : Bytes) (k i : ℕ) (h : d.drop k = e.drop k) (hi : k ≤ i) :
    byteAt d i = byteAt e i := by
  obtain ⟨n, rfl⟩ : ∃ n, i = k+n := ⟨i-k, by omega⟩
  have hd : (d.drop k)[n]? = d[k+n]? := List.getElem?_drop
  have he : (e.drop k)[n]? = e[k+n]? := List.getElem?_drop
  unfold byteAt
  rw [List.getD_eq_getElem?_getD, List.getD_eq_getElem?_getD, ← hd, ← he, h]

namespace IPGWOptions

/-- A timestamp option of less than four bytes among the options from `oi` on, as the loop
walks over them. -/
def shortTimestamp (hlen : ℕ) (d : Bytes) : ℕ → ℕ → Bool
  | 0, _ => false
  | fuel+1, oi =>
    let type := byteAt d oi
    let xlen := (byteAt d (oi+1)).toNat
    if hlen ≤ oi then false
    else if type = 1 then shortTimestamp hlen d fuel (oi+1)
    else if type = 0 ∨ xlen < 2 ∨ hlen < oi+xlen then false
    else (type == 68 && decide (xlen < 4)) || shortTimestamp hlen d fuel (oi+xlen)

/-- Between the end of the fixed header and the end of the options anything may have been
written, but nothing at or behind the option that comes next. -/
structure Frame (d : Bytes) (hlen : ℕ) (oa : Bytes) (oi : ℕ) : Prop where
  length : oa.length = d.length
  front : oa.take 20 = d.take 20
  rest : oa.drop oi = d.drop oi
  lower : 20 ≤ oi
  upper : oi ≤ hlen
  inside : hlen ≤ d.length

theorem Frame.write {d : Bytes} {hlen oi : ℕ} {oa : Bytes} (h : Frame d hlen oa oi) (xlen : ℕ)
    (hx : oi+xlen ≤ hlen) : Frame d hlen oa (oi+xlen) where
  length := h.length
  front := h.front
  rest := by rw [← List.drop_drop, ← List.drop_drop, h.rest]
  lower := Nat.le_add_right_of_le h.lower
  upper := hx
  inside := h.inside

/-- A write within the option keeps the frame at the option's end. -/
theorem Frame.overwrite {d : Bytes} {hlen oi : ℕ} {oa : Bytes} (h : Frame d hlen oa oi) (i : ℕ)
    (b : Bytes) (hi : 20 ≤ i) (hb : i+b.length ≤ oi) : Frame d hlen (overwrite oa i b) oi := by
  have hlen' := h.length
  have hup := h.upper
  have hin := h.inside
  refine ⟨?_, ?_, ?_, h.lower, h.upper, h.inside⟩
  · rw [length_overwrite oa i b (by omega), h.length]
  · rw [take_overwrite oa i 20 b hi (by omega), h.front]
  · rw [drop_overwrite oa i oi b hb (by omega), h.rest]

theorem recordRoute_frame (g : IPGWOptions) {d : Bytes} {hlen xlen : ℕ} {w w' : Walk}
    (h : Frame d hlen w.oa w.oi) (hx : w.oi+xlen ≤ hlen) (hok : recordRoute g w xlen = .ok w') :
    Frame d hlen w'.oa w'.oi ∧ w'.oi = w.oi+xlen := by
  have hend := h.write xlen hx
  have hlow := h.lower
  unfold recordRoute at hok
  dsimp only at hok
  split_ifs at hok with hroom hfull
  · obtain rfl := Except.ok.inj hok
    have hwritten := hend.overwrite (w.oi+((byteAt w.oa (w.oi+2)).toNat-1)) (le32 g.preferredAddr)
      (by omega) (by change _+4 ≤ _; omega)
    exact ⟨hwritten.overwrite _ _ (by omega) (by change _+1 ≤ _; omega), rfl⟩
  · obtain rfl := Except.ok.inj hok
    exact ⟨hend, rfl⟩

theorem timestamp_frame (g : IPGWOptions) (ms : UInt32) {d : Bytes} {hlen xlen : ℕ} {w w' : Walk}
    (h : Frame d hlen w.oa w.oi) (hx : w.oi+xlen ≤ hlen) (h4 : 4 ≤ xlen)
    (hok : timestamp g ms w xlen = .ok w') :
    Frame d hlen w'.oa w'.oi ∧ w'.oi = w.oi+xlen := by
  have hend := h.write xlen hx
  have hlow := h.lower
  have hover (oflw flg : ℕ) (hok : overflowed w xlen oflw flg = .ok w') :
      Frame d hlen w'.oa w'.oi ∧ w'.oi = w.oi+xlen := by
    unfold overflowed at hok
    split_ifs at hok
    obtain rfl := Except.ok.inj hok
    exact ⟨hend.overwrite _ _ (by omega) (by change _+1 ≤ _; omega), rfl⟩
  have hadvance (oa : Bytes) (n : UInt8) (hoa : Frame d hlen oa (w.oi+xlen))
      (hok : (.ok ⟨overwrite oa (w.oi+2) [byteAt oa (w.oi+2)+n], true, w.oi+xlen⟩ :
        Except ParamProblem Walk) = .ok w') : Frame d hlen w'.oa w'.oi ∧ w'.oi = w.oi+xlen := by
    obtain rfl := Except.ok.inj hok
    exact ⟨hoa.overwrite _ _ (by omega) (by change _+1 ≤ _; omega), rfl⟩
  unfold timestamp at hok
  dsimp only at hok
  split_ifs at hok with h5 h0 h0' h1 h1' h3 h3'
  · exact hadvance _ _ (hend.overwrite _ _ (by omega) (by change _+4 ≤ _; omega)) hok
  · exact hover _ _ hok
  · exact hadvance _ _ ((hend.overwrite _ _ (by omega) (by change _+4 ≤ _; omega)).overwrite _ _
      (by omega) (by change _+4 ≤ _; omega)) hok
  · exact hover _ _ hok
  · exact hadvance _ _ (hend.overwrite _ _ (by omega) (by change _+4 ≤ _; omega)) hok
  · obtain rfl := Except.ok.inj hok
    exact ⟨hend, rfl⟩

/-- The loop writes between the fixed header and the payload only, unless a timestamp option
is too short to hold its own flags. -/
theorem optionLoop_frame (g : IPGWOptions) (ms : UInt32) {d : Bytes} {hlen : ℕ} (fuel : ℕ)
    {w w' : Walk} (h : Frame d hlen w.oa w.oi) (hshort : shortTimestamp hlen d fuel w.oi = false)
    (hok : optionLoop g ms hlen fuel w = .ok w') : Frame d hlen w'.oa w'.oi := by
  induction fuel generalizing w with
  | zero =>
    obtain rfl := Except.ok.inj hok
    exact h
  | succ fuel ih =>
    have htype := byteAt_of_drop_eq w.oa d w.oi w.oi h.rest (Nat.le_refl _)
    have hxlen := byteAt_of_drop_eq w.oa d w.oi (w.oi+1) h.rest (Nat.le_succ _)
    rw [optionLoop] at hok
    rw [shortTimestamp] at hshort
    dsimp only at hok hshort
    rw [htype, hxlen] at hok
    by_cases hend : hlen ≤ w.oi
    · rw [if_pos hend] at hok
      obtain rfl := Except.ok.inj hok
      exact h
    rw [if_neg hend] at hok hshort
    by_cases hnop : byteAt d w.oi = 1
    · rw [if_pos hnop] at hok hshort
      exact ih (h.write 1 (by omega)) hshort hok
    rw [if_neg hnop] at hok hshort
    by_cases heol : byteAt d w.oi = 0
    · rw [if_pos heol] at hok
      obtain rfl := Except.ok.inj hok
      exact h
    rw [if_neg heol] at hok
    by_cases hbad : (byteAt d (w.oi+1)).toNat < 2 ∨ hlen < w.oi+(byteAt d (w.oi+1)).toNat
    · rw [if_pos hbad] at hok
      cases hok
    rw [if_neg hbad] at hok
    rw [if_neg (by rintro (h0 | h0); exacts [heol h0, hbad h0]), Bool.or_eq_false_iff] at hshort
    obtain ⟨h2, hfit⟩ := not_or.mp hbad
    have hfit := Nat.le_of_not_lt hfit
    -- the three kinds of options end where the next one begins
    have hnext (r : Except ParamProblem Walk)
        (hok : (match r with
          | .error e => .error e
          | .ok v => optionLoop g ms hlen fuel v) = (.ok w' : Except ParamProblem Walk))
        (hr : ∀ v, r = .ok v → Frame d hlen v.oa v.oi ∧ v.oi = w.oi+(byteAt d (w.oi+1)).toNat) :
        Frame d hlen w'.oa w'.oi := by
      cases r with
      | error e => cases hok
      | ok v =>
        obtain ⟨hframe, hoi⟩ := hr v rfl
        exact ih hframe (by rw [hoi]; exact hshort.2) hok
    split_ifs at hok with h7 h68
    · exact hnext _ hok (fun v hv => recordRoute_frame g h hfit hv)
    · have h4 : 4 ≤ (byteAt d (w.oi+1)).toNat := by
        have hno := hshort.1
        rw [h68, beq_self_eq_true, Bool.true_and, decide_eq_false_iff_not] at hno
        omega
      exact hnext _ hok (fun v hv => timestamp_frame g ms h hfit h4 hv)
    · refine hnext (.ok { w with oi := w.oi+(byteAt d (w.oi+1)).toNat }) hok (fun v hv => ?_)
      obtain rfl := Except.ok.inj hv
      exact ⟨h.write _ hfit, rfl⟩

/-- A walk that has written nothing returns the packet as it was. -/
theorem optionLoop_unwritten (g : IPGWOptions) (ms : UInt32) (hlen fuel : ℕ) {w w' : Walk}
    (hok : optionLoop g ms hlen fuel w = .ok w') (hw : w'.written = false) :
    w.written = false ∧ w'.oa = w.oa := by
  induction fuel generalizing w with
  | zero =>
    obtain rfl := Except.ok.inj hok
    exact ⟨hw, rfl⟩
  | succ fuel ih =>
    rw [optionLoop] at hok
    dsimp only at hok
    -- an option that is handled marks the packet as written
    have hmarks (v : Walk) (xlen : ℕ) :
        (recordRoute g w xlen = .ok v ∨ timestamp g ms w xlen = .ok v) → v.written = true := by
      rintro (hv | hv)
      · unfold recordRoute at hv
        dsimp only at hv
        split_ifs at hv <;> (obtain rfl := Except.ok.inj hv; rfl)
      · unfold timestamp overflowed at hv
        dsimp only at hv
        split_ifs at hv <;> (obtain rfl := Except.ok.inj hv; rfl)
    split_ifs at hok with hend hnop heol hbad h7 h68
    · obtain rfl := Except.ok.inj hok
      exact ⟨hw, rfl⟩
    · obtain ⟨hunwritten, hsame⟩ := ih hok
      exact ⟨hunwritten, hsame⟩
    · obtain rfl := Except.ok.inj hok
      exact ⟨hw, rfl⟩
    · split at hok
      · cases hok
      · next v hv =>
        have hv' := (ih hok).1
        rw [hmarks v _ (Or.inl hv)] at hv'
        cases hv'
    · split at hok
      · cases hok
      · next v hv =>
        have hv' := (ih hok).1
        rw [hmarks v _ (Or.inr hv)] at hv'
        cases hv'
    · obtain ⟨hunwritten, hsame⟩ := ih (w := { w with oi := w.oi+(byteAt w.oa (w.oi+1)).toNat }) hok
      exact ⟨hunwritten, hsame⟩

/-- A packet that passes the gateway still passes the header check, whatever was recorded in
its options: neither its payload nor any header field but the checksum has changed. The
exception are timestamp options of less than four bytes, of which the overflow count is
written behind the option. -/
theorem simpleAction_keeps (g : IPGWOptions) (ms : UInt32) (p q : Packet) (h : Checked p)
    (hshort : shortTimestamp (headerLength p) p.data (headerLength p) 20 = false)
    (hok : simpleAction g ms p = .ok q) :
    Checked q ∧ ipPayload q = ipPayload p ∧ (ipOptions q).length = (ipOptions p).length ∧
      q.dstIpAnno = p.dstIpAnno ∧ ∃ sum, ipHeader q = { ipHeader p with ipSum := sum } := by
  unfold simpleAction at hok
  dsimp only at hok
  split_ifs at hok with hno
  · obtain rfl := Except.ok.inj hok
    exact ⟨h, rfl, rfl, rfl, _, rfl⟩
  · cases hloop : optionLoop g ms (headerLength p) (headerLength p) ⟨p.data, false, sizeofClickIp⟩ with
    | error e =>
      rw [hloop] at hok
      cases hok
    | ok w =>
      rw [hloop] at hok
      have hstart : Frame p.data (headerLength p) p.data 20 :=
        ⟨rfl, rfl, rfl, Nat.le_refl 20, h.twenty_le, h.header_le⟩
      have hframe := optionLoop_frame g ms (headerLength p) hstart hshort hloop
      have hlen20 : 20 ≤ w.oa.length := by
        rw [hframe.length]
        exact h.length
      -- the fixed header is as it was, and so are the lengths
      have hheader : ipHeader ({ p with data := w.oa } : Packet) = ipHeader p := by
        apply ClickIp.toBytes_injective
        unfold ipHeader
        rw [ClickIp.toBytes_ofBytes _ hlen20, ClickIp.toBytes_ofBytes _ h.length, hframe.front]
      have hhl : headerLength ({ p with data := w.oa } : Packet) = headerLength p := by
        unfold headerLength
        rw [hheader]
      have hpay : ipPayload ({ p with data := w.oa } : Packet) = ipPayload p := by
        have hdrop := (hframe.write (headerLength p-w.oi) (by have := hframe.upper; omega)).rest
        rw [Nat.add_sub_cancel' hframe.upper] at hdrop
        unfold ipPayload
        rw [hhl, hdrop]
      have hopts : (ipOptions ({ p with data := w.oa } : Packet)).length = (ipOptions p).length := by
        rw [length_ipOptions p h.header_le, length_ipOptions _ (by
          rw [hhl]
          change _ ≤ w.oa.length
          rw [hframe.length]
          exact h.header_le), hhl]
      have hqdef := (Except.ok.inj hok).symm
      cases hwritten : w.written with
      | false =>
        obtain ⟨-, hsame⟩ := optionLoop_unwritten g ms _ _ hloop hwritten
        rw [hwritten, if_neg Bool.false_ne_true, hsame] at hqdef
        rw [hqdef]
        exact ⟨h, rfl, rfl, rfl, _, rfl⟩
      | true =>
        rw [hwritten, if_pos rfl] at hqdef
        let p' : Packet := { p with data := w.oa }
        have hset := options_payload_setHeader p' (ClickIp.resum (ipHeader p') (ipOptions p')) rfl
          (by rw [hhl]; exact h.twenty_le)
        have hlength := length_setHeader p' (ClickIp.resum (ipHeader p') (ipOptions p')) hlen20
        have h40 := headerLength_lt p
        have hoptlen := length_ipOptions p h.header_le
        rw [hqdef]
        refine ⟨⟨?_, ?_, ?_, ?_, ?_⟩, ?_, ?_, rfl, ?_⟩
        · rw [ipHeader_setHeader]
          change (ipHeader p').ipV = 4
          rw [hheader]
          exact h.version
        · rw [ipHeader_setHeader]
          change 5 ≤ (ipHeader p').ipHl.toNat
          rw [hheader]
          exact h.header
        · rw [hset.1, hlength, hhl]
          change _ ≤ w.oa.length
          rw [hframe.length]
          exact h.header_le
        · rw [ipHeader_setHeader, hlength]
          change (ntohs (ipHeader p').ipLen).toNat = w.oa.length
          rw [hheader, hframe.length]
          exact h.total
        · rw [take_header _ (by rw [hlength]; exact hlen20) (by rw [hset.1, hhl]; exact h.twenty_le),
            ipHeader_setHeader, hset.2.1]
          exact clickInCksum_resum _ _ (by rw [hopts]; omega)
        · rw [hset.2.2, hpay]
        · rw [hset.2.1, hopts]
        · refine ⟨clickInCksum ({ ipHeader p with ipSum := 0 }.toBytes ++ ipOptions p'), ?_⟩
          rw [ipHeader_setHeader]
          unfold ClickIp.resum
          rw [hheader]

end IPGWOptions

/-- A datagram with options, from the corresponding node to the mobile node. -/
def Deployment.optioned (opts payload : Bytes) : Packet where
  data := (ClickIp.resum
    { ipV := 4
      ipHl := BitVec.ofNat 4 (5+opts.length/4)
      ipTos := 0
      ipLen := htons (UInt16.ofNat (20+opts.length+payload.length))
      ipId := 0
      ipOff := 0
      ipTtl := 64
      ipP := 1
      ipSum := 0
      ipSrc := correspondingNodeAddress
      ipDst := mobileNodeAddress } opts).toBytes ++ (opts ++ payload)
  dstIpAnno := mobileNodeAddress

def Deployment.homeGateway : IPGWOptions := ⟨homeAgentPrivateAddress, [homeAgentPrivateAddress]⟩

namespace IPGWOptions

-- a record-route option with room for one address
example :
    let p := Deployment.optioned [7, 7, 4, 0, 0, 0, 0, 1] [9, 9]
    (match simpleAction Deployment.homeGateway 0 p with
      | .ok q => (ipOptions q, ipPayload q)
      | .error _ => ([], [])) = ([7, 7, 8, 192, 168, 2, 254, 1], [9, 9]) := by decide

-- a timestamp option of two bytes at the end of the header: its overflow is counted in the payload
example :
    let p := Deployment.optioned [1, 1, 68, 2] [5, 0, 9, 9]
    (match simpleAction Deployment.homeGateway 0 p with
      | .ok q => ipPayload q
      | .error _ => []) = [5, 16, 9, 9] := by decide

end IPGWOptions

end MobileIP
