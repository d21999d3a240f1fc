import MobileIP.ARPInvariant
import MobileIP.Library.Runs

/-! `ARPQuerier` puts an Ethernet header in front of IP packets. It asks for the addresses that it
does not know and keeps the packets until the answer comes; `ARPResponder` answers. -/
namespace MobileIP

open LittleEndian

structure ClickEther where
  etherDhost : EtherAddress
  etherShost : EtherAddress
  etherType : UInt16
  deriving DecidableEq, Repr

structure ClickEtherArp where
  arHrd : UInt16
  arPro : UInt16
  arHln : UInt8
  arPln : UInt8
  arOp : UInt16
  arpSha : EtherAddress
  arpSpa : IPAddress
  arpTha : EtherAddress
  arpTpa : IPAddress
  deriving DecidableEq, Repr

def sizeofClickEtherArp : ℕ := 28

def EtherAddress.toBytes (e : EtherAddress) : Bytes := le16 e.d0 ++ (le16 e.d1 ++ le16 e.d2)

def EtherAddress.readAt (d : Bytes) (i : ℕ) : EtherAddress := ⟨u16At d i, u16At d (i+2), u16At d (i+4)⟩

def ClickEther.toBytes (h : ClickEther) : Bytes :=
  h.etherDhost.toBytes ++ (h.etherShost.toBytes ++ le16 h.etherType)

def ClickEther.ofBytes (d : Bytes) : ClickEther := ⟨EtherAddress.readAt d 0, EtherAddress.readAt d 6, u16At d 12⟩

def ClickEtherArp.toBytes (h : ClickEtherArp) : Bytes :=
  le16 h.arHrd ++ (le16 h.arPro ++ (h.arHln :: h.arPln :: (le16 h.arOp ++ (h.arpSha.toBytes ++
    (le32 h.arpSpa ++ (h.arpTha.toBytes ++ le32 h.arpTpa))))))

def ClickEtherArp.ofBytes (d : Bytes) : ClickEtherArp where
  arHrd := u16At d 0
  arPro := u16At d 2
  arHln := byteAt d 4
  arPln := byteAt d 5
  arOp := u16At d 6
  arpSha := EtherAddress.readAt d 8
  arpSpa := u32At d 14
  arpTha := EtherAddress.readAt d 18
  arpTpa := u32At d 24

/-- A frame with an ARP message, as both elements make it. -/
def arpFrame (dhost shost : EtherAddress) (op : UInt16) (sha : EtherAddress) (spa : IPAddress)
    (tha : EtherAddress) (tpa : IPAddress) : Bytes :=
  ClickEther.toBytes ⟨dhost, shost, htons 0x0806⟩ ++
    ClickEtherArp.toBytes ⟨htons 1, htons 0x0800, 6, 4, htons op, sha, spa, tha, tpa⟩

/-- The tests that the elements share: a frame with an ARP message for IP over Ethernet. -/
def isArp (op : UInt16) (d : Bytes) : Bool :=
  let e := ClickEther.ofBytes d
  let ea := ClickEtherArp.ofBytes (d.drop sizeofClickEther)
  decide (sizeofClickEther+sizeofClickEtherArp ≤ d.length) && e.etherType == htons 0x0806 &&
    ea.arHrd == htons 1 && ea.arPro == htons 0x0800 && ea.arOp == htons op

structure ARPQuerier where
  arpt : ARPConfig
  myIp : IPAddress
  myEn : EtherAddress
  myBcastIp : IPAddress
  broadcastPoll : Bool
  pollTimeout : UInt32

/-- The table and the counters of the element. -/
structure ARPState where
  table : ARPTable
  arpQueries : UInt32
  arpResponses : UInt32
  drops : UInt32
  deriving DecidableEq, Repr

/-- What the element does, in order of occurrence. -/
inductive ARPEvent where
  -- `output(0).push` of a packet behind a header for `dst`
  | sent (dst : EtherAddress) (p : Packet)
  -- `output(noutputs() - 1).push` of a query
  | asked (frame : Bytes)
  | killed (p : Packet)
  -- `append_query` has found that the address is not known
  | unknown (now : UInt32) (ip : IPAddress)
  deriving DecidableEq, Repr

namespace IPAddress

def isMulticast (ip : IPAddress) : Bool := ip &&& htonl 0xF0000000 == htonl 0xE0000000

end IPAddress

/-- The Ethernet address of a multicast group: 01-00-5E and the low 23 bits. -/
def multicastEther (ip : IPAddress) : EtherAddress :=
  EtherAddress.readAt [1, 0, 0x5E, byteAt (le32 ip) 1 &&& 0x7F, byteAt (le32 ip) 2, byteAt (le32 ip) 3] 0

namespace ARPQuerier

/-- `configure` without keywords: the table has its own defaults. -/
def configure (myIp myMask : IPAddress) (myEn : EtherAddress) : ARPQuerier where
  arpt := ⟨0, 2048, 0, 2, 300*clickHz, Nat.zero_lt_two⟩
  myIp := myIp
  myEn := myEn
  myBcastIp := if myIp ||| ~~~myMask = myIp then 0xFFFFFFFF else myIp ||| ~~~myMask
  broadcastPoll := false
  pollTimeout := 60*clickHz

def start : ARPState := ⟨ARPTable.empty, 0, 0, 0⟩

/-- `send_query_for` a packet, of which the destination is known or not. -/
def queryFor (q : ARPQuerier) (dhost : Option EtherAddress) (wantIp : IPAddress) : Bytes :=
  let target := match dhost with
    | some e => if q.broadcastPoll then EtherAddress.makeBroadcast else e
    | none => EtherAddress.makeBroadcast
  arpFrame target q.myEn 1 q.myEn q.myIp ⟨0, 0, 0⟩ wantIp

/-- `handle_ip`. The fuel is for the jumps back to `retry_read_lock`. -/
def handleIpLoop (q : ARPQuerier) (now : UInt32) : ℕ → ARPState → Packet → ARPState × List ARPEvent
  | 0, s, _ => (s, [])
  | fuel+1, s, p =>
    let dstIp := p.dstIpAnno
    match ARPTable.lookup q.arpt now s.table dstIp q.pollTimeout with
    | (t, some (eth, true)) =>
      ({ s with table := t, arpQueries := s.arpQueries+1 },
        [.asked (queryFor q (some eth) dstIp), .sent eth p])
    | (t, some (eth, false)) => ({ s with table := t }, [.sent eth p])
    | (t, none) =>
      if dstIp = 0xFFFFFFFF ∨ dstIp = q.myBcastIp then
        ({ s with table := t }, [.sent EtherAddress.makeBroadcast p])
      else if IPAddress.isMulticast dstIp then ({ s with table := t }, [.sent (multicastEther dstIp) p])
      else if dstIp = 0 then ({ s with table := t, drops := s.drops+1 }, [.killed p])
      else
        match ARPTable.appendQuery q.arpt now t dstIp p with
        | (t, killed, .again) =>
          let r := handleIpLoop q now fuel { s with table := t } p
          (r.1, killed.map .killed ++ r.2)
        | (t, killed, .full) =>
          ({ s with table := t }, killed.map .killed ++ [.unknown now dstIp, .killed p])
        | (t, killed, .queued true) =>
          ({ s with table := t, arpQueries := s.arpQueries+1 },
            killed.map .killed ++ [.unknown now dstIp, .asked (queryFor q none dstIp)])
        | (t, killed, .queued false) => ({ s with table := t }, killed.map .killed ++ [.unknown now dstIp])

def handleIp (q : ARPQuerier) (now : UInt32) (s : ARPState) (p : Packet) : ARPState × List ARPEvent :=
  if q.myIp = 0 then ({ s with drops := s.drops+1 }, [.killed p])
  else handleIpLoop q now 2 s p

/-- The address that an ARP reply brings, and whose it is. -/
def replyOf (frame : Bytes) : Option (IPAddress × EtherAddress) :=
  let ea := ClickEtherArp.ofBytes (frame.drop sizeofClickEther)
  if isArp 2 frame ∧ !ea.arpSha.isGroup then some (ea.arpSpa, ea.arpSha) else none

def handleResponse (q : ARPQuerier) (now : UInt32) (s : ARPState) (frame : Bytes) :
    ARPState × List ARPEvent :=
  if frame.length < sizeofClickEther+sizeofClickEtherArp then (s, [])
  else
    let s := { s with arpResponses := s.arpResponses+1 }
    match replyOf frame with
    | none => (s, [])
    | some (ipa, ena) =>
      let r := ARPTable.insert q.arpt now s.table ipa ena
      let t := ARPTable.takeQueue r.1 ipa
      let s := { s with table := t.1 }
      (Runs.final (handleIp q now) s t.2, r.2.map .killed ++ Runs.trace (handleIp q now) s t.2)

inductive Input where
  -- the two inputs
  | ip (now : UInt32) (p : Packet)
  | response (now : UInt32) (frame : Bytes)
  -- the timer of the table
  | timer (now : UInt32)
  -- the handlers
  | insert (now : UInt32) (ip : IPAddress) (eth : EtherAddress)
  | delete (now : UInt32) (ip : IPAddress)
  | clear
  deriving DecidableEq, Repr

def step (q : ARPQuerier) (s : ARPState) : Input → ARPState × List ARPEvent
  | .ip now p => handleIp q now s p
  | .response now frame => handleResponse q now s frame
  | .timer now =>
    let r := ARPTable.slim q.arpt now s.table
    ({ s with table := r.1 }, r.2.map .killed)
  | .insert now ip eth =>
    let r := ARPTable.insert q.arpt now s.table ip eth
    ({ s with table := r.1 }, r.2.map .killed)
  | .delete now ip =>
    let r := ARPTable.insert q.arpt now s.table ip EtherAddress.makeBroadcast
    ({ s with table := r.1 }, r.2.map .killed)
  | .clear =>
    let r := s.table.clear
    (⟨r.1, 0, 0, 0⟩, r.2.map .killed)

end ARPQuerier

namespace ARPResponder

structure Entry where
  dst : IPAddress
  mask : IPAddress
  ena : EtherAddress
  deriving DecidableEq, Repr

def lookup (v : List Entry) (addr : IPAddress) : Option EtherAddress :=
  (v.find? (fun e => addr &&& e.mask == e.dst)).map Entry.ena

/-- `simple_action`: the answer, or the frame itself for the second output. -/
def simpleAction (v : List Entry) (frame : Bytes) : Except Bytes Bytes :=
  let ea := ClickEtherArp.ofBytes (frame.drop sizeofClickEther)
  if isArp 1 frame then
    match lookup v ea.arpTpa with
    | some ena => .ok (arpFrame ea.arpSha ena 2 ena ea.arpTpa ea.arpSha ea.arpSpa)
    | none => .error frame
  else .error frame

end ARPResponder

@[simp] theorem EtherAddress.readAt_toBytes (e : EtherAddress) (d : Bytes) :
    EtherAddress.readAt (e.toBytes ++ d) 0 = e := by
  simp [EtherAddress.readAt, EtherAddress.toBytes]

@[simp] theorem EtherAddress.length_toBytes (e : EtherAddress) : e.toBytes.length = 6 := rfl

@[simp] theorem ClickEther.ofBytes_toBytes (h : ClickEther) (d : Bytes) :
    ClickEther.ofBytes (h.toBytes ++ d) = h := by
  simp [ClickEther.ofBytes, ClickEther.toBytes, EtherAddress.readAt, EtherAddress.toBytes]

@[simp] theorem ClickEtherArp.ofBytes_toBytes (h : ClickEtherArp) (d : Bytes) :
    ClickEtherArp.ofBytes (h.toBytes ++ d) = h := by
  simp [ClickEtherArp.ofBytes, ClickEtherArp.toBytes, EtherAddress.readAt, EtherAddress.toBytes]

end MobileIP
