import MobileIP.Packet

/-! The table of Ethernet addresses that `ARPQuerier` keeps. An entry holds an address, or the
packets that wait for it; the entries stand in the order in which they expire. -/
namespace MobileIP

open LittleEndian

structure EtherAddress where
  -- the three halfwords `_data`
  d0 : UInt16
  d1 : UInt16
  d2 : UInt16
  deriving DecidableEq, Repr

namespace EtherAddress

def makeBroadcast : EtherAddress := ⟨0xFFFF, 0xFFFF, 0xFFFF⟩

def isBroadcast (e : EtherAddress) : Bool := e.d0.toNat+e.d1.toNat+e.d2.toNat == 0x2FFFD

/-- The low bit of the first byte. -/
def isGroup (e : EtherAddress) : Bool := e.d0.toNat%2 == 1

end EtherAddress

/-- `click_jiffies_less`: the difference is negative as a signed number. -/
def jiffiesLess (a b : UInt32) : Bool := decide (0x80000000 ≤ (a-b).toNat)

def clickHz : UInt32 := 1000

/-- The two pointers into the chain of packets are a list, from `_head` to `_tail`. -/
structure ARPEntry where
  ip : IPAddress
  eth : EtherAddress
  isKnown : Bool
  numPollsSinceReply : UInt8
  liveAt : UInt32
  polledAt : UInt32
  queue : List Packet
  entryPacketCount : ℕ
  deriving DecidableEq, Repr

namespace ARPEntry

/-- The entry that `ensure` makes. -/
def new (ip : IPAddress) (now : UInt32) : ARPEntry :=
  ⟨ip, EtherAddress.makeBroadcast, false, 0, now, now-clickHz, [], 0⟩

def expired (ae : ARPEntry) (now timeout : UInt32) : Bool :=
  jiffiesLess (ae.liveAt+timeout) now && timeout != 0

def known (ae : ARPEntry) (now timeout : UInt32) : Bool := ae.isKnown && !ae.expired now timeout

def allowPoll (ae : ARPEntry) (now : UInt32) : Bool :=
  !jiffiesLess now (ae.polledAt+(if 10 ≤ ae.numPollsSinceReply then clickHz*2 else clickHz/10))

def markPoll (ae : ARPEntry) (now : UInt32) : ARPEntry :=
  { ae with
    polledAt := now
    numPollsSinceReply :=
      if ae.numPollsSinceReply < 255 then ae.numPollsSinceReply+1 else ae.numPollsSinceReply }

end ARPEntry

/-- What `configure` reads. A capacity of zero is no limit, a timeout of zero means never. -/
structure ARPConfig where
  entryCapacity : ℕ
  packetCapacity : ℕ
  entryPacketCapacity : ℕ
  capacitySlimFactor : ℕ
  timeout : UInt32
  slimFactor_pos : 0 < capacitySlimFactor

/-- `_age`, from the oldest to the youngest entry; `_table` has the same entries. -/
structure ARPTable where
  age : List ARPEntry
  -- how much the table holds at the moment, which is less than the 2^32 of the source's type
  entryCount : ℕ
  packetCount : ℕ
  -- grows for ever, and wraps around
  drops : UInt32
  deriving DecidableEq, Repr

namespace ARPTable

def empty : ARPTable := ⟨[], 0, 0, 0⟩

def find (t : ARPTable) (ip : IPAddress) : Option ARPEntry := t.age.find? (fun ae => ae.ip == ip)

/-- An assignment to the entry of an address. -/
def modify (t : ARPTable) (ip : IPAddress) (f : ARPEntry → ARPEntry) : ARPTable :=
  { t with age := t.age.map (fun ae => if ae.ip = ip then f ae else ae) }

/-- The first loop of `slim` and the packets that it kills. -/
def slimEntries (c : ARPConfig) (now : UInt32) : List ARPEntry → ARPTable → ARPTable × List Packet
  | [], t => ({ t with age := [] }, [])
  | ae :: rest, t =>
    if ae.expired now c.timeout ∨ (c.entryCapacity ≠ 0 ∧ c.entryCapacity < t.entryCount) then
      let n := ae.queue.length
      let r := slimEntries c now rest
        { t with packetCount := t.packetCount-n, drops := t.drops+UInt32.ofNat n, entryCount := t.entryCount-1 }
      (r.1, ae.queue ++ r.2)
    else ({ t with age := ae :: rest }, [])

/-- The inner loop over the packets of an entry: what stays, what is killed, and the count. -/
def slimQueue (capacity : ℕ) : List Packet → ℕ → List Packet × List Packet × ℕ
  | [], n => ([], [], n)
  | p :: queue, n =>
    if capacity < n then
      let r := slimQueue capacity queue (n-1)
      (r.1, p :: r.2.1, r.2.2)
    else (p :: queue, [], n)

/-- The second loop of `slim`, from the oldest entry on. -/
def slimPackets (capacity : ℕ) : List ARPEntry → ℕ → List ARPEntry × List Packet × ℕ
  -- the source has no test for the end of the list
  | [], n => ([], [], n)
  | ae :: rest, n =>
    if capacity < n then
      let q := slimQueue capacity ae.queue n
      let r := slimPackets capacity rest q.2.2
      ({ ae with queue := q.1, entryPacketCount := ae.entryPacketCount-q.2.1.length } :: r.1,
        q.2.1 ++ r.2.1, r.2.2)
    else (ae :: rest, [], n)

def slimCapacity (c : ARPConfig) : ℕ := max 1 (c.packetCapacity-c.packetCapacity/c.capacitySlimFactor)

def slim (c : ARPConfig) (now : UInt32) (t : ARPTable) : ARPTable × List Packet :=
  let r := slimEntries c now t.age t
  if c.packetCapacity ≠ 0 ∧ c.packetCapacity < r.1.packetCount then
    let s := slimPackets (slimCapacity c) r.1.age r.1.packetCount
    ({ r.1 with age := s.1, packetCount := s.2.2, drops := r.1.drops+UInt32.ofNat s.2.1.length },
      r.2 ++ s.2.1)
  else r

/-- `ensure`, with the packets that it kills if it has to make room. -/
def ensure (c : ARPConfig) (now : UInt32) (t : ARPTable) (ip : IPAddress) : ARPTable × List Packet :=
  match t.find ip with
  | some _ => (t, [])
  | none =>
    let t := { t with entryCount := t.entryCount+1 }
    let r := if c.entryCapacity ≠ 0 ∧ c.entryCapacity < t.entryCount then slim c now t else (t, [])
    ({ r.1 with age := r.1.age ++ [ARPEntry.new ip now] }, r.2)

/-- The assignments of `insert` to its entry. -/
def learn (eth : EtherAddress) (now : UInt32) (ae : ARPEntry) : ARPEntry :=
  { ae with
    eth := eth
    isKnown := !eth.isBroadcast
    liveAt := now
    numPollsSinceReply := 0
    polledAt := now-clickHz }

/-- `_age.erase(ae); _age.push_back(ae)`. -/
def moveBack (t : ARPTable) (ip : IPAddress) : ARPTable :=
  { t with age := t.age.filter (fun ae => ae.ip ≠ ip) ++ t.age.filter (fun ae => ae.ip = ip) }

/-- `insert` without a place for the waiting packets, which stay. -/
def insert (c : ARPConfig) (now : UInt32) (t : ARPTable) (ip : IPAddress) (eth : EtherAddress) :
    ARPTable × List Packet :=
  let r := ensure c now t ip
  ((r.1.modify ip (learn eth now)).moveBack ip, r.2)

/-- An entry that has handed out its packets. -/
def emptied (ae : ARPEntry) : ARPEntry := { ae with queue := [], entryPacketCount := 0 }

/-- The packets that wait for an address, as `insert` hands them out. -/
def takeQueue (t : ARPTable) (ip : IPAddress) : ARPTable × List Packet :=
  match t.find ip with
  | none => (t, [])
  | some ae =>
    ({ t.modify ip emptied with packetCount := t.packetCount-ae.entryPacketCount }, ae.queue)

/-- The entry is kept on this side of expiring and moves to its place in the order. -/
def keepAlive (c : ARPConfig) (now : UInt32) (t : ARPTable) (ip : IPAddress) : ARPTable :=
  let min := now-c.timeout
  match t.find ip with
  | none => t
  | some ae =>
    if c.timeout ≠ 0 ∧ jiffiesLess ae.liveAt min then
      let pre := t.age.takeWhile (fun x => x.ip ≠ ip)
      let post := (t.age.dropWhile (fun x => x.ip ≠ ip)).tail
      { t with age := pre ++ (post.takeWhile (fun x => jiffiesLess x.liveAt min) ++
          { ae with liveAt := min } :: post.dropWhile (fun x => jiffiesLess x.liveAt min)) }
    else t

/-- The results of `append_query`. -/
inductive Appended where
  -- `-EAGAIN`
  | again
  -- `-ENOMEM`, as the queue of the entry is full
  | full
  -- 0 or 1: the packet is in the queue; whether it is time to ask
  | queued (poll : Bool)
  deriving DecidableEq, Repr

/-- A packet at the end of the queue of an entry. -/
def enqueue (p : Packet) (poll : Bool) (now : UInt32) (ae : ARPEntry) : ARPEntry :=
  let ae := { ae with queue := ae.queue ++ [p], entryPacketCount := ae.entryPacketCount+1 }
  if poll then ae.markPoll now else ae

def appendQuery (c : ARPConfig) (now : UInt32) (t : ARPTable) (ip : IPAddress) (p : Packet) :
    ARPTable × List Packet × Appended :=
  let r := ensure c now t ip
  match r.1.find ip with
  | none => (r.1, r.2, .full)
  | some ae =>
    if ae.known now c.timeout then (r.1, r.2, .again)
    else
      let t := keepAlive c now r.1 ip
      if c.entryPacketCapacity ≠ 0 ∧ c.entryPacketCapacity ≤ ae.entryPacketCount then
        ({ t with drops := t.drops+1 }, r.2, .full)
      else
        let t := { t with packetCount := t.packetCount+1 }
        let s := if c.packetCapacity ≠ 0 ∧ c.packetCapacity < t.packetCount then slim c now t else (t, [])
        let poll := ae.allowPoll now
        (s.1.modify ip (enqueue p poll now), r.2 ++ s.2, .queued poll)

/-- `lookup`: the address, if it is known, and whether it is time to ask again. -/
def lookup (c : ARPConfig) (now : UInt32) (t : ARPTable) (ip : IPAddress) (pollTimeout : UInt32) :
    ARPTable × Option (EtherAddress × Bool) :=
  match t.find ip with
  | none => (t, none)
  | some ae =>
    if ae.known now c.timeout then
      if pollTimeout ≠ 0 ∧ !jiffiesLess now (ae.liveAt+pollTimeout) ∧ ae.allowPoll now then
        (t.modify ip (fun ae => ae.markPoll now), some (ae.eth, true))
      else (t, some (ae.eth, false))
    else (t, none)

/-- `clear`, with the packets that it kills. The count of the drops stays. -/
def clear (t : ARPTable) : ARPTable × List Packet :=
  let killed := t.age.flatMap ARPEntry.queue
  ({ empty with drops := t.drops+UInt32.ofNat killed.length }, killed)

end ARPTable

end MobileIP
