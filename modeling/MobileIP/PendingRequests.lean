import MobileIP.MobileRuns

/-! The pending requests of the mobile node: which of them a reply is applied to, how they
age, and the lifetime that a node computes from them when it is granted one. -/
namespace MobileIP

open LittleEndian VectorSearch

/-- A call of `make_packet`. -/
structure RequestCall where
  draw : Draw
  dest : IPAddress
  lifetime : UInt16
  coaddress : IPAddress
  deriving DecidableEq, Repr

def RequestCall.request (x : RequestCall) : Request :=
  RegReq.pendingRequest x.draw x.dest x.lifetime x.coaddress

/-- A request that `make_packet` sent and that is still pending. The pending list keeps
less of it than went out. -/
structure SentRequest extends RequestCall where
  remLt : UInt16
  deriving DecidableEq, Repr

namespace SentRequest

def request (x : SentRequest) : Request := { x.toRequestCall.request with remLt := x.remLt }

/-- The identification as it was sent, all 64 bits of it. -/
def identification (x : SentRequest) : UInt64 := x.draw.id

theorem identification_sent (x : SentRequest) (mn : MNInfo) :
    (RegRep.request (RegReq.makePacket mn x.draw x.dest x.lifetime x.coaddress).2).identification =
      x.identification := by
  rw [RegReq.makePacket_eq, RegRep.request, payload_sealedPacket, RegreqH.ofBytes_only]
  rfl

end SentRequest

namespace RegNode

def iph (p : Packet) : ClickIp := ClickIp.ofBytes p.data

def udph (p : Packet) : ClickUdp := ClickUdp.ofBytes (p.data.drop sizeofClickIp)

def reph (p : Packet) : RegrepH := RegrepH.ofBytes (p.data.drop (sizeofClickIp+sizeofClickUdp))

/-- The reply is from the agent that the request went to, and for its port. -/
def Reaches (p : Packet) (x : SentRequest) : Prop :=
  x.dest = (iph p).ipSrc ∧ RegReq.port x.draw = ntohs (udph p).uhDport

/-- The reply answers the request: it reaches it and has the identification that was sent. -/
def Answers (p : Packet) (x : SentRequest) : Prop :=
  Reaches p x ∧ x.identification = (reph p).identification

instance (p : Packet) (x : SentRequest) : Decidable (Reaches p x) :=
  inferInstanceAs (Decidable (_ ∧ _))

instance (p : Packet) (x : SentRequest) : Decidable (Answers p x) :=
  inferInstanceAs (Decidable (_ ∧ _))

/-- The node after the reply has been applied to the pending request `r` at index `i`. -/
def applied (mn : MNInfo) (p : Packet) (i : ℕ) (r : Request) : MNInfo :=
  if ((reph p).code = 0 ∨ (reph p).code = 1) ∧ (iph p).ipSrc ≠ mn.gateway then
    { register mn r (reph p) with pending := mn.pending.eraseIdx i }
  else { mn with pending := mn.pending.eraseIdx i }

theorem pending_applied (mn : MNInfo) (p : Packet) (i : ℕ) (r : Request) :
    (applied mn p i r).pending = mn.pending.eraseIdx i := by
  unfold applied
  split_ifs
  · rfl
  · rfl

/-- The search loop of `push`. -/
def search (mn : MNInfo) (p : Packet) : Option (ℕ × Request) :=
  firstMatch (answers (iph p) (udph p)) mn.pending

theorem push_eq (node : RegNode) (mn : MNInfo) (p : Packet) :
    push node mn p =
      match search mn p with
      | none => (node, mn, [.kill])
      | some (i, r) =>
        -- a damaged reply costs the request its place on the list
        if badUdpChecksum p.data then (node, { mn with pending := mn.pending.eraseIdx i }, [.kill])
        else if (reph p).identification.toUInt32 ≠ r.id then (node, mn, [.kill])
        else if (reph p).code = 0 ∨ (reph p).code = 1 then
          if (iph p).ipSrc ≠ mn.gateway then
            ({ node with timer := true },
              { register mn r (reph p) with pending := mn.pending.eraseIdx i }, [.kill])
          else ({ node with timer := false }, { mn with pending := mn.pending.eraseIdx i }, [.kill])
        else (node, { mn with pending := mn.pending.eraseIdx i }, [.kill]) := rfl

/-- A reply takes at most the request that the search finds off the pending list. -/
theorem pending_push (node : RegNode) (mn : MNInfo) (p : Packet) :
    (push node mn p).2.1.pending = mn.pending ∨
      ∃ i r, search mn p = some (i, r) ∧
        (push node mn p).2.1.pending = mn.pending.eraseIdx i := by
  rw [push_eq]
  cases search mn p with
  | none => exact Or.inl rfl
  | some found =>
    obtain ⟨i, r⟩ := found
    dsimp only
    split_ifs
    · exact Or.inr ⟨i, r, rfl, rfl⟩
    · exact Or.inl rfl
    · exact Or.inr ⟨i, r, rfl, rfl⟩
    · exact Or.inr ⟨i, r, rfl, rfl⟩
    · exact Or.inr ⟨i, r, rfl, rfl⟩

/-- What a reply with a good checksum does to the node: nothing, unless the request that
the search finds has the low half of its identification. -/
theorem push_valid (node : RegNode) (mn : MNInfo) (p : Packet)
    (hsum : badUdpChecksum p.data = false) :
    (push node mn p).2.1 =
      match search mn p with
      | none => mn
      | some (i, r) =>
        if (reph p).identification.toUInt32 = r.id then applied mn p i r else mn := by
  rw [push_eq]
  cases search mn p with
  | none => rfl
  | some found =>
    obtain ⟨i, r⟩ := found
    dsimp only
    rw [hsum, if_neg Bool.false_ne_true]
    by_cases hid : (reph p).identification.toUInt32 = r.id
    · rw [if_neg (not_not_intro hid), if_pos hid, applied]
      by_cases hcode : (reph p).code = 0 ∨ (reph p).code = 1
      · by_cases hsrc : (iph p).ipSrc ≠ mn.gateway
        · rw [if_pos hcode, if_pos hsrc, if_pos ⟨hcode, hsrc⟩]
        · rw [if_pos hcode, if_neg hsrc, if_neg (fun h => hsrc h.2)]
      · rw [if_neg hcode, if_neg (fun h => hcode h.1)]
    · rw [if_pos hid, if_neg hid]

/-- The node with the requests `xs` pending. -/
def awaiting (mn : MNInfo) (xs : List SentRequest) : MNInfo :=
  { mn with pending := xs.map SentRequest.request }

theorem answers_request (p : Packet) (x : SentRequest) :
    answers (iph p) (udph p) x.request = true ↔ Reaches p x :=
  answers_iff (iph p) (udph p) x.request

theorem search_split (mn : MNInfo) (p : Packet) (pre post : List SentRequest) (x : SentRequest)
    (hpre : ∀ y ∈ pre, ¬ Reaches p y) (hx : Reaches p x) :
    search (awaiting mn (pre ++ x :: post)) p = some (pre.length, x.request) := by
  have hfalse : ∀ r ∈ pre.map SentRequest.request, answers (iph p) (udph p) r = false := by
    intro r hr
    obtain ⟨y, hy, rfl⟩ := List.mem_map.mp hr
    rw [← Bool.not_eq_true, answers_request]
    exact hpre y hy
  have hm := firstMatch_append _ (pre.map SentRequest.request) (post.map SentRequest.request)
    x.request ((answers_request p x).mpr hx) hfalse
  rw [List.length_map] at hm
  rw [search, awaiting, List.map_append, List.map_cons]
  exact hm

theorem search_none (mn : MNInfo) (p : Packet) (xs : List SentRequest)
    (h : ∀ y ∈ xs, ¬ Reaches p y) : search (awaiting mn xs) p = none := by
  rw [search, firstMatch_eq_none_iff]
  intro r hr
  obtain ⟨y, hy, rfl⟩ := List.mem_map.mp hr
  rw [← Bool.not_eq_true, answers_request]
  exact h y hy

/-- Either no pending request is reached by the reply, or there is a first one. -/
theorem first_reached (p : Packet) (xs : List SentRequest) :
    (∀ y ∈ xs, ¬ Reaches p y) ∨
      ∃ pre x post, xs = pre ++ x :: post ∧ (∀ y ∈ pre, ¬ Reaches p y) ∧ Reaches p x := by
  cases hm : firstMatch (fun x => decide (Reaches p x)) xs with
  | none => exact Or.inl (by simpa using (firstMatch_eq_none_iff _ xs).mp hm)
  | some found =>
    obtain ⟨pre, post, hxs, -, hx, hpre⟩ := firstMatch_split _ xs found.1 found.2 hm
    exact Or.inr ⟨pre, found.2, post, hxs, by simpa using hpre, by simpa using hx⟩

/-- The reply is applied to a request that it answers, if there is one, and to none
otherwise. The entry that is used is the one that the search stops at. -/
def AppliesExactly (node : RegNode) (mn : MNInfo) (xs : List SentRequest) (p : Packet) : Prop :=
  if ∃ x ∈ xs, Answers p x then
    ∃ i x, search (awaiting mn xs) p = some (i, x.request) ∧ xs[i]? = some x ∧ Answers p x ∧
      (push node (awaiting mn xs) p).2.1 = applied (awaiting mn xs) p i x.request
  else (push node (awaiting mn xs) p).2.1 = awaiting mn xs

/-- Whether a reply is applied exactly is decided by the first request that it reaches. -/
theorem appliesExactly_first (node : RegNode) (mn : MNInfo) (p : Packet)
    (hsum : badUdpChecksum p.data = false) (pre post : List SentRequest) (x : SentRequest)
    (hpre : ∀ y ∈ pre, ¬ Reaches p y) (hx : Reaches p x) :
    AppliesExactly node mn (pre ++ x :: post) p ↔
      x.identification = (reph p).identification ∨
      (x.identification.toUInt32 ≠ (reph p).identification.toUInt32 ∧
        ∀ y ∈ post, ¬ Answers p y) := by
  have hsearch := search_split mn p pre post x hpre hx
  have hpush := push_valid node (awaiting mn (pre ++ x :: post)) p hsum
  have hid : x.request.id = x.identification.toUInt32 := rfl
  rw [hsearch] at hpush
  dsimp only at hpush
  rw [hid] at hpush
  rw [AppliesExactly]
  by_cases hans : ∃ y ∈ pre ++ x :: post, Answers p y
  · rw [if_pos hans]
    constructor
    · -- the entry that was used is the one where the search stops, so it is `x`
      rintro ⟨i, x', hs, hget, hx', -⟩
      rw [hsearch] at hs
      simp only [Option.some.injEq, Prod.mk.injEq] at hs
      rw [← hs.1] at hget
      have hxx : x = x' := by simpa using hget
      rw [hxx]
      exact Or.inl hx'.2
    · rintro (hfull | ⟨hlow, hpost⟩)
      · refine ⟨pre.length, x, hsearch, by simp, ⟨hx, hfull⟩, ?_⟩
        rw [hpush, if_pos (congrArg UInt64.toUInt32 hfull.symm)]
      · -- an answered request would have to be one that the condition excludes
        obtain ⟨y, hy, hyans⟩ := hans
        rcases List.mem_append.mp hy with hy | hy
        · exact absurd hyans.1 (hpre y hy)
        · rcases List.mem_cons.mp hy with rfl | hy
          · exact absurd (congrArg UInt64.toUInt32 hyans.2) hlow
          · exact absurd hyans (hpost y hy)
  · rw [if_neg hans, hpush]
    constructor
    · intro hsame
      refine Or.inr ⟨?_, fun y hy hyans => hans ⟨y, by simp [hy], hyans⟩⟩
      intro hlow
      rw [if_pos hlow.symm] at hsame
      -- an entry would be gone
      have hlen := congrArg (fun m : MNInfo => m.pending.length) hsame
      simp only [pending_applied, awaiting, List.length_eraseIdx, List.length_map,
        List.length_append, List.length_cons] at hlen
      split_ifs at hlen with hlt
      · omega
      · omega
    · rintro (hfull | ⟨hlow, -⟩)
      · exact absurd ⟨x, by simp, hx, hfull⟩ hans
      · rw [if_neg (Ne.symm hlow)]

end RegNode

/-- A reply with a good checksum is applied exactly to a request that it answers, or to none,
if and only if the first pending request that it reaches has its whole identification, or
does not even have the low half of it while no request behind is answered. -/
theorem reply_applied_exactly_iff (node : RegNode) (mn : MNInfo) (xs : List SentRequest)
    (p : Packet) (hsum : badUdpChecksum p.data = false) :
    RegNode.AppliesExactly node mn xs p ↔
      ∀ pre x post, xs = pre ++ x :: post → (∀ y ∈ pre, ¬ RegNode.Reaches p y) →
        RegNode.Reaches p x →
          x.identification = (RegNode.reph p).identification ∨
          (x.identification.toUInt32 ≠ (RegNode.reph p).identification.toUInt32 ∧
            ∀ y ∈ post, ¬ RegNode.Answers p y) := by
  constructor
  · rintro h pre x post rfl hpre hx
    exact (RegNode.appliesExactly_first node mn p hsum pre post x hpre hx).mp h
  · intro h
    rcases RegNode.first_reached p xs with hnone | ⟨pre, x, post, rfl, hpre, hx⟩
    · -- nothing is reached, so nothing is answered and the search finds nothing
      have hno : ¬ ∃ x ∈ xs, RegNode.Answers p x := by
        rintro ⟨x, hx, hans⟩
        exact hnone x hx hans.1
      have hpush := RegNode.push_valid node (RegNode.awaiting mn xs) p hsum
      rw [RegNode.search_none mn p xs hnone] at hpush
      rw [RegNode.AppliesExactly, if_neg hno]
      exact hpush
    · exact (RegNode.appliesExactly_first node mn p hsum pre post x hpre hx).mpr
        (h pre x post rfl hpre hx)

namespace Deployment

/-- A request to the foreign agent. -/
def sent (draw : Draw) : SentRequest where
  draw := draw
  dest := foreignAgentPrivateAddress
  lifetime := 100
  coaddress := foreignAgentPublicAddress
  remLt := 100

/-- The home agent's acceptance of it. -/
def acceptance (draw : Draw) : Packet :=
  RegRep.replyPacket 0 (RegReq.makePacket info draw foreignAgentPrivateAddress 100
    foreignAgentPublicAddress).2

end Deployment

theorem reply_applied_exactly_deployed :
    RegNode.AppliesExactly Deployment.rn Deployment.info
      [Deployment.sent ⟨4711, 1⟩, Deployment.sent ⟨4712, 2⟩] (Deployment.acceptance ⟨4712, 2⟩) := by
  have hsum : badUdpChecksum (Deployment.acceptance ⟨4712, 2⟩).data = false := by decide +kernel
  apply (reply_applied_exactly_iff Deployment.rn Deployment.info _ _ hsum).mpr
  intro pre x post hxs _ hx
  -- the first request went out from another port
  have hmem : x ∈ [Deployment.sent ⟨4711, 1⟩, Deployment.sent ⟨4712, 2⟩] := by
    rw [hxs]
    simp
  simp only [List.mem_cons, List.not_mem_nil, or_false] at hmem
  rcases hmem with rfl | rfl
  · exact absurd hx (by decide +kernel)
  · exact Or.inl (by decide +kernel)

/-- Two requests drew the same port: the reply to the second finds the first, and is
dropped. Two requests share the low half of their identification: the reply to one that
is not pending is applied to the other. -/
theorem reply_applied_to_wrong_request :
    let reply := Deployment.acceptance ⟨4711, 2⟩
    badUdpChecksum reply.data = false ∧
    RegNode.Answers reply (Deployment.sent ⟨4711, 2⟩) ∧
    ¬ RegNode.AppliesExactly Deployment.rn Deployment.info
      [Deployment.sent ⟨4711, 1⟩, Deployment.sent ⟨4711, 2⟩] reply ∧
    ¬ RegNode.Answers reply (Deployment.sent ⟨4711, 0x100000002⟩) ∧
    ¬ RegNode.AppliesExactly Deployment.rn Deployment.info
      [Deployment.sent ⟨4711, 0x100000002⟩] reply := by
  intro reply
  have hsum : badUdpChecksum reply.data = false := by decide +kernel
  have hans : RegNode.Answers reply (Deployment.sent ⟨4711, 2⟩) := by decide +kernel
  have hreach : ∀ id, RegNode.Reaches reply (Deployment.sent ⟨4711, id⟩) := fun _ => hans.1
  have hid : (RegNode.reph reply).identification = 2 := by decide +kernel
  have hother : ¬ RegNode.Answers reply (Deployment.sent ⟨4711, 0x100000002⟩) := by decide +kernel
  -- the bytes of the reply are not needed any more
  clear_value reply
  refine ⟨hsum, hans, ?_, hother, ?_⟩
  · intro h
    have hcond := (RegNode.appliesExactly_first Deployment.rn Deployment.info reply hsum []
      [Deployment.sent ⟨4711, 2⟩] (Deployment.sent ⟨4711, 1⟩) (by simp) (hreach 1)).mp h
    rcases hcond with hfull | ⟨-, hpost⟩
    · rw [hid] at hfull
      exact absurd hfull (by decide)
    · exact hpost _ List.mem_cons_self hans
  · intro h
    have hcond := (RegNode.appliesExactly_first Deployment.rn Deployment.info reply hsum []
      [] (Deployment.sent ⟨4711, 0x100000002⟩) (by simp) (hreach _)).mp h
    rw [hid] at hcond
    rcases hcond with hfull | ⟨hlow, -⟩
    · exact absurd hfull (by decide)
    · exact hlow (by decide)

end MobileIP
