import MobileIP.RoundTrip

/-! The lifetime of a registration as the three nodes record it. The mobile node converts
the granted lifetime, the foreign agent stores the raw field, and the home agent keeps the
low byte of the raw field. -/
namespace MobileIP

open LittleEndian VectorSearch

/-- The three nodes have recorded the remaining lifetime `r` for the node `home`, the home
agent in the binding that it added last. -/
def LifetimesAgree (out : Parties) (home : IPAddress) (r : ℕ) : Prop :=
  out.mn.lifetime.toNat = r ∧
    (∃ reg ∈ out.fa.registrations, reg.1 = home ∧ reg.2.remainingLifetime.toNat = r) ∧
    ∃ mi ∈ out.ha.mobilityBindings.getLast?, mi.address = home ∧ mi.remainingLifetime.toNat = r

instance (out : Parties) (home : IPAddress) (r : ℕ) : Decidable (LifetimesAgree out home r) :=
  inferInstanceAs (Decidable (_ ∧ _ ∧ _))

/-- The binding keeps the high byte of the lifetime: it is the low byte of the raw field. -/
theorem RegRep.newBinding_lifetime (req : RegreqH) (r : UInt16) (h : req.lifetime = htons r) :
    (RegRep.newBinding req).remainingLifetime.toNat = r.toNat/256 := by
  -- the raw field is the swapped number, and its low byte is all that fits
  have hr : r.toNat < 65536 := r.toNat_lt
  have hs := toNat_swap16 r
  change req.lifetime.toUInt8.toNat = _
  rw [h, UInt16.toNat_toUInt8]
  change (swap16 r).toNat%256 = _
  omega

/-- The home agent takes a request that came through a foreign agent as a registration, or
its reply does not leave for that foreign agent. -/
theorem RegRep.push_relayed (ha : HA) (ip : ClickIp) (udp : ClickUdp) (req : RegreqH)
    (a : IPAddress) (ht : req.type = 1) (hf : req.flags = 0) (hha : req.homeAgent ≠ 0xffffffff) :
    RegRep.push ha (sealedPacket ip udp req.toBytes a) =
        ({ ha with mobilityBindings := ha.mobilityBindings ++ [RegRep.newBinding req] },
          [.emit 1 (sealedPacket (RegRep.replyIp ip) (RegRep.rawUdp udp)
            (RegRep.replyHeader 0 req).toBytes ip.ipSrc), .kill]) ∨
      outputs 1 (RegRep.push ha (sealedPacket ip udp req.toBytes a)).2 = [] := by
  by_cases hco : req.homeAddress = req.careOfAddress
  · right
    rw [RegRep.push_deregistration ha ip udp req a ht hf hha hco]
    rfl
  · left
    exact RegRep.push_registration ha ip udp req a ht hf hha hco

/-- A relay that sends a request of the mobile node on has made it pending. -/
theorem Relay.push_request_relayed (ether : Ether) (relay : Relay) (fa : FA) (rand : ℕ)
    (ip : ClickIp) (udp : ClickUdp) (req : RegreqH) (a : IPAddress) (hl : ip.ipHl = 5)
    (hp : ip.ipP = 17) :
    let frame := (sealedPacket ip udp req.toBytes a).frame ether.bytes
    Relay.push relay fa rand frame =
        ({ fa with requests := fa.requests ++ [Relay.pendingEntry frame] },
          [.forward 1 ((sealedPacket (relayedIp fa ip req) (relayedUdp rand udp) req.toBytes
            req.homeAgent).frame ether.bytes)]) ∨
      outputs 1 (Relay.push relay fa rand frame).2 = [] := by
  intro frame
  rw [Relay.push_request ether relay fa rand ip udp req a hl hp]
  cases Relay.rejectCode relay fa req.flags with
  | some code =>
    -- a rejected request is answered at once, and nothing is relayed
    right
    rfl
  | none =>
    left
    rfl

/-- A granting reply for a node with a pending request ends up in the registrations. -/
theorem Relay.push_grant (ether : Ether) (relay : Relay) (fa : FA) (rand : ℕ) (ip : ClickIp)
    (udp : ClickUdp) (rep : RegrepH) (a : IPAddress) (hl : ip.ipHl = 5) (hp : ip.ipP = 17)
    (entry : VEntry) (he : entry ∈ fa.requests) (hip : entry.ipSrc = rep.homeAddress)
    (hgrant : Relay.grants rep) :
    ∃ fa' back e,
      Relay.push relay fa rand ((sealedPacket ip udp rep.toBytes a).frame ether.bytes) =
        (fa', [.forward 0 back]) ∧
      Relay.acceptedPair e rep ∈ fa'.registrations := by
  obtain ⟨i, e, hm⟩ := exists_firstMatch (fun e : VEntry => e.ipSrc == rep.homeAddress) fa.requests
    entry he (beq_iff_eq.mpr hip)
  rw [Relay.push_reply ether relay fa rand ip udp rep a hl hp, hm]
  exact ⟨_, _, e, rfl, Relay.mem_updateRegistrations_grants fa.registrations e rep hgrant⟩

/-- An exchange that comes to its end leaves, at the home agent, one more binding made of
the request and, at the foreign agent, a registration made of the reply. -/
theorem registrationExchange_records (relay : Relay) (w out : Parties) (draw : Draw)
    (rand rand' : ℕ) (ether ether' : Ether) (adv : Packet)
    (hha : w.mn.homeAgent ≠ 0xffffffff)
    (hsrc : (RegReq.aip adv).ipSrc ≠ w.mn.gateway) (hforeign : RegReq.foreign adv)
    (hlife : 1 ≤ (ntohs (RegReq.ahx adv).lifetime).toNat)
    (hrun : registrationExchange relay w draw rand rand' ether ether' adv = some out) :
    let rr := RegReq.requestHeader w.mn draw (ntohs (RegReq.ahx adv).lifetime)
      (RegReq.ahx adv).address
    out.ha.mobilityBindings = w.ha.mobilityBindings ++ [RegRep.newBinding rr] ∧
      ∃ e, Relay.acceptedPair e (RegRep.replyHeader 0 rr) ∈ out.fa.registrations := by
  intro rr
  let A := (RegReq.aip adv).ipSrc
  let pr := RegReq.pendingRequest draw A (ntohs (RegReq.ahx adv).lifetime) (RegReq.ahx adv).address
  let ip1 := RegReq.requestIp w.mn A
  let udp1 := RegReq.rawUdp draw
  let ip2 := relayedIp w.fa ip1 rr
  let udp2 := relayedUdp rand udp1
  let rep := RegRep.replyHeader 0 rr
  let mn1 : MNInfo := { w.mn with pending := w.mn.pending ++ [pr] }
  let entry := Relay.pendingEntry ((sealedPacket ip1 udp1 rr.toBytes A).frame ether.bytes)
  let fa1 : FA := { w.fa with requests := w.fa.requests ++ [entry] }
  have h1 : RegReq.push w.mn draw adv =
      (mn1, [.emit 0 (sealedPacket ip1 udp1 rr.toBytes A), .kill]) :=
    RegReq.push_foreign w.mn draw adv hsrc hforeign
  have hgrant : Relay.grants rep := (RegRep.grants_replyHeader rr _ rfl hlife).2
  -- the exchange went on behind the relay and behind the home agent
  rcases Relay.push_request_relayed ether relay w.fa rand ip1 udp1 rr A rfl rfl with h2 | h2
  · rcases RegRep.push_relayed w.ha ip2 udp2 rr rr.homeAgent rfl rfl hha with h3 | h3
    · -- the node's own request is pending, so the reply finds an entry
      have hmem : entry ∈ fa1.requests := List.mem_append_right _ (List.mem_singleton_self entry)
      have hip : entry.ipSrc = rep.homeAddress := by
        simp only [entry, Relay.pendingEntry, Relay.ip_sealed]
        rfl
      obtain ⟨fa2, back, e, h4, he⟩ := Relay.push_grant ether' relay fa1 rand' (RegRep.replyIp ip2)
        (RegRep.rawUdp udp2) rep ip2.ipSrc rfl rfl entry hmem hip hgrant
      rw [registrationExchange_of_steps relay w draw rand rand' ether ether' adv mn1 fa1 fa2 _ _
        _ _ _ h1 h2 h3 h4] at hrun
      rw [← Option.some.inj hrun]
      exact ⟨rfl, e, he⟩
    · exfalso
      simp only [registrationExchange, h1, h2, outputs, Action.sent, strip_frame,
        List.filterMap_cons, List.filterMap_nil, List.head?_cons, ↓reduceIte,
        Option.bind_eq_bind, Option.bind_some] at hrun
      rw [outputs] at h3
      rw [h3] at hrun
      cases hrun
  · exfalso
    simp only [registrationExchange, h1, outputs, Action.sent, List.filterMap_cons,
      List.filterMap_nil, List.head?_cons, ↓reduceIte, Option.bind_eq_bind, Option.bind_some] at hrun
    rw [outputs] at h2
    rw [h2] at hrun
    cases hrun

/-- The three nodes never agree on the lifetime of an accepted registration. The foreign
agent records the swapped number and the home agent its high byte, which no positive
lifetime equals. -/
theorem lifetimes_never_agree (relay : Relay) (w out : Parties) (draw : Draw)
    (rand rand' : ℕ) (ether ether' : Ether) (adv : Packet)
    (hha : w.mn.homeAgent ≠ 0xffffffff)
    (hsrc : (RegReq.aip adv).ipSrc ≠ w.mn.gateway) (hforeign : RegReq.foreign adv)
    (hlife : 1 ≤ (ntohs (RegReq.ahx adv).lifetime).toNat)
    (hrun : registrationExchange relay w draw rand rand' ether ether' adv = some out) :
    let r := ntohs (RegReq.ahx adv).lifetime
    (∃ reg ∈ out.fa.registrations, reg.1 = w.mn.homeAddress ∧
        reg.2.remainingLifetime = htons r) ∧
      (∃ mi ∈ out.ha.mobilityBindings.getLast?, mi.address = w.mn.homeAddress ∧
        mi.remainingLifetime.toNat = r.toNat/256) ∧
      ¬ LifetimesAgree out w.mn.homeAddress r.toNat := by
  intro r
  let rr := RegReq.requestHeader w.mn draw r (RegReq.ahx adv).address
  obtain ⟨hbs, e, he⟩ :=
    registrationExchange_records relay w out draw rand rand' ether ether' adv hha hsrc hforeign
      hlife hrun
  have hlast : out.ha.mobilityBindings.getLast? = some (RegRep.newBinding rr) := by
    rw [hbs, List.getLast?_concat]
  have hbyte : (RegRep.newBinding rr).remainingLifetime.toNat = r.toNat/256 :=
    RegRep.newBinding_lifetime rr r rfl
  refine ⟨⟨_, he, rfl, rfl⟩, ⟨RegRep.newBinding rr, hlast, rfl, hbyte⟩, ?_⟩
  -- agreement would make a positive number equal to its high byte
  rintro ⟨-, -, mi, hmi, -, heq⟩
  rw [hlast, Option.mem_some_iff] at hmi
  rw [← hmi, hbyte] at heq
  change 1 ≤ r.toNat at hlife
  omega

/-- What the deployed nodes have recorded after a registration for 100 seconds. -/
def Deployment.registered : Option Parties :=
  registrationExchange relay parties ⟨4711, 0x123456789abcdef0⟩ 7 8 default default
    foreignAdvertisement

theorem Deployment.registered_isSome : registered.isSome = true := by decide +kernel

theorem lifetimes_disagree_deployed :
    ∃ out, Deployment.registered = some out ∧
      ¬ LifetimesAgree out Deployment.mobileNodeAddress 100 := by
  obtain ⟨out, hout⟩ := Option.isSome_iff_exists.mp Deployment.registered_isSome
  exact ⟨out, hout, (lifetimes_never_agree Deployment.relay Deployment.parties out
    ⟨4711, 0x123456789abcdef0⟩ 7 8 default default Deployment.foreignAdvertisement (by decide)
    (by decide) (by decide) (by decide) hout).2.2⟩

/-- A registration for 100 seconds is accepted, and the home agent records no time at
all. -/
theorem home_agent_records_zero_lifetime :
    ∃ out ∈ Deployment.registered, out.mn.connected = true ∧ out.mn.lifetime = 100 ∧
      (out.fa.registrations.map (fun reg => reg.2.remainingLifetime)) = [25600] ∧
      (out.ha.mobilityBindings.map MobileInfo.remainingLifetime) = [0] ∧
      ¬ LifetimesAgree out Deployment.mobileNodeAddress 100 := by
  refine ⟨Deployment.registered.get Deployment.registered_isSome, Option.get_mem _, ?_⟩
  decide +kernel

end MobileIP
