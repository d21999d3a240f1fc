import MobileIP.RelayRuns

/-! How long a request stays pending at the foreign agent when nothing answers it. The
timer counts the remaining lifetime down in network order and compares it in host order. -/
namespace MobileIP

open LittleEndian VectorSearch

namespace Relay

/-- The pending request `e` after one more tick. -/
def aged (e : VEntry) : VEntry :=
  { e with remainingLifetime := htons (ntohs e.remainingLifetime-1) }

/-- The test of `run_timer`, on an entry that has been counted down. -/
def timedOut (e : VEntry) : Prop :=
  7 < (e.requestedLifetime.toNat : ℤ)-e.remainingLifetime.toNat

theorem ageRequests_timedOut (e : VEntry) (rest : List VEntry) (h0 : 0 < e.requestedLifetime)
    (h : timedOut (aged e)) : ageRequests (e :: rest) = (rest, some (aged e)) := by
  have hh : 7 < ((aged e).requestedLifetime.toNat : ℤ)-(aged e).remainingLifetime.toNat := h
  rw [ageRequests, if_pos h0]
  exact if_pos hh

theorem ageRequests_kept (e : VEntry) (rest : List VEntry) (h0 : 0 < e.requestedLifetime)
    (h : ¬ timedOut (aged e)) :
    ageRequests (e :: rest) = (aged e :: (ageRequests rest).1, (ageRequests rest).2) := by
  have hh : ¬ 7 < ((aged e).requestedLifetime.toNat : ℤ)-(aged e).remainingLifetime.toNat := h
  rw [ageRequests, if_pos h0]
  exact if_neg hh

theorem ageRequests_zero_append (zs l : List VEntry) (hz : ∀ z ∈ zs, z.requestedLifetime = 0) :
    ageRequests (zs ++ l) = ageRequests l := by
  induction zs with
  | nil => rfl
  | cons z zs ih =>
    have h0 : ¬ 0 < z.requestedLifetime := by
      rw [hz z List.mem_cons_self]
      decide
    rw [List.cons_append, ageRequests, if_neg h0]
    exact ih (fun x hx => hz x (List.mem_cons_of_mem z hx))

/-- What is left of the lifetime `r` after `k` ticks, as `run_timer` stores it. -/
def countdown (r : UInt16) (k : ℕ) : UInt16 := htons (ntohs r-UInt16.ofNat k)

theorem countdown_zero (r : UInt16) : countdown r 0 = r := countdown16_zero r

theorem countdown_succ (r : UInt16) (k : ℕ) :
    htons (ntohs (countdown r k)-1) = countdown r (k+1) :=
  countdown16_succ r k

/-- The bytes of what is left, in terms of the bytes of the lifetime. -/
theorem countdown_bytes (r : UInt16) (k : ℕ) (hk : k ≤ (swap16 r).toNat) :
    (countdown r k).toNat%256*256+(countdown r k).toNat/256 = r.toNat%256*256+r.toNat/256-k := by
  calc
    _ = (swap16 (countdown r k)).toNat := (toNat_swap16 _).symm
    _ = (swap16 r).toNat-k := toNat_swap16_countdown16 r k hk
    _ = _ := by rw [toNat_swap16]

/-- A lifetime of 256 or more loses 256 at the first tick. -/
theorem timedOut_long (e : VEntry) (hfresh : e.remainingLifetime = e.requestedLifetime)
    (h : 256 ≤ e.requestedLifetime.toNat) : timedOut (aged e) := by
  have hr : e.requestedLifetime.toNat < 65536 := e.requestedLifetime.toNat_lt
  have hn := toNat_swap16 e.requestedLifetime
  have hone : (aged e).remainingLifetime = countdown e.requestedLifetime 1 := by
    unfold aged
    rw [hfresh]
    rfl
  have hbytes := countdown_bytes e.requestedLifetime 1 (by omega)
  have hlt : (countdown e.requestedLifetime 1).toNat < 65536 := UInt16.toNat_lt _
  -- the high byte, which is not zero, goes down
  have hhigh : (countdown e.requestedLifetime 1).toNat/256 = e.requestedLifetime.toNat/256-1 := by
    omega
  unfold timedOut
  rw [hone]
  change 7 < (e.requestedLifetime.toNat : ℤ)-(countdown e.requestedLifetime 1).toNat
  omega

/-- A lifetime below 256 seems to grow beyond any requested lifetime for many ticks. -/
theorem not_timedOut_short (r : UInt16) (h0 : 0 < r.toNat) (h : r.toNat < 256) (k : ℕ)
    (hk0 : 0 < k) (hk : k ≤ 8) (e : VEntry) (hreq : e.requestedLifetime = r)
    (hrem : e.remainingLifetime = countdown r k) : ¬ timedOut e := by
  have hlow : r.toNat%256 = r.toNat := Nat.mod_eq_of_lt h
  have hzero : r.toNat/256 = 0 := Nat.div_eq_of_lt h
  have hn := toNat_swap16 r
  rw [hlow, hzero] at hn
  have hbytes := countdown_bytes r k (by omega)
  rw [hlow, hzero] at hbytes
  have hlt : (countdown r k).toNat < 65536 := UInt16.toNat_lt _
  -- the high byte is zero, so it borrows from the low one
  have hhigh : (countdown r k).toNat/256 = 256-k := by
    omega
  unfold timedOut
  rw [hreq, hrem]
  omega

variable (relay : Relay) (fa : FA)

/-- The foreign agent after `n` ticks of its timer and nothing else, and what it has sent
to mobile nodes by then. -/
def afterTicks (n : ℕ) : FA := Runs.final (step relay) fa (List.replicate n .tick)

def sentInTicks (n : ℕ) : List Packet :=
  outputs 0 (Runs.trace (step relay) fa (List.replicate n .tick))

theorem afterTicks_succ (n : ℕ) :
    afterTicks relay fa (n+1) = afterTicks relay (runTimer fa).1 n := rfl

theorem sentInTicks_succ (n : ℕ) :
    sentInTicks relay fa (n+1) =
      outputs 0 (runTimer fa).2 ++ sentInTicks relay (runTimer fa).1 n :=
  outputs_append 0 _ _

/-- A short lifetime at the head of the list stays there for eight ticks. -/
theorem head_stays (e : VEntry) (h0 : 0 < e.requestedLifetime.toNat)
    (h : e.requestedLifetime.toNat < 256) (n k : ℕ) (hk : n+k ≤ 8) (rest : List VEntry)
    (hreq : fa.requests =
      { e with remainingLifetime := countdown e.requestedLifetime k } :: rest) :
    ∃ rest', (afterTicks relay fa n).requests =
      { e with remainingLifetime := countdown e.requestedLifetime (n+k) } :: rest' := by
  -- the induction is on the ticks to come; `k` ticks have passed
  induction n generalizing fa k rest with
  | zero =>
    rw [Nat.zero_add]
    exact ⟨rest, hreq⟩
  | succ n ih =>
    let e₁ : VEntry := { e with remainingLifetime := countdown e.requestedLifetime k }
    have haged : aged e₁ =
        { e with remainingLifetime := countdown e.requestedLifetime (k+1) } := by
      unfold aged
      dsimp only [e₁]
      rw [countdown_succ]
    have hpos : 0 < e₁.requestedLifetime := by
      rw [UInt16.lt_iff_toNat_lt]
      exact h0
    have hkeep : ¬ timedOut (aged e₁) := by
      rw [haged]
      exact not_timedOut_short e.requestedLifetime h0 h (k+1) (by omega) (by omega) _ rfl rfl
    have hnext : (runTimer fa).1.requests =
        { e with remainingLifetime := countdown e.requestedLifetime (k+1) } ::
          (ageRequests rest).1 := by
      change (ageRequests fa.requests).1 = _
      rw [hreq, ageRequests_kept e₁ rest hpos hkeep, haged]
    obtain ⟨rest', hrest⟩ := ih (runTimer fa).1 (k+1) (by omega) (ageRequests rest).1 hnext
    refine ⟨rest', ?_⟩
    rw [afterTicks_succ, hrest, show n+1+k = n+(k+1) by omega]

theorem runTimer_of_zero (hz : ∀ e ∈ fa.requests, e.requestedLifetime = 0) :
    (runTimer fa).1.requests = [] ∧ outputs 0 (runTimer fa).2 = [] := by
  have hage : ageRequests fa.requests = ([], none) := by
    rw [← List.append_nil fa.requests, ageRequests_zero_append fa.requests [] hz]
    rfl
  unfold runTimer
  dsimp only
  rw [hage]
  exact ⟨rfl, rfl⟩

theorem ticks_of_zero (hz : ∀ e ∈ fa.requests, e.requestedLifetime = 0) (n : ℕ) :
    (afterTicks relay fa (n+1)).requests = [] ∧ sentInTicks relay fa (n+1) = [] := by
  induction n generalizing fa with
  | zero =>
    rw [afterTicks_succ, sentInTicks_succ, (runTimer_of_zero fa hz).2]
    exact ⟨(runTimer_of_zero fa hz).1, rfl⟩
  | succ n ih =>
    have hnone : ∀ e ∈ (runTimer fa).1.requests, e.requestedLifetime = 0 := by
      rw [(runTimer_of_zero fa hz).1]
      simp
    rw [afterTicks_succ, sentInTicks_succ, (runTimer_of_zero fa hz).2]
    exact ih (runTimer fa).1 hnone

/-- The entry as `relayReq` stored it. -/
def stored (e : VEntry) : VEntry := { e with remainingLifetime := e.requestedLifetime }

/-- The requests in the frames `ps`, stored together, are timed out as announced: those
with a lifetime are all there for seven ticks, nothing is sent to them, and at the eighth
tick each is denied with code 78 and removed; those without are removed at the first tick. -/
def TimesOut (ps : List Packet) : Prop :=
  let fa := { fa with requests := ps.map pendingEntry }
  let live := (ps.map pendingEntry).filter (fun e => e.requestedLifetime != 0)
  ∀ n, 1 ≤ n →
    (n < 8 → (afterTicks relay fa n).requests.map stored = live ∧ sentInTicks relay fa n = []) ∧
    (8 ≤ n → (afterTicks relay fa n).requests = [] ∧
      ((sentInTicks relay fa n).map (fun d =>
        ((addressed d).1, (addressed d).2.1, (addressed d).2.2.2))).Perm
        (live.map (fun e => (e.ipSrc, e.udpSrc, 78))))

theorem pendingEntry_lifetime_eq_zero_iff (p : Packet) :
    (pendingEntry p).requestedLifetime = 0 ↔ (reqh p).lifetime = 0 := by
  change swap16 (reqh p).lifetime = 0 ↔ _
  constructor
  · intro h
    rw [← swap16_swap16 (reqh p).lifetime, h]
    rfl
  · intro h
    rw [h]
    rfl

/-- The first pending request with a lifetime is treated wrongly: one tick is enough to
time it out, or eight ticks are not. -/
theorem first_live_request (zs rest : List VEntry) (e : VEntry)
    (hz : ∀ z ∈ zs, z.requestedLifetime = 0) (he : 0 < e.requestedLifetime.toNat)
    (hfresh : e.remainingLifetime = e.requestedLifetime)
    (hreq : fa.requests = zs ++ e :: rest) :
    sentInTicks relay fa 1 ≠ [] ∨ (afterTicks relay fa 8).requests ≠ [] := by
  have hpos : 0 < e.requestedLifetime := by
    rw [UInt16.lt_iff_toNat_lt]
    exact he
  -- the requests without a lifetime are gone after the first tick
  have hage : ageRequests fa.requests = ageRequests (e :: rest) := by
    rw [hreq, ageRequests_zero_append zs _ hz]
  rcases Nat.lt_or_ge e.requestedLifetime.toNat 256 with hshort | hlong
  · right
    have hfirst : ({ e with remainingLifetime := countdown e.requestedLifetime 0 } : VEntry) = e := by
      rw [countdown_zero]
      cases e
      dsimp only at hfresh ⊢
      rw [hfresh]
    have hsame : (runTimer fa).1.requests = (runTimer { fa with requests := e :: rest }).1.requests :=
      congrArg Prod.fst hage
    obtain ⟨rest', hrest⟩ := head_stays relay { fa with requests := e :: rest } e he hshort 1 0
      (by omega) rest (by rw [hfirst])
    have hone : (runTimer fa).1.requests =
        { e with remainingLifetime := countdown e.requestedLifetime 1 } :: rest' :=
      hsame.trans hrest
    obtain ⟨rest'', height⟩ := head_stays relay (runTimer fa).1 e he hshort 7 1 (by omega) rest' hone
    rw [afterTicks_succ, height]
    exact List.cons_ne_nil _ _
  · left
    have hout := timedOut_long e hfresh hlong
    rw [sentInTicks_succ]
    unfold runTimer
    dsimp only
    rw [hage, ageRequests_timedOut e rest hpos hout]
    exact List.cons_ne_nil _ _

/-- The first stored request with a lifetime is the one that breaks the announcement. -/
theorem lifetime_eq_zero_of_timesOut (ps : List Packet) (h : TimesOut relay fa ps) (p : Packet)
    (hp : p ∈ ps) : (reqh p).lifetime = 0 := by
  let fa₀ : FA := { fa with requests := ps.map pendingEntry }
  cases hm : firstMatch (fun e : VEntry => e.requestedLifetime != 0) fa₀.requests with
  | none =>
    have hz := (firstMatch_eq_none_iff _ fa₀.requests).mp hm (pendingEntry p)
      (List.mem_map_of_mem hp)
    exact (pendingEntry_lifetime_eq_zero_iff p).mp (by simpa using hz)
  | some r =>
    exfalso
    obtain ⟨zs, rest, hreq, -, he, hz⟩ := firstMatch_split _ fa₀.requests r.1 r.2 hm
    have hmem : r.2 ∈ ps.map pendingEntry := by
      have hin : r.2 ∈ fa₀.requests := by
        rw [hreq]
        simp
      exact hin
    obtain ⟨q, -, hq⟩ := List.mem_map.mp hmem
    -- a request is stored with the lifetime that it asks for
    have hfresh : r.2.remainingLifetime = r.2.requestedLifetime := by
      rw [← hq]
      rfl
    have hpos : 0 < r.2.requestedLifetime.toNat := by
      apply Nat.pos_of_ne_zero
      intro hzero
      have hr : r.2.requestedLifetime = 0 := UInt16.toNat_inj.mp hzero
      simp [hr] at he
    rcases first_live_request relay fa₀ zs rest r.2 (by simpa using hz) hpos hfresh hreq with
      hsent | hleft
    · exact hsent ((h 1 (Nat.le_refl 1)).1 (by decide)).2
    · exact hleft ((h 8 (by decide)).2 (Nat.le_refl 8)).1

theorem timesOut_of_lifetime_eq_zero (ps : List Packet) (h : ∀ p ∈ ps, (reqh p).lifetime = 0) :
    TimesOut relay fa ps := by
  intro n hn
  let fa₀ : FA := { fa with requests := ps.map pendingEntry }
  have hzero : ∀ e ∈ fa₀.requests, e.requestedLifetime = 0 := by
    intro e he
    obtain ⟨p, hp, rfl⟩ := List.mem_map.mp he
    exact (pendingEntry_lifetime_eq_zero_iff p).mpr (h p hp)
  have hlive : fa₀.requests.filter (fun e => e.requestedLifetime != 0) = [] := by
    rw [List.filter_eq_nil_iff]
    intro e he
    simp [hzero e he]
  -- the first tick removes them all, and there is nothing left to answer
  obtain ⟨k, rfl⟩ := Nat.exists_eq_add_of_le' hn
  obtain ⟨hreq, hsent⟩ := ticks_of_zero relay fa₀ hzero k
  change (_ → (afterTicks relay fa₀ (k+1)).requests.map stored = fa₀.requests.filter _ ∧
    sentInTicks relay fa₀ (k+1) = []) ∧ (_ → (afterTicks relay fa₀ (k+1)).requests = [] ∧
    List.Perm _ ((fa₀.requests.filter _).map _))
  rw [hlive, hreq, hsent]
  exact ⟨fun _ => ⟨rfl, rfl⟩, fun _ => ⟨rfl, List.Perm.refl _⟩⟩

/-- Pending requests are timed out as announced exactly if none of them has a lifetime. -/
theorem times_out_iff (ps : List Packet) :
    TimesOut relay fa ps ↔ ∀ p ∈ ps, (reqh p).lifetime = 0 :=
  ⟨lifetime_eq_zero_of_timesOut relay fa ps, timesOut_of_lifetime_eq_zero relay fa ps⟩

/-- A request for 100 seconds is still pending after eight ticks. -/
theorem request_outlives_timeout :
    ¬ TimesOut Deployment.relay Deployment.foreignAgent
      [Deployment.requestFrame Deployment.mobileNodeAddress ⟨1, 1⟩] := by
  intro h
  have hreq := ((h 8 (by decide)).2 (Nat.le_refl 8)).1
  have hlen : ¬ (afterTicks Deployment.relay
      { Deployment.foreignAgent with
        requests := [pendingEntry (Deployment.requestFrame Deployment.mobileNodeAddress ⟨1, 1⟩)] }
      8).requests = [] := by decide +kernel
  exact hlen hreq

end Relay

end MobileIP
