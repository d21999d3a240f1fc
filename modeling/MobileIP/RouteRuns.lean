import MobileIP.RouteCommands
import MobileIP.Advertisement

/-! The routing table at work: configuration, single commands, transactions of `ctrl`, and the
packets in between. -/
namespace MobileIP

open VectorSearch

namespace LinearIPLookup

/-- `configure`: the table, whether it succeeds, and the number of routes of which the
warning says that a later version has replaced them. -/
def configure (noutputs : ℕ) : List (Option RouteWords) → LinearIPLookup × Bool × ℕ :=
  List.foldl (fun r w =>
    match w with
    | none => (r.1, false, r.2.2)
    | some w =>
      let route := cpIpRoute w
      if route.port < 0 ∨ noutputs ≤ route.port then (r.1, false, r.2.2)
      else
        match addRoute r.1 route false with
        | (s, .error _) => (s, r.2.1, r.2.2+1)
        | (s, .ok _) => (s, r.2.1, r.2.2)) (empty, true, 0)

inductive Input where
  | handler (c : Command) (w : Option RouteWords)
  | ctrl (lines : List Line)
  | packet (p : Packet)
  deriving DecidableEq, Repr

/-- One input; `none` is a router that is stuck in `ctrl_handler`. -/
def step (noutputs : ℕ) (s : Option LinearIPLookup) (i : Input) :
    Option LinearIPLookup × List (ℤ × Packet) :=
  match s with
  | none => (none, [])
  | some s =>
    match i with
    | .handler c w =>
      match runCommand noutputs s c w with
      | .error _ => (some s, [])
      | .ok (s', _) => (some s', [])
    | .ctrl lines => ((ctrlHandler noutputs s lines).map Prod.fst, [])
    | .packet p => (some (push s p).1, (push s p).2.toList)

variable {noutputs : ℕ} {s : LinearIPLookup}

/-- A line as a step of a transaction. -/
def runLine (noutputs : ℕ) (s : LinearIPLookup) : Line → Except RouteError (LinearIPLookup × Saved)
  | .command c w => runCommand noutputs s c w
  | _ => .error .badCommand

theorem ctrlLoop_eq (noutputs : ℕ) (s : LinearIPLookup) (lines : List Line) (log : List Saved)
    (r : LinearIPLookup × Option RouteError) (h : ctrlLoop noutputs s lines log = some r) :
    UndoLog.transact (runLine noutputs) undo s lines log = r := by
  induction lines generalizing s log with
  | nil => exact Option.some.inj h
  | cons l lines ih =>
    cases l with
    | blank => cases h
    | bad => exact Option.some.inj h
    | command c w =>
      rw [ctrlLoop] at h
      rw [UndoLog.transact, runLine]
      cases hrun : runCommand noutputs s c w with
      | error e =>
        rw [hrun] at h
        exact Option.some.inj h
      | ok r' =>
        rw [hrun] at h
        exact ih r'.1 (r'.2 :: log) h

theorem runLine_spec (h : Inv noutputs s) (l : Line) (s' : LinearIPLookup) (rt : Saved)
    (hok : runLine noutputs s l = .ok (s', rt)) :
    ∃ c w, l = .command c (some w) ∧ Inv noutputs s' ∧ Able noutputs rt ∧
      live s'.t = effect (live s.t) c (cpIpRoute w) ∧ Puts noutputs rt (live s'.t) (live s.t) := by
  cases l with
  | blank => cases hok
  | bad => cases hok
  | command c w =>
    obtain ⟨words, rfl, hrest⟩ := h.runCommand_spec c w s' rt hok
    exact ⟨c, words, rfl, hrest⟩

theorem runLine_reverts (noutputs : ℕ) :
    UndoLog.Reverts (runLine noutputs) undo (fun s => live s.t) (Inv noutputs) (Able noutputs) where
  step_inv s l s' rt hs hok := by
    obtain ⟨c, w, -, hinv, hable, -⟩ := runLine_spec hs l s' rt hok
    exact ⟨hinv, hable⟩
  undo_inv s rt hs hable := undo_inv hs rt hable
  undo_view s l s' rt hs hok t ht hview := by
    obtain ⟨c, w, -, -, -, -, hputs⟩ := runLine_spec hs l s' rt hok
    exact hputs t ht hview

/-- The effects of the lines of a transaction, in order. -/
def effects (m : Prefix → Option NextHop) : List Line → Prefix → Option NextHop
  | [] => m
  | .command c (some w) :: lines => effects (effect m c (cpIpRoute w)) lines
  | _ :: lines => effects m lines

theorem transact_effects (h : Inv noutputs s) (lines : List Line) (log : List Saved)
    (hok : (UndoLog.transact (runLine noutputs) undo s lines log).2 = none) :
    live (UndoLog.transact (runLine noutputs) undo s lines log).1.t = effects (live s.t) lines := by
  induction lines generalizing s log with
  | nil => rfl
  | cons l lines ih =>
    rw [UndoLog.transact] at hok ⊢
    cases hrun : runLine noutputs s l with
    | error e =>
      rw [hrun] at hok
      cases hok
    | ok r =>
      obtain ⟨s', rt⟩ := r
      obtain ⟨c, w, rfl, hinv, -, hlive, -⟩ := runLine_spec h l s' rt hrun
      rw [hrun] at hok
      dsimp only at hok ⊢
      rw [ih hinv (rt :: log) hok, hlive]
      rfl

/-- A transaction of `ctrl` that returns keeps the invariant; it has all its effects, or none. -/
theorem Inv.ctrlHandler_spec (h : Inv noutputs s) (lines : List Line) (s' : LinearIPLookup)
    (e : Option RouteError) (hret : ctrlHandler noutputs s lines = some (s', e)) :
    Inv noutputs s' ∧ live s'.t = if e = none then effects (live s.t) lines else live s.t := by
  have heq := ctrlLoop_eq noutputs s lines [] (s', e) hret
  have hatomic := UndoLog.transact_atomic (runLine_reverts noutputs) s lines h
  have hall := transact_effects h lines []
  rw [heq] at hatomic hall
  refine ⟨hatomic.1, ?_⟩
  split_ifs with he
  · exact hall he
  · exact hatomic.2 he

/-- What `push` would do without its caches. -/
def pushPlain (s : LinearIPLookup) (p : Packet) : Option (ℤ × Packet) :=
  (lookupEntry s.t p.dstIpAnno).map (fun i => send p (routeAt s.t i))

/-- The caches change nothing but the time that a lookup takes. -/
theorem Inv.push_spec (h : Inv noutputs s) (p : Packet) :
    Inv noutputs (push s p).1 ∧ (push s p).1.t = s.t ∧ (push s p).2 = pushPlain s p := by
  have hsend (i : ℕ) (hi : lookupEntry s.t p.dstIpAnno = some i) :
      pushPlain s p = some (send p (routeAt s.t i)) := by
    unfold pushPlain
    rw [hi, Option.map_some]
  unfold push
  dsimp only
  split_ifs with h1 h2
  · have hi := h.cache (h1.2 ▸ h1.1)
    rw [← h1.2] at hi
    exact ⟨h, rfl, (hsend _ hi).symm⟩
  · have hi := h.cache2 (h2.2 ▸ h2.1)
    rw [← h2.2] at hi
    exact ⟨h, rfl, (hsend _ hi).symm⟩
  · cases hl : lookupEntry s.t p.dstIpAnno with
    | none =>
      refine ⟨h, rfl, ?_⟩
      unfold pushPlain
      rw [hl, Option.map_none]
    | some i =>
      exact ⟨⟨h.table, h.zero, h.noZero, h.full, fun _ => hl, h.cache⟩, rfl, (hsend i hl).symm⟩

theorem Inv.step {s' : LinearIPLookup} (h : Inv noutputs s) (i : Input)
    (hs : (step noutputs (some s) i).1 = some s') : Inv noutputs s' := by
  cases i with
  | handler c w =>
    unfold LinearIPLookup.step at hs
    dsimp only at hs
    cases hrun : runCommand noutputs s c w with
    | error e =>
      rw [hrun] at hs
      rw [← Option.some.inj hs]
      exact h
    | ok r =>
      rw [hrun] at hs
      rw [← Option.some.inj hs]
      obtain ⟨-, -, hinv, -⟩ := h.runCommand_spec c w r.1 r.2 hrun
      exact hinv
  | ctrl lines =>
    obtain ⟨⟨t, e⟩, hret, rfl⟩ := Option.map_eq_some_iff.mp hs
    exact (h.ctrlHandler_spec lines t e hret).1
  | packet p =>
    rw [← Option.some.inj hs]
    exact (h.push_spec p).1

theorem inv_configure (noutputs : ℕ) (conf : List (Option RouteWords)) :
    Inv noutputs (configure noutputs conf).1 := by
  unfold configure
  generalize hr : (empty, true, 0) = r
  have hinv : Inv noutputs r.1 := hr ▸ inv_empty noutputs
  clear hr
  induction conf generalizing r with
  | nil => exact hinv
  | cons w conf ih =>
    rw [List.foldl_cons]
    apply ih
    cases w with
    | none => exact hinv
    | some w =>
      dsimp only
      split_ifs with hbad
      · exact hinv
      · obtain ⟨h0, hn⟩ := not_or.mp hbad
        have hvalid := cpIpRoute_valid w (Int.not_lt.mp h0) (Int.not_le.mp hn)
        rcases hinv.addRoute_spec hvalid false with ⟨old, heq, -⟩ | ⟨t, old, heq, ht, -⟩
        · rw [heq]
          exact hinv
        · rw [heq]
          exact ht

/-- Every table that a running router reaches is in order. -/
theorem inv_run (noutputs : ℕ) (conf : List (Option RouteWords)) (inputs : List Input) :
    ∀ s, Runs.final (step noutputs) (some (configure noutputs conf).1) inputs = some s →
      Inv noutputs s := by
  apply Runs.history_invariant (step noutputs) (some (configure noutputs conf).1)
    (fun _ _ s => ∀ t, s = some t → Inv noutputs t)
  · intro t ht
    rw [← Option.some.inj ht]
    exact inv_configure noutputs conf
  · intro is i ih t ht
    cases hs : Runs.final (step noutputs) (some (configure noutputs conf).1) is with
    | none =>
      rw [hs] at ht
      cases ht
    | some s =>
      rw [hs] at ht
      exact (ih s hs).step i ht

/-- The prefix `q` is the best of a map for an address: it has a next hop and covers the
address, and no other such prefix has a mask that is as specific. -/
structure Best (m : Prefix → Option NextHop) (a : IPAddress) (q : Prefix) (v : NextHop) : Prop where
  live : m q = some v
  covers : matchesPrefix a q.1 q.2 = true
  maximal : ∀ q' v', m q' = some v' → matchesPrefix a q'.1 q'.2 = true →
    maskAsSpecific q'.2 q.2 = true → q' = q

/-- Routing as the map has it: to the output of a best prefix, with its gateway, if it has
one, as the next destination; without a prefix that covers the address, nowhere. -/
def Routed (m : Prefix → Option NextHop) (p : Packet) (out : Option (ℤ × Packet)) : Prop :=
  match out with
  | none => ∀ q v, m q = some v → matchesPrefix p.dstIpAnno q.1 q.2 = false
  | some o => ∃ q v, Best m p.dstIpAnno q v ∧
      o = (v.2, if v.1 ≠ 0 then { p with dstIpAnno := v.1 } else p)

theorem Inv.pushPlain_routed (h : Inv noutputs s) (p : Packet)
    (ha : p.dstIpAnno ≠ 0 ∨ ∀ e ∈ s.t, e.real = true) : Routed (live s.t) p (pushPlain s p) := by
  cases hl : lookupEntry s.t p.dstIpAnno with
  | none =>
    have hall := (lookupEntry_eq_none_iff s.t p.dstIpAnno).mp hl
    unfold pushPlain
    rw [hl]
    intro q v hq
    obtain ⟨i, e, hi, -, rfl, -⟩ := (h.table.live_eq_some_iff q v).mp hq
    exact hall e (List.mem_of_getElem? hi)
  | some k =>
    obtain ⟨e, he, hreal, hc, hmax⟩ := h.table.lookupEntry_best p.dstIpAnno ha k hl
    unfold pushPlain
    rw [hl, Option.map_some, routeAt_of_getElem? s.t k e he]
    refine ⟨(e.addr, e.mask), (e.gw, e.port), ⟨?_, hc, ?_⟩, rfl⟩
    · exact (h.table.live_eq_some_iff _ _).mpr ⟨k, e, he, hreal, rfl, rfl⟩
    · intro q' v' hq' hc' hm'
      obtain ⟨j, e', hj, hr', rfl, -⟩ := (h.table.live_eq_some_iff q' v').mp hq'
      have hjk := hmax j e' hj hr' hc' hm'
      rw [hjk] at hj
      rw [Option.some.inj (hj.symm.trans he)]

theorem Inv.live_port (h : Inv noutputs s) (q : Prefix) (v : NextHop) (hq : live s.t q = some v) :
    0 ≤ v.2 ∧ v.2 < noutputs := by
  obtain ⟨i, e, hi, hreal, -, rfl⟩ := (h.table.live_eq_some_iff q v).mp hq
  exact h.table.port e (List.mem_of_getElem? hi) hreal

end LinearIPLookup

namespace Deployment

open LinearIPLookup

def netRoute : RouteWords := ⟨mobileNodeAddress, ipv4 255 255 255 0, 0, 1⟩

/-- The table of the mobile node: its own address, its home network, and the gateway. -/
def mobileRoutes : List (Option RouteWords) :=
  [some ⟨mobileNodeAddress, ipv4 255 255 255 255, 0, 0⟩, some netRoute,
    some ⟨0, 0, homeAgentPrivateAddress, 1⟩]

def toCorrespondent : Packet := ⟨[], correspondingNodeAddress⟩

end Deployment

namespace LinearIPLookup

/-- Whatever commands, transactions and packets a router has taken since it was configured: a
packet goes where the map of the routes that are left sends it, cached or not, to an output
that exists. The address zero needs a table without free slots. -/
theorem routes_by_best_match (noutputs : ℕ) (conf : List (Option RouteWords)) (inputs : List Input)
    (s : LinearIPLookup)
    (hrun : Runs.final (step noutputs) (some (configure noutputs conf).1) inputs = some s)
    (p : Packet) (ha : p.dstIpAnno ≠ 0 ∨ ∀ e ∈ s.t, e.real = true) :
    Routed (live s.t) p (push s p).2 ∧ (∀ o ∈ (push s p).2, 0 ≤ o.1 ∧ o.1 < noutputs) ∧
      live (push s p).1.t = live s.t := by
  have h := inv_run noutputs conf inputs s hrun
  obtain ⟨-, ht, hout⟩ := h.push_spec p
  have hrouted := h.pushPlain_routed p ha
  rw [hout, ht]
  refine ⟨hrouted, ?_, rfl⟩
  intro o ho
  rw [Option.mem_def.mp ho] at hrouted
  obtain ⟨q, v, hbest, rfl⟩ := hrouted
  exact h.live_port q v hbest.live

theorem mobile_node_routes_after_removal :
    let inputs := [.handler .remove (some Deployment.netRoute), .packet Deployment.toCorrespondent]
    let s := (Runs.final (step 2) (some (configure 2 Deployment.mobileRoutes).1) inputs).getD empty
    Routed (live s.t) Deployment.toCorrespondent (push s Deployment.toCorrespondent).2 ∧
      (∀ o ∈ (push s Deployment.toCorrespondent).2, 0 ≤ o.1 ∧ o.1 < (2 : ℕ)) ∧
      live (push s Deployment.toCorrespondent).1.t = live s.t :=
  routes_by_best_match 2 Deployment.mobileRoutes
    [.handler .remove (some Deployment.netRoute), .packet Deployment.toCorrespondent] _
    (by decide) Deployment.toCorrespondent (Or.inl (by decide))

-- after the removal a packet for 0.0.0.0 finds the killed entry, and its output does not exist
example : ((push ((Runs.final (step 2) (some (configure 2 Deployment.mobileRoutes).1)
    [.handler .remove (some Deployment.netRoute)]).getD empty) ⟨[], 0⟩).2.map Prod.fst) =
      some (-0x80000000) := by decide

/-- Of two masks of the map one is as specific as the other, as among the masks of prefixes. -/
def Nested (m : Prefix → Option NextHop) : Prop :=
  ∀ q v q' v', m q = some v → m q' = some v' →
    maskAsSpecific q.2 q'.2 = true ∨ maskAsSpecific q'.2 q.2 = true

theorem Best.unique {m : Prefix → Option NextHop} (hm : Nested m) {a : IPAddress} {q q' : Prefix}
    {v v' : NextHop} (h : Best m a q v) (h' : Best m a q' v') : q = q' ∧ v = v' := by
  have hq : q = q' := by
    rcases hm q v q' v' h.live h'.live with hle | hle
    · exact h'.maximal q v h.live h.covers hle
    · exact (h.maximal q' v' h'.live h'.covers hle).symm
  refine ⟨hq, ?_⟩
  subst hq
  exact Option.some.inj (h.live.symm.trans h'.live)

theorem Routed.unique {m : Prefix → Option NextHop} (hm : Nested m) {p : Packet}
    {out out' : Option (ℤ × Packet)} (h : Routed m p out) (h' : Routed m p out') : out = out' := by
  cases out with
  | none =>
    cases out' with
    | none => rfl
    | some o' =>
      obtain ⟨q, v, hbest, -⟩ := h'
      have hno := h q v hbest.live
      rw [hbest.covers] at hno
      cases hno
  | some o =>
    obtain ⟨q, v, hbest, rfl⟩ := h
    cases out' with
    | none =>
      have hno := h' q v hbest.live
      rw [hbest.covers] at hno
      cases hno
    | some o' =>
      obtain ⟨q', v', hbest', rfl⟩ := h'
      rw [(hbest.unique hm hbest').2]

/-- A live prefix that covers an address, and of which the mask is the most specific among those
that do, decides the route. -/
theorem Routed.decided {m : Prefix → Option NextHop} {p : Packet} {out : Option (ℤ × Packet)}
    (h : Routed m p out) (q : Prefix) (v : NextHop) (hq : m q = some v)
    (hc : matchesPrefix p.dstIpAnno q.1 q.2 = true)
    (hmax : ∀ q' v', m q' = some v' → matchesPrefix p.dstIpAnno q'.1 q'.2 = true →
      maskAsSpecific q.2 q'.2 = true) :
    out = some (v.2, if v.1 ≠ 0 then { p with dstIpAnno := v.1 } else p) := by
  cases out with
  | none =>
    have hno := h q v hq
    rw [hc] at hno
    cases hno
  | some o =>
    obtain ⟨q', v', hbest, rfl⟩ := h
    have hsame := hbest.maximal q v hq hc (hmax q' v' hbest.live hbest.covers)
    rw [hsame, hbest.live] at hq
    rw [Option.some.inj hq]

/-- A transaction of `ctrl` is atomic: it has the effects of all its lines, or it fails and
every packet is routed as if it had never begun, although the routes may have come to stand in
other slots. -/
theorem ctrl_atomic (noutputs : ℕ) (conf : List (Option RouteWords)) (inputs : List Input)
    (s s' : LinearIPLookup) (lines : List Line) (e : Option RouteError)
    (hrun : Runs.final (step noutputs) (some (configure noutputs conf).1) inputs = some s)
    (hret : ctrlHandler noutputs s lines = some (s', e)) :
    (e = none → live s'.t = effects (live s.t) lines) ∧
      (e ≠ none → live s'.t = live s.t ∧
        (Nested (live s.t) → ∀ p : Packet, p.dstIpAnno ≠ 0 → (push s' p).2 = (push s p).2)) := by
  have h := inv_run noutputs conf inputs s hrun
  obtain ⟨h', hlive⟩ := h.ctrlHandler_spec lines s' e hret
  constructor
  · intro he
    rw [hlive, if_pos he]
  · intro he
    rw [if_neg he] at hlive
    refine ⟨hlive, ?_⟩
    intro hm p hp
    have hs := h.pushPlain_routed p (Or.inl hp)
    have hs' := h'.pushPlain_routed p (Or.inl hp)
    rw [hlive] at hs'
    rw [(h.push_spec p).2.2, (h'.push_spec p).2.2]
    exact hs'.unique hm hs

theorem mobile_node_failed_transaction :
    let s := (configure 2 Deployment.mobileRoutes).1
    let lines := [.command .remove (some Deployment.netRoute), .command .add (some ⟨0, 0, 0, 1⟩)]
    let r := (ctrlHandler 2 s lines).getD (s, none)
    (r.2 = none → live r.1.t = effects (live s.t) lines) ∧
      (r.2 ≠ none → live r.1.t = live s.t ∧
        (Nested (live s.t) → ∀ p : Packet, p.dstIpAnno ≠ 0 → (push r.1 p).2 = (push s p).2)) ∧
      r.2 ≠ none := by
  intro s lines r
  have h := ctrl_atomic 2 Deployment.mobileRoutes [] s r.1 lines r.2 rfl (by decide)
  exact ⟨h.1, h.2, by decide⟩

theorem routeAt_lt (t : List IPRoute) (i : ℕ) (hi : i < t.length) : t[i]? = some (routeAt t i) := by
  unfold routeAt
  rw [List.getD_eq_getElem?_getD, List.getElem?_eq_getElem hi, Option.getD_some]

/-- The table's own consistency check never has anything to complain about. -/
theorem check_over_runs (noutputs : ℕ) (conf : List (Option RouteWords)) (inputs : List Input)
    (s : LinearIPLookup)
    (hrun : Runs.final (step noutputs) (some (configure noutputs conf).1) inputs = some s) :
    check s = true := by
  have h := inv_run noutputs conf inputs s hrun
  unfold check
  simp only [Bool.and_eq_true, Bool.or_eq_true, List.all_eq_true, List.mem_range,
    Bool.not_eq_true', beq_iff_eq]
  refine ⟨⟨⟨?_, ?_⟩, ?_⟩, ?_⟩
  · intro i hi
    cases hreal : (routeAt s.t i).real with
    | false => exact Or.inl rfl
    | true =>
      refine Or.inr ?_
      intro j hj
      by_contra hbad
      simp only [Bool.not_eq_false, Bool.and_eq_true, decide_eq_true_eq] at hbad
      have hnot := h.table.next i j _ _ (routeAt_lt s.t i hi) (routeAt_lt s.t j hj) hbad.1.1.1
        hbad.1.1.2 hreal hbad.2
      rw [hbad.1.2] at hnot
      cases hnot
  · intro i hi j hj
    by_contra hbad
    simp only [Bool.not_eq_false, Bool.and_eq_true, decide_eq_true_eq] at hbad
    have hij := h.table.nodup i j _ _ (routeAt_lt s.t i hi) (routeAt_lt s.t j hj) hbad.1.2 hbad.2
    omega
  · by_cases ha : s.lastAddr = 0
    · exact Or.inl ha
    · exact Or.inr (h.cache ha)
  · by_cases ha : s.lastAddr2 = 0
    · exact Or.inl ha
    · exact Or.inr (h.cache2 ha)

theorem mobile_node_check :
    check ((Runs.final (step 2) (some (configure 2 Deployment.mobileRoutes).1)
      [.packet Deployment.toCorrespondent, .handler .remove (some Deployment.netRoute)]).getD empty) = true :=
  check_over_runs 2 Deployment.mobileRoutes
    [.packet Deployment.toCorrespondent, .handler .remove (some Deployment.netRoute)] _ (by decide)

section Abstract

/-! The table as what it is for: a map with commands that succeed or fail. -/

def mapCommand (noutputs : ℕ) (m : Prefix → Option NextHop) (c : Command) (w : Option RouteWords) :
    Option (Prefix → Option NextHop) :=
  match w with
  | none => none
  | some w =>
    let r := cpIpRoute w
    if r.port < (if c = .remove then -1 else 0) ∨ noutputs ≤ r.port then none
    else
      match c, m (r.addr, r.mask) with
      | .add, some _ => none
      | .remove, none => none
      | .remove, some v => if r.port < 0 ∨ (r.gw, r.port) = v then some (effect m c r) else none
      | _, _ => some (effect m c r)

def mapLines (noutputs : ℕ) (m : Prefix → Option NextHop) : List Line → Option (Prefix → Option NextHop)
  | [] => some m
  | .command c w :: lines => (mapCommand noutputs m c w).bind (fun m' => mapLines noutputs m' lines)
  | _ :: _ => none

def mapStep (noutputs : ℕ) (m : Prefix → Option NextHop) : Input → Prefix → Option NextHop
  | .handler c w => (mapCommand noutputs m c w).getD m
  | .ctrl lines => (mapLines noutputs m lines).getD m
  | .packet _ => m

def mapConfigure (noutputs : ℕ) (conf : List (Option RouteWords)) : Prefix → Option NextHop :=
  conf.foldl (fun m w => (mapCommand noutputs m .add w).getD m) (fun _ => none)

/-- The removal of 0.0.0.0/32 without an output, which a killed entry answers too. -/
def RemovesZero (c : Command) (w : Option RouteWords) : Prop :=
  c = .remove ∧ ∃ words, w = some words ∧ words.port < 0 ∧
    ((cpIpRoute words).addr, (cpIpRoute words).mask) = zeroPrefix

theorem Inv.runCommand_error (h : Inv noutputs s) (c : Command) (w : Option RouteWords) (e : RouteError)
    (herr : runCommand noutputs s c w = .error e) : mapCommand noutputs (live s.t) c w = none := by
  cases w with
  | none => rfl
  | some words =>
    unfold runCommand at herr
    unfold mapCommand
    dsimp only at herr ⊢
    by_cases hbad : (cpIpRoute words).port < (if c = .remove then -1 else 0) ∨
        noutputs ≤ (cpIpRoute words).port
    · rw [if_pos hbad]
    rw [if_neg hbad] at herr ⊢
    obtain ⟨hport, hn⟩ := not_or.mp hbad
    have hport := Int.not_lt.mp hport
    cases c with
    | add =>
      have hvalid := cpIpRoute_valid words hport (Int.not_le.mp hn)
      dsimp only at herr
      rcases h.addRoute_spec hvalid false with ⟨old, -, -, hold⟩ | ⟨s', old, heq, -⟩
      · rw [hold]
      · rw [show decide (Command.add = .set) = false from rfl, heq] at herr
        cases herr
    | set =>
      have hvalid := cpIpRoute_valid words hport (Int.not_le.mp hn)
      dsimp only at herr
      rcases h.addRoute_spec hvalid true with ⟨old, -, hfalse, -⟩ | ⟨s', old, heq, -⟩
      · cases hfalse
      · rw [show decide (Command.set = .set) = true from rfl, heq] at herr
        cases herr
    | remove =>
      dsimp only at herr
      rcases h.removeRoute_spec (cpIpRoute words) hport with ⟨-, hno⟩ | ⟨s', old, heq, -⟩
      · cases hm : live s.t ((cpIpRoute words).addr, (cpIpRoute words).mask) with
        | none => rfl
        | some v => exact if_neg (hno v hm)
      · rw [heq] at herr
        cases herr

theorem Inv.runCommand_ok (h : Inv noutputs s) (c : Command) (w : Option RouteWords)
    (s' : LinearIPLookup) (rt : Saved) (hok : runCommand noutputs s c w = .ok (s', rt)) :
    mapCommand noutputs (live s.t) c w = some (live s'.t) ∨
      (RemovesZero c w ∧ mapCommand noutputs (live s.t) c w = none ∧ live s'.t = live s.t) := by
  obtain ⟨words, rfl, -, -, hlive, -⟩ := h.runCommand_spec c w s' rt hok
  unfold runCommand at hok
  unfold mapCommand
  dsimp only at hok ⊢
  by_cases hbad : (cpIpRoute words).port < (if c = .remove then -1 else 0) ∨
      noutputs ≤ (cpIpRoute words).port
  · rw [if_pos hbad] at hok
    cases hok
  rw [if_neg hbad] at hok ⊢
  obtain ⟨hport, hn⟩ := not_or.mp hbad
  have hport := Int.not_lt.mp hport
  cases c with
  | add =>
    have hvalid := cpIpRoute_valid words hport (Int.not_le.mp hn)
    dsimp only at hok
    rw [show decide (Command.add = .set) = false from rfl] at hok
    rcases h.addRoute_spec hvalid false with ⟨old, heq, -⟩ | ⟨t, old, heq, -, -, hold, hval⟩
    · rw [heq] at hok
      cases hok
    · cases old with
      | none =>
        refine Or.inl ?_
        rw [hold, hlive]
        rfl
      | some o => cases (hval o rfl).1
  | set => exact Or.inl (by rw [hlive])
  | remove =>
    dsimp only at hok
    rcases h.removeRoute_spec (cpIpRoute words) hport with
      ⟨heq, -⟩ | ⟨t, old, heq, -, -, ⟨-, -, -, hold, hwhich⟩ | ⟨-, hold, hneg, hzero⟩⟩
    · rw [heq] at hok
      cases hok
    · refine Or.inl ?_
      rw [hold, hlive]
      exact if_pos hwhich
    · refine Or.inr ⟨⟨rfl, words, rfl, hneg, hzero⟩, by rw [hold], ?_⟩
      rw [hlive]
      unfold effect
      dsimp only
      rw [← hold, Function.update_eq_self]

/-- A single command does to the table what it does to the map. -/
theorem Inv.handler_refines (h : Inv noutputs s) (c : Command) (w : Option RouteWords) :
    ∃ s', (LinearIPLookup.step noutputs (some s) (.handler c w)).1 = some s' ∧
      live s'.t = (mapCommand noutputs (live s.t) c w).getD (live s.t) := by
  unfold LinearIPLookup.step
  dsimp only
  cases hrun : runCommand noutputs s c w with
  | error e => exact ⟨s, rfl, by rw [h.runCommand_error c w e hrun, Option.getD_none]⟩
  | ok r =>
    refine ⟨r.1, rfl, ?_⟩
    rcases h.runCommand_ok c w r.1 r.2 hrun with hmap | ⟨-, hmap, hsame⟩
    · rw [hmap, Option.getD_some]
    · rw [hmap, Option.getD_none, hsame]

/-- A line that neither leaves `ctrl_handler` in its loop nor removes 0.0.0.0/32. -/
def PlainLine : Line → Prop
  | .blank => False
  | .bad => True
  | .command c w => ¬ RemovesZero c w

/-- A line with an output cannot remove 0.0.0.0/32 without one. -/
theorem PlainLine.of_output {c : Command} {w : RouteWords} (h : 0 ≤ w.port) : PlainLine (.command c (some w)) := by
  rintro ⟨-, words, hw, hneg, -⟩
  obtain rfl := Option.some.inj hw
  omega

def PlainInput : Input → Prop
  | .ctrl lines => ∀ l ∈ lines, PlainLine l
  | _ => True

theorem ctrlLoop_returns (noutputs : ℕ) (s : LinearIPLookup) (lines : List Line) (log : List Saved)
    (hl : ∀ l ∈ lines, PlainLine l) : ∃ r, ctrlLoop noutputs s lines log = some r := by
  induction lines generalizing s log with
  | nil => exact ⟨_, rfl⟩
  | cons l lines ih =>
    have hrest : ∀ l ∈ lines, PlainLine l := fun l hmem => hl l (List.mem_cons_of_mem _ hmem)
    cases l with
    | blank => exact absurd (hl .blank List.mem_cons_self) (fun h => h)
    | bad => exact ⟨_, rfl⟩
    | command c w =>
      rw [ctrlLoop]
      cases runCommand noutputs s c w with
      | error e => exact ⟨_, rfl⟩
      | ok r => exact ih r.1 (r.2 :: log) hrest

/-- The map accepts the lines of a transaction exactly if the table does. -/
theorem mapLines_eq (h : Inv noutputs s) (lines : List Line) (log : List Saved)
    (hl : ∀ l ∈ lines, PlainLine l) :
    mapLines noutputs (live s.t) lines =
      if (UndoLog.transact (runLine noutputs) undo s lines log).2 = none then
        some (effects (live s.t) lines) else none := by
  induction lines generalizing s log with
  | nil => rfl
  | cons l lines ih =>
    have hrest : ∀ l ∈ lines, PlainLine l := fun l hmem => hl l (List.mem_cons_of_mem _ hmem)
    rw [UndoLog.transact]
    cases l with
    | blank => rfl
    | bad => rfl
    | command c w =>
      rw [mapLines, runLine]
      cases hrun : runCommand noutputs s c w with
      | error e =>
        rw [h.runCommand_error c w e hrun]
        rfl
      | ok r =>
        obtain ⟨words, rfl, hinv, -, hlive, -⟩ := h.runCommand_spec c w r.1 r.2 hrun
        rcases h.runCommand_ok c (some words) r.1 r.2 hrun with hmap | ⟨hzero, -⟩
        · rw [hmap, Option.bind_some, ih hinv (r.2 :: log) hrest, hlive]
          rfl
        · exact absurd hzero (hl _ List.mem_cons_self)

theorem Inv.step_refines (h : Inv noutputs s) (i : Input) (hi : PlainInput i) :
    ∃ s', (LinearIPLookup.step noutputs (some s) i).1 = some s' ∧
      live s'.t = mapStep noutputs (live s.t) i := by
  cases i with
  | handler c w => exact h.handler_refines c w
  | packet p => exact ⟨_, rfl, congrArg live (h.push_spec p).2.1⟩
  | ctrl lines =>
    obtain ⟨⟨s', e⟩, hret⟩ := ctrlLoop_returns noutputs s lines [] hi
    have heq := ctrlLoop_eq noutputs s lines [] (s', e) hret
    have hlive := (h.ctrlHandler_spec lines s' e hret).2
    have hmap := mapLines_eq h lines [] hi
    rw [heq] at hmap
    refine ⟨s', ?_, ?_⟩
    · unfold LinearIPLookup.step ctrlHandler
      dsimp only
      rw [hret]
      rfl
    · rw [hlive, mapStep, hmap]
      dsimp only
      split_ifs
      · rfl
      · rfl

theorem live_empty : live empty.t = fun _ => none := rfl

/-- `configure` takes the first route that is listed for each prefix. -/
theorem configure_refines (noutputs : ℕ) (conf : List (Option RouteWords)) :
    live (configure noutputs conf).1.t = mapConfigure noutputs conf := by
  unfold mapConfigure
  rw [← live_empty]
  have hinv := inv_empty noutputs
  unfold configure
  generalize hr : (empty, true, 0) = r
  rw [show empty = r.1 by rw [← hr]] at hinv ⊢
  clear hr
  induction conf generalizing r with
  | nil => rfl
  | cons w conf ih =>
    rw [List.foldl_cons, List.foldl_cons]
    cases w with
    | none => exact ih (r.1, false, r.2.2) hinv
    | some w =>
      dsimp only
      have hmap : mapCommand noutputs (live r.1.t) .add (some w) =
          if (cpIpRoute w).port < 0 ∨ noutputs ≤ (cpIpRoute w).port then none
          else match live r.1.t ((cpIpRoute w).addr, (cpIpRoute w).mask) with
            | some _ => none
            | none => some (effect (live r.1.t) .add (cpIpRoute w)) := by
        unfold mapCommand
        dsimp only
        rw [if_neg (show ¬ Command.add = .remove by decide)]
        split_ifs
        · rfl
        · cases live r.1.t ((cpIpRoute w).addr, (cpIpRoute w).mask) with
          | none => rfl
          | some v => rfl
      rw [hmap]
      split_ifs with hbad
      · exact ih (r.1, false, r.2.2) hinv
      · obtain ⟨h0, hn⟩ := not_or.mp hbad
        have hvalid := cpIpRoute_valid w (Int.not_lt.mp h0) (Int.not_le.mp hn)
        rcases hinv.addRoute_spec hvalid false with
          ⟨old, heq, -, hold⟩ | ⟨t, old, heq, ht, hlive, hold, hval⟩
        · rw [heq, hold]
          exact ih (r.1, r.2.1, r.2.2+1) hinv
        · cases old with
          | none =>
            have hnext := ih (t, r.2.1, r.2.2) ht
            rw [heq, hold, Option.map_none]
            rw [hlive] at hnext
            exact hnext
          | some o => cases (hval o rfl).1

/-- The next hop that a configuration lists for a prefix. -/
def listed (noutputs : ℕ) (q : Prefix) (w : Option RouteWords) : Option NextHop :=
  w.bind (fun w => if 0 ≤ w.port ∧ w.port < noutputs ∧ ((cpIpRoute w).addr, (cpIpRoute w).mask) = q then
    some (w.gw, w.port) else none)

theorem mapCommand_add (noutputs : ℕ) (m : Prefix → Option NextHop) (w : Option RouteWords) (q : Prefix) :
    (mapCommand noutputs m .add w).getD m q = (m q).or (listed noutputs q w) := by
  cases w with
  | none => exact Option.or_none.symm
  | some w =>
    unfold mapCommand listed
    dsimp only
    rw [if_neg (show ¬ Command.add = .remove by decide), Option.bind_some]
    have hport : (cpIpRoute w).port = w.port := rfl
    rw [hport]
    by_cases hbad : w.port < 0 ∨ (noutputs : ℤ) ≤ w.port
    · rw [if_pos hbad, if_neg (by omega), Option.or_none, Option.getD_none]
    · rw [if_neg hbad]
      by_cases hq : ((cpIpRoute w).addr, (cpIpRoute w).mask) = q
      · rw [if_pos ⟨by omega, by omega, hq⟩, ← hq]
        cases hm : m ((cpIpRoute w).addr, (cpIpRoute w).mask) with
        | some v =>
          change m _ = _
          rw [hm, Option.some_or]
        | none =>
          change effect m .add (cpIpRoute w) _ = _
          unfold effect
          dsimp only
          rw [Function.update_self, Option.none_or]
          rfl
      · rw [if_neg (fun h => hq h.2.2), Option.or_none]
        cases m ((cpIpRoute w).addr, (cpIpRoute w).mask) with
        | some v => rfl
        | none => exact Function.update_of_ne (Ne.symm hq) _ _

/-- The first route that is listed for a prefix is the one that counts. -/
theorem mapConfigure_apply (noutputs : ℕ) (conf : List (Option RouteWords)) (q : Prefix) :
    mapConfigure noutputs conf q = conf.findSome? (listed noutputs q) := by
  have hfold : ∀ m : Prefix → Option NextHop,
      conf.foldl (fun m w => (mapCommand noutputs m .add w).getD m) m q =
        (m q).or (conf.findSome? (listed noutputs q)) := by
    induction conf with
    | nil =>
      intro m
      exact Option.or_none.symm
    | cons w conf ih =>
      intro m
      rw [List.foldl_cons, ih, mapCommand_add, Option.or_assoc, List.findSome?_cons]
      cases listed noutputs q w with
      | none => rw [Option.none_or]
      | some v => rw [Option.some_or]
  exact (hfold _).trans Option.none_or

/-- The table refines the map: configured and then driven by any commands, transactions and
packets, it never gets stuck and stands for the map that the same inputs lead to. -/
theorem table_refines_map (noutputs : ℕ) (conf : List (Option RouteWords)) (inputs : List Input)
    (hplain : ∀ i ∈ inputs, PlainInput i) :
    ∃ s, Runs.final (step noutputs) (some (configure noutputs conf).1) inputs = some s ∧
      live s.t = inputs.foldl (mapStep noutputs) (mapConfigure noutputs conf) := by
  rw [← configure_refines]
  have hinv := inv_configure noutputs conf
  generalize (configure noutputs conf).1 = s₀ at hinv
  induction inputs generalizing s₀ with
  | nil => exact ⟨s₀, rfl, rfl⟩
  | cons i inputs ih =>
    obtain ⟨s', hs', hlive⟩ := hinv.step_refines i (hplain i List.mem_cons_self)
    rw [Runs.final, hs', List.foldl_cons, ← hlive]
    exact ih (fun j hj => hplain j (List.mem_cons_of_mem i hj)) s' (hinv.step i hs')

/-- The home network's route is taken out and put in again by one transaction. -/
theorem mobile_node_refines_map :
    let lines := [.command .remove (some Deployment.netRoute), .command .add (some Deployment.netRoute)]
    let inputs := [.ctrl lines, .packet Deployment.toCorrespondent]
    ∃ s, Runs.final (step 2) (some (configure 2 Deployment.mobileRoutes).1) inputs = some s ∧
      live s.t = inputs.foldl (mapStep 2) (mapConfigure 2 Deployment.mobileRoutes) := by
  intro lines inputs
  refine table_refines_map 2 Deployment.mobileRoutes inputs ?_
  have hlines : PlainInput (.ctrl lines) := by
    intro l hl
    rcases List.mem_pair.mp hl with rfl | rfl
    · exact .of_output (by decide)
    · exact .of_output (by decide)
  intro i hi
  rcases List.mem_pair.mp hi with rfl | rfl
  · exact hlines
  · trivial

end Abstract

end LinearIPLookup

end MobileIP
