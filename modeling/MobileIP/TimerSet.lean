import MobileIP.Heap

/-! `TimerSet`: the timers of a thread in a heap, first those that expire first. Timers are
scheduled and unscheduled at any time, also by the callbacks of timers that are being run. -/
namespace MobileIP

/-- An element of `_timer_heap`. A timestamp is its number of nanoseconds, a timer its address. -/
structure HeapElement where
  expiryS : ℤ
  t : ℕ
  deriving DecidableEq, Repr, Inhabited

def heapLess (a b : HeapElement) : Bool := decide (a.expiryS < b.expiryS)

/-- The members of the timers are functions of the timer. -/
structure TimerSet where
  heap : List HeapElement
  -- `_timer_runchunk`; a timer that is taken out of it leaves a null pointer
  runchunk : List (Option ℕ)
  -- above zero: a place in the heap; below zero: a place in the chunk
  schedpos1 : ℕ → ℤ
  expiryS : ℕ → ℤ
  timerCheck : ℤ
  timerExpiry : ℤ

namespace TimerSet

def sec (x : ℤ) : ℤ := x/1000000000

def behindSec : ℤ := 1

def start (now : ℤ) : TimerSet := ⟨[], [], fun _ => 0, fun _ => 0, now, 0⟩

def setTimerExpiry (s : TimerSet) : TimerSet :=
  { s with timerExpiry := match s.heap with
      | [] => 0
      | e :: _ => e.expiryS }

/-- Timers are not scheduled for too far in the past. The first value is `check_timer_expiry`'s
time of the last run. -/
def checkTimerExpiry (check expiry : ℤ) : ℤ := if sec expiry+behindSec < sec check then check else expiry

/-- The expiry that `schedule_at_steady` sets, which is not zero. -/
def expiryFor (check time : ℤ) : ℤ := checkTimerExpiry check (if time ≠ 0 then time else 1)

/-- `change_heap<4>` with `heap_less` and `heap_place`. -/
def change (s : TimerSet) (i : ℕ) : TimerSet :=
  let r := (Heap.changeHeap 4 heapLess (Heap.tell HeapElement.t) ⟨s.heap, s.schedpos1⟩ i).1
  { s with heap := r.h, schedpos1 := r.p }

/-- `remove_heap<4>` and `pop_back`. -/
def remove (s : TimerSet) (i : ℕ) : TimerSet :=
  let r := Heap.removeHeap 4 heapLess (Heap.tell HeapElement.t) ⟨s.heap, s.schedpos1⟩ i
  { s with heap := r.h.dropLast, schedpos1 := r.p }

def setSchedpos1 (s : TimerSet) (t : ℕ) (v : ℤ) : TimerSet :=
  { s with schedpos1 := Function.update s.schedpos1 t v }

@[simp] theorem setSchedpos1_self (s : TimerSet) (t : ℕ) (v : ℤ) : (s.setSchedpos1 t v).schedpos1 t = v := by
  unfold setSchedpos1
  dsimp only
  rw [Function.update_self]

/-- The element of a timer with its new expiry: where it is, or at the end of the heap. -/
def putElement (s : TimerSet) (t : ℕ) (e : ℤ) : TimerSet :=
  let old := s.schedpos1 t
  if old ≤ 0 then
    { s with
      -- any reschedule removes a timer from the chunk
      runchunk := if old < 0 then s.runchunk.set (-old-1).toNat none else s.runchunk
      schedpos1 := Function.update s.schedpos1 t (s.heap.length+1)
      heap := s.heap ++ [⟨e, t⟩] }
  else
    let i := (old-1).toNat
    { s with heap := s.heap.set i { Heap.get s.heap i with expiryS := e } }

/-- `Timer::schedule_at_steady`. -/
def scheduleAtSteady (s : TimerSet) (t : ℕ) (time : ℤ) : TimerSet :=
  let e := expiryFor s.timerCheck time
  let put := { s with expiryS := Function.update s.expiryS t e }.putElement t e
  let changed := put.change (put.schedpos1 t-1).toNat
  if s.schedpos1 t = 1 ∨ changed.schedpos1 t = 1 then changed.setTimerExpiry else changed

/-- `Timer::unschedule`. -/
def unschedule (s : TimerSet) (t : ℕ) : TimerSet :=
  let old := s.schedpos1 t
  if old = 0 then s
  else if 0 < old then
    let s := s.remove (old-1).toNat
    (if old = 1 then s.setTimerExpiry else s).setSchedpos1 t 0
  else { s with runchunk := s.runchunk.set (-old-1).toNat none }.setSchedpos1 t 0

/-- What a task, a packet handler or a callback may do to a timer. -/
inductive Op where
  | schedule (t : ℕ) (time : ℤ)
  | unschedule (t : ℕ)
  deriving DecidableEq, Repr

def Op.timer : Op → ℕ
  | .schedule t _ => t
  | .unschedule t => t

def apply (s : TimerSet) : Op → TimerSet
  | .schedule t time => s.scheduleAtSteady t time
  | .unschedule t => s.unschedule t

/-- The rest of the router: what a callback does, and `stop_flag` of the thread (or that the
master is paused). -/
structure Hooks (σ : Type) where
  callback : σ → ℕ → σ × List Op
  stop : σ → Bool

inductive Event where
  -- `run_timers` reads the clock
  | check (now : ℤ)
  | fired (t : ℕ)
  | op (o : Op)
  deriving DecidableEq, Repr

variable {σ : Type} (k : Hooks σ)

def runOneTimer (t : ℕ) (s : TimerSet × σ) : (TimerSet × σ) × List Event :=
  let r := k.callback s.2 t
  ((r.2.foldl apply s.1, r.1), .fired t :: r.2.map .op)

/-- The first timer is due. -/
def due (s : TimerSet) : Bool :=
  match s.heap with
  | [] => false
  | e :: _ => decide (e.expiryS ≤ s.timerCheck)

/-- The first timer of the heap, which is taken out of it. -/
def firstTimer (s : TimerSet) : ℕ := (Heap.get s.heap 0).t

def popFirst (s : TimerSet) : TimerSet := (s.remove 0).setTimerExpiry.setSchedpos1 s.firstTimer 0

/-- The first loop of `run_timers`, for `max_timers`; and whether it ended at that limit. -/
def runHeap : ℕ → TimerSet × σ → (TimerSet × σ) × List Event × Bool
  | n, s =>
    let r := runOneTimer k s.1.firstTimer (s.1.popFirst, s.2)
    if r.1.1.due && !k.stop r.1.2 then
      match n with
      | 0 => (r.1, r.2, true)
      | n+1 =>
        let rest := runHeap n r.1
        (rest.1, r.2 ++ rest.2.1, rest.2.2)
    else (r.1, r.2, false)

/-- The first timer of the heap goes to the end of the chunk. -/
def fillOne (s : TimerSet) : TimerSet :=
  { (s.remove 0).setSchedpos1 s.firstTimer (-(s.runchunk.length : ℤ)-1) with
    runchunk := s.runchunk ++ [some s.firstTimer] }

/-- All timers that are due go to the chunk. The size of the heap is enough fuel. -/
def fillChunk : ℕ → TimerSet → TimerSet
  | 0, s => s
  | fuel+1, s => if s.fillOne.due then fillChunk fuel s.fillOne else s.fillOne

def chunkAt (s : TimerSet) (i : ℕ) : Option ℕ := (s.runchunk[i]?).join

/-- The loop over the chunk from `i` on, and where it stops. -/
def runChunk : ℕ → ℕ → TimerSet × σ → (TimerSet × σ) × List Event × ℕ
  | 0, i, s => (s, [], i)
  | n+1, i, s =>
    if k.stop s.2 then (s, [], i)
    else
      match s.1.chunkAt i with
      | some t =>
        let r := runOneTimer k t (s.1.setSchedpos1 t 0, s.2)
        let rest := runChunk n (i+1) r.1
        (rest.1, r.2 ++ rest.2.1, rest.2.2)
      | none => runChunk n (i+1) s

/-- Timers that were not run go back to the heap. -/
def reschedule : ℕ → ℕ → TimerSet → TimerSet × List Event
  | 0, _, s => (s, [])
  | n+1, i, s =>
    match s.chunkAt i with
    | some t =>
      let rest := reschedule n (i+1) ((s.setSchedpos1 t 0).scheduleAtSteady t (s.expiryS t))
      (rest.1, .op (.schedule t (s.expiryS t)) :: rest.2)
    | none => reschedule n (i+1) s

/-- The part of `run_timers` for a timer that is very far behind. -/
def runAll (s : TimerSet × σ) : (TimerSet × σ) × List Event :=
  let full := (fillChunk s.1.heap.length s.1).setTimerExpiry
  let r := runChunk k full.runchunk.length 0 (full, s.2)
  let back := reschedule (full.runchunk.length-r.2.2) r.2.2 r.1.1
  (({ back.1 with runchunk := [] }, r.1.2), r.2.1 ++ back.2)

def runTimers (now : ℤ) (s : TimerSet × σ) : (TimerSet × σ) × List Event :=
  if s.1.heap = [] ∨ k.stop s.2 then (s, [])
  else
    let s : TimerSet × σ := ({ s.1 with timerCheck := now }, s.2)
    if s.1.due then
      let r := runHeap k 64 s
      if r.2.2 then
        let rest := runAll k r.1
        (rest.1, .check now :: (r.2.1 ++ rest.2))
      else (r.1, .check now :: r.2.1)
    else (s, [.check now])

/-- The loop of `kill_router`, from the end of the heap; `owned` are the timers of the router. -/
def killLoop (owned : ℕ → Bool) : ℕ → TimerSet → TimerSet
  | 0, s => s
  | i+1, s =>
    let t := (Heap.get s.heap i).t
    killLoop owned i (if owned t then (s.remove i).setSchedpos1 t 0 else s)

def killRouter (s : TimerSet) (owned : ℕ → Bool) : TimerSet := (killLoop owned s.heap.length s).setTimerExpiry

end TimerSet

end MobileIP
