import Mathlib.Logic.Function.Basic
import ArmControl.Lib.Run
import ArmControl.Lib.Wrap

/-!
# The fault journal, one atomic operation at a time (`server.hpp`)

A ring of 16 records with two producers (the RT loop and the control thread) and one consumer:

* `journal`               claim an index by CAS on `fault_head`, fill the slot, publish it through
                          its `ready` mark;
* `drain_fault_journal`   copy the slots whose mark is there, release each by advancing
                          `fault_tail`, print it.

A thread's position is a `Pc`; a step is one atomic operation, or one field of a record that is
written or copied.  `claimed` (the records in claim order), `emitted`, `released` (the number of
tail stores) and `calls` are history.
-/

namespace ArmControl.Rt
namespace Journal
open Function

inductive FaultKind where
  | first | secondary | stopFailed | event
  deriving DecidableEq, Inhabited

structure FaultRecord where
  tNs : ℕ := 0
  sessionId : ℕ := 0
  code : ℕ := 0
  armEpoch : BitVec 32 := 0
  kind : FaultKind := .first
  armed : Bool := false
  text : List (BitVec 8) := []
  truncated : Bool := false
  deriving DecidableEq, Inhabited

/-- at most `cap - 1` bytes, and whether the text did not fit -/
def boundedCopy (cap : ℕ) (src : List (BitVec 8)) : List (BitVec 8) × Bool :=
  (src.take (cap - 1), decide (cap ≤ src.length))

def faultRecordText : ℕ := 240

/-- the arguments of one `journal()` call, and what its loads of the clock, the session and `armed`
will return -/
structure JournalCall where
  kind : FaultKind := .first
  code : ℕ := 0
  text : List (BitVec 8) := []
  originGen : ℕ := 0
  tNs : ℕ := 0
  sessionId : ℕ := 0
  armed : Bool := false
  deriving DecidableEq, Inhabited

def JournalCall.record (c : JournalCall) : FaultRecord :=
  let (text, truncated) := boundedCopy faultRecordText c.text
  { tNs := c.tNs, sessionId := c.sessionId, code := c.code, armEpoch := BitVec.ofNat 32 c.originGen
    kind := c.kind, armed := c.armed, text := text, truncated := truncated }

/-- write field `i` of `src` over the one of `dst`, in the source's order -/
def copyField (src dst : FaultRecord) : ℕ → FaultRecord
  | 0 => { dst with tNs := src.tNs }
  | 1 => { dst with sessionId := src.sessionId }
  | 2 => { dst with code := src.code }
  | 3 => { dst with armEpoch := src.armEpoch }
  | 4 => { dst with kind := src.kind }
  | 5 => { dst with armed := src.armed }
  | 6 => { dst with text := src.text }
  | 7 => { dst with truncated := src.truncated }
  | _ => dst

def fields : ℕ := 8

/-- `FAULT_RING` and `FAULT_CLAIM_TRIES` -/
def faultRing : ℕ := 16
def faultClaimTries : ℕ := 4

structure FaultSlot where
  record : FaultRecord := {}
  ready : BitVec 32 := 0
  deriving DecidableEq, Inhabited

inductive Producer where
  | rt | control
  deriving DecidableEq

/-- position inside `journal()`: the next atomic operation -/
inductive ProducerPc where
  | idle
  | loadHead (r : FaultRecord)
  | loadTail (r : FaultRecord) (head : BitVec 32) (tries : ℕ)
  | drop
  | claim (r : FaultRecord) (head : BitVec 32) (tries : ℕ)
  | contend
  | fill (r : FaultRecord) (head : BitVec 32) (i : ℕ)
  | publish (r : FaultRecord) (head : BitVec 32)
  deriving DecidableEq

/-- position inside `drain_fault_journal()` -/
inductive ConsumerPc where
  | idle
  | loadTail
  | loadReady (tail : BitVec 32)
  | copy (tail : BitVec 32) (r : FaultRecord) (i : ℕ)
  | storeTail (tail : BitVec 32) (r : FaultRecord)
  | print (tail : BitVec 32) (r : FaultRecord)
  deriving DecidableEq

structure State where
  faultHead : BitVec 32 := 0
  faultTail : BitVec 32 := 0
  faultDropped : BitVec 32 := 0
  faultContended : BitVec 32 := 0
  ring : ℕ → FaultSlot := fun _ => {}
  pc : Producer → ProducerPc := fun _ => .idle
  consumer : ConsumerPc := .idle
  claimed : List FaultRecord := []
  emitted : List FaultRecord := []
  released : ℕ := 0
  calls : ℕ := 0

/-- the slot of an index -/
def slotOf (h : BitVec 32) : ℕ := h.toNat % faultRing

def State.goto (s : State) (p : Producer) (pc : ProducerPc) : State := { s with pc := update s.pc p pc }

def State.setSlot (s : State) (h : BitVec 32) (slot : FaultSlot) : State :=
  { s with ring := update s.ring (slotOf h) slot }

/-- the next operation of a producer -/
def produce (s : State) (p : Producer) : State :=
  match s.pc p with
  | .idle => s
  | .loadHead r => s.goto p (.loadTail r s.faultHead 0)
  | .loadTail r head tries =>
    if faultRing ≤ (head - s.faultTail).toNat then s.goto p .drop
    else s.goto p (.claim r head tries)
  | .drop => { s with faultDropped := s.faultDropped + 1 }.goto p .idle
  | .claim r head tries =>
    if s.faultHead = head then
      { s with faultHead := head + 1, claimed := s.claimed ++ [r] }.goto p (.fill r head 0)
    else if faultClaimTries ≤ tries + 1 then s.goto p .contend
    else s.goto p (.loadTail r s.faultHead (tries + 1))
  | .contend => { s with faultContended := s.faultContended + 1 }.goto p .idle
  | .fill r head i =>
    let slot := s.ring (slotOf head)
    (s.setSlot head { slot with record := copyField r slot.record i }).goto p
      (if i + 1 = fields then .publish r head else .fill r head (i + 1))
  | .publish _ head =>
    let slot := s.ring (slotOf head)
    (s.setSlot head { slot with ready := head + 1 }).goto p .idle

/-- the next operation of the consumer -/
def consume (s : State) : State :=
  match s.consumer with
  | .idle => s
  | .loadTail => { s with consumer := .loadReady s.faultTail }
  | .loadReady tail =>
    if (s.ring (slotOf tail)).ready = tail + 1 then { s with consumer := .copy tail {} 0 }
    else { s with consumer := .idle }
  | .copy tail r i =>
    let r := copyField (s.ring (slotOf tail)).record r i
    { s with consumer := if i + 1 = fields then .storeTail tail r else .copy tail r (i + 1) }
  | .storeTail tail r =>
    { s with faultTail := tail + 1, released := s.released + 1, consumer := .print tail r }
  | .print tail r => { s with emitted := s.emitted ++ [r], consumer := .loadReady (tail + 1) }

inductive Event where
  | call (p : Producer) (c : JournalCall)
  | produce (p : Producer)
  | drain
  | consume

/-- a call waits until the thread's own previous one has returned -/
def step (s : State) : Event → State
  | .call p c =>
    if s.pc p = .idle then { s with calls := s.calls + 1 }.goto p (.loadHead c.record) else s
  | .produce p => produce s p
  | .drain => if s.consumer = .idle then { s with consumer := .loadTail } else s
  | .consume => consume s

end Journal

end ArmControl.Rt
