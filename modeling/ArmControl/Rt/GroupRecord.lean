import ArmControl.Rt.Server

/-!
# Group records (`group_record.hpp`)

One slot per member in a shared segment.  A member writes only its own slot; two threads of its
server do (the control thread and the servo tick), so every write enters the sequence lock: it is
one replacement of the whole value, refused when the current state is not in the write's
`allowedFrom` mask.  The tick makes one attempt, which may be contended.

* `GroupSlot.tryWrite`   one attempt;
* `peerVerdict`          what a member concludes about one peer's snapshot;
* `groupDeadline`        the earliest deadline of the members committed for the group.
-/

namespace ArmControl.Rt

inductive GroupState where
  | none | staged | ready | committed | running | faulted | cancelled | done
  deriving DecidableEq, Inhabited

def GroupState.code : GroupState → ℕ
  | .none => 0
  | .staged => 1
  | .ready => 2
  | .committed => 3
  | .running => 4
  | .faulted => 5
  | .cancelled => 6
  | .done => 7

structure GroupSlot where
  state : GroupState := .none
  armEpoch : ℕ := 0
  faultCode : ℕ := 0
  groupId : ℕ := 0
  sessionId : ℕ := 0
  selectedNs : ℕ := 0
  deadlineNs : ℕ := 0
  deriving DecidableEq, Inhabited

/-- the slot states a write may replace -/
abbrev StateMask := GroupState → Bool

def anyState : StateMask := fun _ => true
def onlyState (st : GroupState) : StateMask := fun x => x == st
def exceptState (st : GroupState) : StateMask := fun x => x != st
def liveStates : StateMask := fun x =>
  x == .staged || x == .ready || x == .committed || x == .running
/-- what leaving a group replaces: every state but FAULTED and DONE -/
def leaveStates : StateMask := fun x => liveStates x || x == .cancelled || x == .none

inductive WriteResult where
  | written | contended | refused
  deriving DecidableEq, Inhabited

namespace GroupSlot

/-- `try_write_slot` -/
def tryWrite (s : GroupSlot) (contended : Bool) (new : GroupSlot) (allowedFrom : StateMask) :
    WriteResult × GroupSlot :=
  if contended then (.contended, s)
  else if allowedFrom s.state then (.written, new) else (.refused, s)

/-- `write_slot`: retried until it is not contended -/
def write (s new : GroupSlot) (allowedFrom : StateMask) : GroupSlot :=
  (s.tryWrite false new allowedFrom).2

theorem tryWrite_cases (s : GroupSlot) (contended : Bool) (new : GroupSlot)
    (allowedFrom : StateMask) :
    (s.tryWrite contended new allowedFrom = (.contended, s) ∧ contended = true) ∨
    (s.tryWrite contended new allowedFrom = (.written, new) ∧ contended = false ∧
      allowedFrom s.state = true) ∨
    (s.tryWrite contended new allowedFrom = (.refused, s) ∧ contended = false ∧
      allowedFrom s.state = false) := by
  cases contended <;> cases ha : allowedFrom s.state <;> simp [tryWrite, ha]

theorem write_cases (s new : GroupSlot) (allowedFrom : StateMask) :
    (s.write new allowedFrom = new ∧ allowedFrom s.state = true) ∨
    (s.write new allowedFrom = s ∧ allowedFrom s.state = false) := by
  cases ha : allowedFrom s.state <;> simp [write, tryWrite, ha]

end GroupSlot

/-- a consistent copy of one slot with its heartbeat, or nothing -/
structure GroupSnapshot where
  ok : Bool := false
  slot : GroupSlot := {}
  heartbeatNs : ℕ := 0
  deriving DecidableEq, Inhabited

inductive PeerVerdict where
  | ok | unknown | faulted | cancelled | stale
  deriving DecidableEq, Inhabited

def PeerVerdict.code : PeerVerdict → ℕ
  | .ok => 0
  | .unknown => 1
  | .faulted => 2
  | .cancelled => 3
  | .stale => 4

def peerVerdict (peer : GroupSnapshot) (groupId now maxAgeNs : ℕ) : PeerVerdict :=
  if peer.ok = false then .unknown
  else if peer.slot.groupId ≠ groupId then .unknown
  else
    match peer.slot.state with
    | .faulted => .faulted
    | .cancelled => .cancelled
    | .done => .ok
    | .none => .unknown
    | _ =>
      if peer.heartbeatNs = 0 then .stale
      else if now < peer.heartbeatNs then .ok
      else if maxAgeNs < now - peer.heartbeatNs then .stale
      else .ok

theorem peerVerdict_ok {peer : GroupSnapshot} {groupId now maxAgeNs : ℕ}
    (h : peerVerdict peer groupId now maxAgeNs = .ok) :
    peer.ok = true ∧ peer.slot.groupId = groupId ∧ peer.slot.state ≠ .faulted ∧
      peer.slot.state ≠ .cancelled := by
  unfold peerVerdict at h
  by_cases h1 : peer.ok = false
  · rw [if_pos h1] at h
    cases h
  by_cases h2 : peer.slot.groupId ≠ groupId
  · rw [if_neg h1, if_pos h2] at h
    cases h
  rw [if_neg h1, if_neg h2] at h
  refine ⟨by simpa using h1, by simpa using h2, ?_, ?_⟩ <;>
  · intro hs
    rw [hs] at h
    cases h

/-- one peer's contribution to the group deadline -/
def deadlineWith (groupId deadline : ℕ) (peer : GroupSnapshot) : ℕ :=
  if peer.ok = false ∨ peer.slot.groupId ≠ groupId ∨ peer.slot.deadlineNs = 0 then deadline
  else if peer.slot.state ≠ .committed ∧ peer.slot.state ≠ .running ∧ peer.slot.state ≠ .done then
    deadline
  else if deadline = 0 ∨ peer.slot.deadlineNs < deadline then peer.slot.deadlineNs
  else deadline

def groupDeadline (peers : ℕ → GroupSnapshot) (members self groupId mine : ℕ) : ℕ :=
  (List.range members).foldl
    (fun deadline m => if m = self then deadline else deadlineWith groupId deadline (peers m)) mine

/-- the first peer that is not OK, as the tick and the COMMIT check look for it -/
def firstBadPeer (peers : ℕ → GroupSnapshot) (members self groupId now maxAgeNs : ℕ) :
    Option PeerVerdict :=
  ((List.range members).filter (· ≠ self)).findSome? fun m =>
    let v := peerVerdict (peers m) groupId now maxAgeNs
    if v = .ok then none else some v

end ArmControl.Rt
