import ArmControl.Lib.Seqlock
import ArmControl.Rt.GroupRecord

/-!
# Snapshots of a group slot, one access at a time (`group_record.hpp`)

The control thread and the servo tick of a server write its slot, the servo ticks of its peers read it.  A step is one
load, store or compare-and-swap.  Fences order nothing in an interleaving and are left out.

* `Slot`             the fields of a slot, with their widths;
* `SlotEvent`        a call of `try_write_slot` or `write_slot`, the next access of a thread, a heartbeat;
* `finished_tryWrite`   a call that got in is one atomic `GroupSlot.tryWrite`;
* `slot_snapshots`   snapshots are never torn, refused calls change nothing, writers are never both inside;
* `slot_writes`      the calls of a run are atomic ones, one after the other.
-/

namespace ArmControl.Rt

inductive SlotField where
  | state | armEpoch | faultCode | groupId | sessionId | selectedNs | deadlineNs | heartbeatNs
  deriving DecidableEq

def SlotField.width : SlotField → ℕ
  | .state | .armEpoch | .faultCode => 32
  | .groupId | .sessionId | .selectedNs | .deadlineNs | .heartbeatNs => 64

/-- a field of a slot -/
abbrev SlotWord (i : SlotField) : Type := BitVec i.width

abbrev Slot := ∀ i, SlotWord i

/-- what the sequence lock protects, in the order of the stores -/
def protectedFields : List SlotField := [.state, .armEpoch, .faultCode, .groupId, .sessionId, .selectedNs, .deadlineNs]

/-- the 32-bit sequence lock of a slot, read in at most `GROUP_READ_TRIES` tries -/
def slotShape : Seqlock.Shape SlotField 32 where
  gate := .state
  stored := protectedFields
  loaded := protectedFields ++ [.heartbeatNs]
  tries := 4
  gate_stored := by decide
  stored_loaded := by decide
  wide := by decide

/-- the arguments of `try_write_slot` -/
structure SlotWrite where
  state : GroupState
  groupId : BitVec 64
  sessionId : BitVec 64
  armEpoch : BitVec 32
  faultCode : BitVec 32 := 0
  selectedNs : BitVec 64 := 0
  deadlineNs : BitVec 64 := 0
  /-- a bit for each state that may be replaced -/
  allowedFrom : BitVec 32 := BitVec.allOnes 32

def SlotWrite.value (a : SlotWrite) : Slot
  | .state => BitVec.ofNat 32 a.state.code
  | .armEpoch => a.armEpoch
  | .faultCode => a.faultCode
  | .groupId => a.groupId
  | .sessionId => a.sessionId
  | .selectedNs => a.selectedNs
  | .deadlineNs => a.deadlineNs
  | .heartbeatNs => (0 : BitVec 64)

/-- the bit of the state that is there -/
def SlotWrite.allows (a : SlotWrite) (state : BitVec 32) : Bool := (a.allowedFrom >>> state).getLsbD 0

def SlotWrite.call (a : SlotWrite) (spins : Bool) : Seqlock.Call slotShape SlotWord := ⟨a.value, a.allows, spins⟩

inductive SlotEvent (ω ρ : Type) where
  | tryWriteSlot (w : ω) (a : SlotWrite)
  | writeSlot (w : ω) (a : SlotWrite)
  /-- the next access of a writer -/
  | write (w : ω)
  /-- the next access of a `read_slot` -/
  | readSlot (r : ρ)
  | heartbeat (nowNs : BitVec 64)

def blankSlot : Slot := fun _ => 0

variable {ω ρ : Type}

def SlotEvent.event : SlotEvent ω ρ → Seqlock.Event slotShape SlotWord ω ρ
  | .tryWriteSlot w a => .call w (a.call false)
  | .writeSlot w a => .call w (a.call true)
  | .write w => .write w
  | .readSlot r => .read r blankSlot
  | .heartbeat nowNs => .touch .heartbeatNs nowNs

variable [DecidableEq ω] [DecidableEq ρ]

/-- a slot, from an even sequence number on -/
def slotRun (b : ℕ) (value : Slot) (es : List (SlotEvent ω ρ)) : Seqlock.State slotShape SlotWord ω ρ :=
  Run.run Seqlock.State.step (Seqlock.State.start b value) (es.map SlotEvent.event)

/-! ## one call is one atomic write -/

/-- the state with a code -/
def stateOf (code : BitVec 32) : GroupState :=
  if code = 1 then .staged else if code = 2 then .ready else if code = 3 then .committed else if code = 4 then .running
  else if code = 5 then .faulted else if code = 6 then .cancelled else if code = 7 then .done else .none

theorem stateOf_code (st : GroupState) : stateOf (BitVec.ofNat 32 st.code) = st := by
  cases st <;> rfl

/-- the record of a slot -/
def Slot.record (d : Slot) : GroupSlot where
  state := stateOf (d .state)
  armEpoch := (d .armEpoch).toNat
  faultCode := (d .faultCode).toNat
  groupId := (d .groupId).toNat
  sessionId := (d .sessionId).toNat
  selectedNs := (d .selectedNs).toNat
  deadlineNs := (d .deadlineNs).toNat

/-- the mask of a write -/
def SlotWrite.mask (a : SlotWrite) : StateMask := fun st => a.allows (BitVec.ofNat 32 st.code)

theorem record_congr {d d' : Slot} (h : Seqlock.Agree slotShape d d') : Slot.record d = Slot.record d' := by
  have hfield : ∀ i, i ∈ protectedFields → d i = d' i := h
  unfold Slot.record
  rw [hfield .state (by decide), hfield .armEpoch (by decide), hfield .faultCode (by decide), hfield .groupId (by decide),
    hfield .sessionId (by decide), hfield .selectedNs (by decide), hfield .deadlineNs (by decide)]

/-- **A call that got in is one atomic write** -/
theorem finished_tryWrite {f : Seqlock.Finished slotShape SlotWord} {a : SlotWrite} {spins : Bool} (hf : f.Ok) (hcall : f.call = a.call spins)
    (hcode : ∃ st : GroupState, f.before .state = BitVec.ofNat 32 st.code) :
    (Slot.record f.before).tryWrite false (Slot.record a.value) a.mask =
      (if f.result = .written then WriteResult.written else WriteResult.refused, Slot.record f.after) := by
  obtain ⟨st, hst⟩ := hcode
  have hmask : a.mask (Slot.record f.before).state = f.call.allowed (f.before .state) := by
    have hstate : (Slot.record f.before).state = st := by
      show stateOf (f.before .state) = st
      rw [hst, stateOf_code]
    rw [hstate, hcall, hst]
    rfl
  unfold GroupSlot.tryWrite
  rw [if_neg Bool.false_ne_true]
  cases hresult : f.result with
  | written =>
    obtain ⟨hallowed, hafter⟩ := hf.written hresult
    have hyes : a.mask (Slot.record f.before).state = true := hmask.trans hallowed
    have hnew : Slot.record f.after = Slot.record a.value := by
      rw [record_congr hafter, hcall]
      rfl
    rw [if_pos hyes, hnew]
    rfl
  | refused =>
    obtain ⟨hallowed, hafter⟩ := hf.refused hresult
    have hno : a.mask (Slot.record f.before).state = false := hmask.trans hallowed
    rw [if_neg (Bool.eq_false_iff.mp hno), record_congr hafter]
    rfl
  | contended => exact (hf.inside hresult).elim

/-! ## every run -/

theorem slotRun_calls (b : ℕ) (value : Slot) (es : List (SlotEvent ω ρ)) :
    ∀ f ∈ (slotRun b value es).finished, ∃ a spins, f.call = SlotWrite.call a spins := by
  refine (Seqlock.Only.run (P := fun c => ∃ a spins, c = SlotWrite.call a spins) b value fun w c hmem => ?_).finished
  obtain ⟨e, -, he⟩ := List.mem_map.mp hmem
  cases e with
  | tryWriteSlot w' a =>
    obtain ⟨-, rfl⟩ := Seqlock.Event.call.inj he
    exact ⟨a, false, rfl⟩
  | writeSlot w' a =>
    obtain ⟨-, rfl⟩ := Seqlock.Event.call.inj he
    exact ⟨a, true, rfl⟩
  | write w' => cases he
  | readSlot r => cases he
  | heartbeat nowNs => cases he

/-- **Snapshots of a slot.** -/
theorem slot_snapshots (b : ℕ) (value : Slot) (es : List (SlotEvent ω ρ)) :
    -- a complete snapshot is the first value or that of one written call
    (∀ x ∈ (slotRun b value es).snapshots, x.ok = true → x.calls < 2 ^ 31 →
      ∃ v, (v = value ∨ ∃ f ∈ (slotRun b value es).finished, f.result = .written ∧
        ∃ a spins, f.call = SlotWrite.call a spins ∧ v = a.value) ∧ ∀ i ∈ protectedFields, x.out i = v i) ∧
    -- a refused call changes nothing
    (∀ f ∈ (slotRun b value es).finished, f.result = .refused → ∀ i ∈ protectedFields, f.before i = f.after i) ∧
    -- writers are never both inside
    ∀ w w', ((slotRun b value es).writer w).Inside → ((slotRun b value es).writer w').Inside → w = w' := by
  have hinv : Seqlock.Inv b value (slotRun b value es) := Seqlock.Inv.run slotShape b value _
  refine ⟨fun x hx hok hcalls => ?_, fun f hf hrefused => ((hinv.finished f hf).refused hrefused).2, hinv.alone⟩
  obtain ⟨v, hv, hagree⟩ := hinv.snapshots x hx hok hcalls
  refine ⟨v, ?_, hagree⟩
  rcases hv with rfl | ⟨f, hf, hwritten, rfl⟩
  · exact .inl rfl
  · obtain ⟨a, spins, hcall⟩ := slotRun_calls b value es f hf
    refine .inr ⟨f, hf, hwritten, a, spins, hcall, ?_⟩
    rw [hcall]
    rfl

/-- a read during a write, while the other writer finds it in the way and is refused later -/
def interleaved : List (SlotEvent Bool Unit) :=
  [.writeSlot true { state := .staged, groupId := 7, sessionId := 3, armEpoch := 2 }, .write true, .write true, .readSlot (), .readSlot (),
    .tryWriteSlot false { state := .ready, groupId := 9, sessionId := 3, armEpoch := 2, allowedFrom := 0 }, .write false] ++
  List.replicate 9 (.write true) ++ List.replicate 10 (.readSlot ()) ++
  [.tryWriteSlot false { state := .ready, groupId := 9, sessionId := 3, armEpoch := 2, allowedFrom := 0 }] ++
  List.replicate 4 (.write false)

theorem slot_snapshots_interleaved :
    ((slotRun 0 blankSlot interleaved).snapshots.any fun x => x.ok && (x.out .groupId).toNat == 7) = true ∧
    ((slotRun 0 blankSlot interleaved).finished.map fun f => (f.result, (f.after .groupId).toNat)) =
      [(.written, 7), (.refused, 7)] ∧
    ∀ f ∈ (slotRun 0 blankSlot interleaved).finished, f.result = .refused → ∀ i ∈ protectedFields, f.before i = f.after i :=
  ⟨by decide +kernel, by decide +kernel, (slot_snapshots 0 blankSlot interleaved).2.1⟩

/-! ## the calls one after the other -/

/-- attempts with nobody in the way -/
def tryWrites : GroupSlot → List SlotWrite → List WriteResult × GroupSlot
  | s, [] => ([], s)
  | s, a :: as =>
    let first := s.tryWrite false (Slot.record a.value) a.mask
    let others := tryWrites first.2 as
    (first.1 :: others.1, others.2)

/-- what a call that got in returns -/
def outcome (f : Seqlock.Finished slotShape SlotWord) : WriteResult := if f.result = .written then .written else .refused

/-- what a call that got in leaves -/
theorem finished_after {f : Seqlock.Finished slotShape SlotWord} {v : Slot} (hf : f.Ok) (hbefore : Seqlock.Agree slotShape f.before v) :
    Slot.record f.after = Slot.record (if f.result = .written then f.call.value else v) := by
  cases hresult : f.result with
  | written => exact record_congr (hf.written hresult).2
  | refused => exact record_congr fun i hi => ((hf.refused hresult).2 i hi).symm.trans (hbefore i hi)
  | contended => exact (hf.inside hresult).elim

theorem replays_tryWrites {v v' : Slot} {fs : List (Seqlock.Finished slotShape SlotWord)} (h : Seqlock.Replays slotShape v fs v')
    (hok : ∀ f ∈ fs, f.Ok) (hcalls : ∀ f ∈ fs, ∃ a spins, f.call = SlotWrite.call a spins)
    (hstate : ∃ st : GroupState, v .state = BitVec.ofNat 32 st.code) :
    ∃ as, List.Forall₂ (fun f a => ∃ spins, f.call = SlotWrite.call a spins) fs as ∧
      tryWrites (Slot.record v) as = (fs.map outcome, Slot.record v') := by
  induction fs generalizing v with
  | nil =>
    obtain rfl : v = v' := h
    exact ⟨[], .nil, rfl⟩
  | cons f fs ih =>
    obtain ⟨hbefore, hrest⟩ := h
    obtain ⟨st, hst⟩ := hstate
    obtain ⟨a, spins, hcall⟩ := hcalls f List.mem_cons_self
    have hf := hok f List.mem_cons_self
    have hone := finished_tryWrite hf hcall ⟨st, (hbefore .state (by decide)).trans hst⟩
    rw [record_congr hbefore, finished_after hf hbefore] at hone
    have hnext : ∃ st : GroupState, (if f.result = .written then f.call.value else v) .state = BitVec.ofNat 32 st.code := by
      split_ifs
      · exact ⟨a.state, by rw [hcall]; rfl⟩
      · exact ⟨st, hst⟩
    obtain ⟨as, hsame, hrun⟩ := ih hrest (fun g hg => hok g (List.mem_cons_of_mem f hg))
      (fun g hg => hcalls g (List.mem_cons_of_mem f hg)) hnext
    refine ⟨a :: as, .cons ⟨spins, hcall⟩ hsame, ?_⟩
    unfold tryWrites
    rw [hone]
    dsimp only
    rw [hrun]
    rfl

/-- **The calls of a run are atomic ones**, in the order in which they left: with the results they had, and with what the slot holds
while nobody is inside -/
theorem slot_writes (b : ℕ) (first : SlotWrite) (es : List (SlotEvent ω ρ)) :
    let s := slotRun b first.value es
    ∃ as, List.Forall₂ (fun f a => ∃ spins, f.call = SlotWrite.call a spins) s.finished as ∧
      tryWrites (Slot.record first.value) as = (s.finished.map outcome, Slot.record s.current) ∧
      ((∀ w, ¬ (s.writer w).Inside) → Slot.record s.data = Slot.record s.current) := by
  intro s
  have hinv : Seqlock.Inv b first.value s := Seqlock.Inv.run slotShape b first.value _
  obtain ⟨as, hsame, hrun⟩ := replays_tryWrites hinv.replays hinv.finished (slotRun_calls b first.value es) ⟨first.state, rfl⟩
  exact ⟨as, hsame, hrun, fun hfree => record_congr (hinv.even fun ⟨w, hw⟩ => hfree w hw).2⟩

end ArmControl.Rt
