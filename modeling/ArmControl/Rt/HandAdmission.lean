import ArmControl.Lib.Binary64

/-!
# Admission of Hand actions (`hand_admission.hpp`)

One command, never a queue: an admitted action carries the epoch it was admitted at, and every
cancellation moves the epoch on, so an action is current only while nothing has cancelled it.  All
operations are called under the bridge's mutex.  64-bit counters are natural numbers.
-/

namespace ArmControl.Rt

inductive HandKind where
  | none | move | home | grasp
  deriving DecidableEq, Inhabited

structure HandAction where
  kind : HandKind := .none
  w : F64 := .zero
  s : F64 := .zero
  f : F64 := .zero
  ei : F64 := .zero
  eo : F64 := .zero
  token : ℕ := 0
  generation : ℕ := 0
  deriving DecidableEq, Inhabited

structure HandAdmission where
  pending : HandAction := {}
  epoch : ℕ := 1
  connected : Bool := false
  client : Bool := false
  acting : Bool := false
  dispatchCommitted : Bool := false
  stopping : Bool := false
  stopFault : Bool := false
  /-- a failed stop is cleared by a successful retried stop and a sample read after it -/
  stopRetriedOk : Bool := false
  stopSerial : ℕ := 0
  deriving DecidableEq, Inhabited

inductive Refusal where
  | offline | stopping | stopFailed | staleEpoch | busy | staleState
  deriving DecidableEq, Inhabited

namespace HandAdmission

def cancel (h : HandAdmission) : HandAdmission := { h with pending := {}, epoch := h.epoch + 1 }

def requestStop (h : HandAdmission) : HandAdmission :=
  { h.cancel with stopping := true, stopRetriedOk := false, stopSerial := h.stopSerial + 1 }

/-- a stop that overlapped an action is sent once more after the action's exit -/
def finishStop (h : HandAdmission) (serial : ℕ) (wasActing ok : Bool) : HandAdmission :=
  if serial ≠ h.stopSerial ∨ wasActing = true ∨ h.acting = true then h
  else
    let fault := if ok then h.stopFault else true
    { h with stopping := false, stopFault := fault, stopRetriedOk := ok && fault }

/-- a new device session: a stop that failed on the old one is retried -/
def sessionOpened (h : HandAdmission) : HandAdmission :=
  let h := { h with connected := true }
  if h.stopFault then h.requestStop else h

/-- a measured sample whose read began after the final stop returned -/
def sampled (h : HandAdmission) : HandAdmission :=
  if h.stopRetriedOk && !h.stopping then { h with stopFault := false, stopRetriedOk := false } else h

def current (h : HandAdmission) (a : HandAction) : Bool :=
  h.connected && h.client && a.generation == h.epoch

/-- the reason of a refusal, or the admitted action -/
def admitAction (h : HandAdmission) (action : HandAction) (fresh : Bool) :
    Except Refusal HandAction × HandAdmission :=
  if !h.connected || !h.client then (.error .offline, h)
  else if h.stopping then (.error .stopping, h)
  else if h.stopFault then (.error .stopFailed, h)
  else if action.token ≠ h.epoch then (.error .staleEpoch, h)
  else if h.acting || h.pending.kind != .none then (.error .busy, h)
  else if !fresh then (.error .staleState, h)
  else
    let action := { action with generation := h.epoch + 1 }
    (.ok action, { h with pending := action, epoch := h.epoch + 1 })

/-- the action the caller holds afterwards (`{}` when there was none to take) -/
def take (h : HandAdmission) : HandAction × HandAdmission :=
  if !h.connected || !h.client || h.pending.kind == .none || h.acting || h.stopping || h.stopFault then
    ({}, h)
  else
    let action := h.pending
    let h := { h with pending := {} }
    (action, if h.current action then { h with acting := true, dispatchCommitted := false } else h)

def beginAction (h : HandAdmission) (a : HandAction) : Bool × HandAdmission :=
  if !h.acting || !h.current a then (false, h) else (true, { h with dispatchCommitted := true })

/-- the action has left the device, or was dropped before it entered -/
def endAction (h : HandAdmission) : HandAdmission :=
  { h with acting := false, dispatchCommitted := false }

/-! ## inversion -/

section
variable (h : HandAdmission)

theorem admit_cases (a : HandAction) (fresh : Bool) :
    (∃ r, h.admitAction a fresh = (.error r, h)) ∨
      (h.connected = true ∧ h.client = true ∧ h.stopping = false ∧ h.stopFault = false ∧
        a.token = h.epoch ∧ h.acting = false ∧ fresh = true ∧
        h.admitAction a fresh = (.ok { a with generation := h.epoch + 1 },
          { h with pending := { a with generation := h.epoch + 1 }, epoch := h.epoch + 1 })) := by
  unfold admitAction
  split_ifs with h1 h2 h3 h4 h5 h6
  · exact .inl ⟨_, rfl⟩
  · exact .inl ⟨_, rfl⟩
  · exact .inl ⟨_, rfl⟩
  · exact .inl ⟨_, rfl⟩
  · exact .inl ⟨_, rfl⟩
  · exact .inl ⟨_, rfl⟩
  · right
    simp only [Bool.or_eq_true, Bool.not_eq_true', not_or, Bool.not_eq_false,
      Bool.not_eq_true] at h1 h2 h3 h5 h6
    exact ⟨h1.1, h1.2, h2, h3, not_not.mp h4, h5.1, h6, rfl⟩

/-- a pending action is current, so what is taken is run -/
theorem take_cases (hp : h.pending.kind ≠ .none → h.pending.generation = h.epoch) :
    h.take = ({}, h) ∨
      (h.pending.kind ≠ .none ∧ h.acting = false ∧
        h.take = (h.pending, { h with pending := {}, acting := true, dispatchCommitted := false })) := by
  unfold take
  split_ifs with hg
  · exact .inl rfl
  · right
    simp only [Bool.or_eq_true, Bool.not_eq_true', not_or, Bool.not_eq_false, Bool.not_eq_true,
      beq_eq_false_iff_ne] at hg
    obtain ⟨⟨⟨⟨⟨hc, hcl⟩, hk⟩, ha⟩, -⟩, -⟩ := hg
    have hcur : { h with pending := {} }.current h.pending = true := by
      simp [current, hc, hcl, hp hk]
    dsimp only
    rw [if_pos hcur]
    exact ⟨hk, ha, rfl⟩

theorem beginAction_cases (a : HandAction) :
    (h.beginAction a).1 = false ∨
      (h.acting = true ∧ h.connected = true ∧ h.client = true ∧ a.generation = h.epoch ∧
        h.beginAction a = (true, { h with dispatchCommitted := true })) := by
  unfold beginAction current
  split_ifs with hg
  · exact .inl rfl
  · right
    simp only [Bool.or_eq_true, Bool.not_eq_true', not_or, Bool.not_eq_false, Bool.and_eq_true,
      beq_iff_eq] at hg
    exact ⟨hg.1, hg.2.1.1, hg.2.1.2, hg.2.2, rfl⟩

theorem finishStop_cases (serial : ℕ) (wasActing ok : Bool) :
    h.finishStop serial wasActing ok = h ∨
      (serial = h.stopSerial ∧ wasActing = false ∧ h.acting = false ∧
        h.finishStop serial wasActing ok =
          { h with
            stopping := false, stopFault := if ok then h.stopFault else true
            stopRetriedOk := ok && (if ok then h.stopFault else true) }) := by
  unfold finishStop
  by_cases hg : serial ≠ h.stopSerial ∨ wasActing = true ∨ h.acting = true
  · rw [if_pos hg]
    exact .inl rfl
  · right
    rw [if_neg hg]
    simp only [not_or, ne_eq, not_not, Bool.not_eq_true] at hg
    exact ⟨hg.1, hg.2.1, hg.2.2, rfl⟩

end

end HandAdmission

end ArmControl.Rt
