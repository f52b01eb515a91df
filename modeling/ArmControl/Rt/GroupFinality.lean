import ArmControl.Lib.Run
import ArmControl.Rt.GroupInvariant

/-!
# Finality of group outcomes

FAULTED and DONE are the two outcomes of a member.  Three writes can replace them before the next
JOIN: the slot write of a GROUP_COMMIT, the end of the session, and a fault mirror of an earlier
group that comes after a JOIN.  `KeepsOutcome` excludes exactly these; then an outcome stays until
the next accepted JOIN.
-/

namespace ArmControl.Rt
namespace Server
open Run

/-- FAULTED or DONE -/
def outcome (st : GroupState) : Prop := st = .faulted ∨ st = .done

instance (st : GroupState) : Decidable (outcome st) := inferInstanceAs (Decidable (_ ∨ _))

/-- the tick in progress has loaded a fault and has not mirrored it yet -/
def mirrorDue (s : Server) : Prop :=
  (s.rt.pc = .done ∨ s.rt.pc = .mirror) ∧ s.rt.faulted = true ∧ s.rt.groupFaultMirrored = false

/-- what the control thread must not find: an outcome when it writes the slot of a GROUP_COMMIT or
ends the session's group, a mirror that is due when it accepts a JOIN -/
def KeepsOutcome (cfg : ServerConfig) (s : Server) : Event → Prop
  | .control env =>
    (s.pc = .commitWrite → ¬ outcome s.sh.slot.state) ∧
    (s.pc = .groupEnd → cfg.groupEnabled = true → s.pub.groupId ≠ 0 → ¬ outcome s.sh.slot.state) ∧
    (match env.frame.map ControlPacket.body with
      | some (.groupJoin g) => s.pc = .recv → s.joins cfg g = true → ¬ s.mirrorDue
      | _ => True)
  | _ => True

instance (s : Server) : Decidable s.mirrorDue := inferInstanceAs (Decidable (_ ∧ _))

/-- no mirror is due when a JOIN is accepted -/
def joinsClean (cfg : ServerConfig) (s : Server) : Option Body → Bool
  | some (.groupJoin g) => decide (s.pc = .recv → s.joins cfg g = true → ¬ s.mirrorDue)
  | _ => true

theorem keepsOutcome_iff (cfg : ServerConfig) (s : Server) (env : CtlEnv) :
    (s.pc = .commitWrite → ¬ outcome s.sh.slot.state) ∧
        (s.pc = .groupEnd → cfg.groupEnabled = true → s.pub.groupId ≠ 0 → ¬ outcome s.sh.slot.state) ∧
        s.joinsClean cfg (env.frame.map ControlPacket.body) = true ↔
      KeepsOutcome cfg s (.control env) := by
  unfold KeepsOutcome
  dsimp only
  refine and_congr_right fun _ => and_congr_right fun _ => ?_
  generalize env.frame.map ControlPacket.body = body
  cases body with
  | none => exact iff_true_intro rfl
  | some body =>
    cases body with
    | groupJoin => exact decide_eq_true_iff
    | _ => exact iff_true_intro rfl

instance (cfg : ServerConfig) (s : Server) : DecidablePred (KeepsOutcome cfg s)
  | .control env => decidable_of_iff _ (keepsOutcome_iff cfg s env)
  | .enterSlot | .servo _ | .datagram _ => isTrue trivial

/-- the slot's group is the member's group, and the group the tick in progress works for -/
structure Outcomes (s : Server) : Prop where
  running : s.sh.slot.state = .running → s.pub.groupActive = true → s.sh.slot.groupId = s.pub.groupId
  mid : s.rt.pc = .done → s.sh.slot.state = .running → s.sh.slot.groupId = s.rt.pub.groupId
  final : outcome s.sh.slot.state → s.pub.groupActive = true → s.sh.slot.groupId = s.pub.groupId
  due : s.mirrorDue → s.pub.groupActive = true → s.pub.groupId = s.rt.pub.groupId
  faulted : s.mirrorDue → s.sh.slot.state = .faulted → s.sh.slot.groupId = s.rt.pub.groupId

variable {cfg : ServerConfig} {ids : SessionIds} {s t : Server} {env : CtlEnv} {renv : RtEnv}

theorem Outcomes.congr {s s' : Server} (h : s.Outcomes) (hc : s'.core = s.core) : s'.Outcomes := by
  have hcore : s.core.Outcomes := ⟨h.1, h.2, h.3, h.4, h.5⟩
  rw [← hc] at hcore
  exact ⟨hcore.1, hcore.2, hcore.3, hcore.4, hcore.5⟩

theorem KeepsOutcome.join (h : KeepsOutcome cfg s (.control env)) {f : ControlPacket}
    {g : GroupMemberPayload} (hpc : s.pc = .recv) (hf : env.frame = some f)
    (hb : f.body = .groupJoin g) (hj : s.joins cfg g = true) : ¬ s.mirrorDue := by
  have h3 := h.2.2
  simp only [hf, Option.map_some, hb] at h3
  exact h3 hpc hj

theorem Outcomes.move (h : s.Outcomes) (hm : Move cfg ids s env t)
    (hk : KeepsOutcome cfg s (.control env)) : t.Outcomes := by
  have hjoin := fun f g => hk.join (f := f) (g := g)
  obtain ⟨h1, h2, h3, h4, h5⟩ := h
  obtain ⟨hw, he, -⟩ := hk
  have hleft : s.leftSlot.state = .cancelled := rfl
  cases hm <;> constructor <;>
    grind -ring -linarith -order -ac [goto, quit, outcome, mirrorDue, committedSlot, goneSlot]

theorem Outcomes.tick (h : s.Outcomes) (hm : Tick cfg s renv t) : t.Outcomes := by
  have hslot := hm.slot_cases
  have hdone := hm.atDone
  have hdue : t.rt.pc = .mirror → t.mirrorDue → s.mirrorDue ∧ t.rt.pub = s.rt.pub := by
    intro hpc hd
    cases hm with
    | front s₁ _ _ ha hh => cases hh <;> cases hpc
    | unread hf => rw [hf] at hpc; cases hpc
    | notDone hp => exact ⟨⟨.inl hp, hd.2⟩, rfl⟩
    | done hp => exact ⟨⟨.inl hp, hd.2⟩, rfl⟩
    | _ => cases hpc
  obtain ⟨h1, h2, h3, h4, h5⟩ := h
  obtain ⟨r, slot, rfl⟩ := hm.frame
  constructor <;> grind -ring -linarith -order -ac [outcome, mirrorDue, runningSlot, RtLoop.groupValue]

/-- **One step keeps an outcome**, unless it is an accepted JOIN. -/
theorem Outcomes.kept (h : s.Outcomes) {e : Event} (hm : Steps cfg ids s e t)
    (hk : KeepsOutcome cfg s e) (ho : outcome s.sh.slot.state) :
    (t.sh.slot.state = s.sh.slot.state ∧ t.sh.slot.groupId = s.sh.slot.groupId) ∨
      s.joinedIds.length < t.joinedIds.length := by
  cases hm with
  | same => exact .inl ⟨rfl, rfl⟩
  | enter => exact .inl ⟨rfl, rfl⟩
  | move env _ hm _ =>
    rcases hm.slot_cases with he | ⟨-, he⟩ | ⟨-, -, f, g, -, -, -, hids, -⟩ | ⟨hpc, -⟩ |
      ⟨hpc, hg, hid, -⟩
    · exact .inl (by rw [he]; exact ⟨rfl, rfl⟩)
    · -- leaving the group spares an outcome
      have hmask : leaveStates s.sh.slot.state = false := by
        rcases ho with ho | ho <;> rw [ho] <;> rfl
      have hw : s.sh.slot.write s.leftSlot leaveStates = s.sh.slot := by
        simp [GroupSlot.write, GroupSlot.tryWrite, hmask]
      exact .inl (by rw [he, hw]; exact ⟨rfl, rfl⟩)
    · exact .inr (by rw [hids]; simp)
    · exact absurd ho (hk.1 hpc)
    · exact absurd ho (hk.2.1 hpc hg hid)
  | tick env _ ht =>
    rcases ht.slot_cases with he | ⟨-, -, hc, -⟩ | ⟨-, -, hr, -⟩ | ⟨hpc, hf, hm, hne, code, he⟩ |
      ⟨-, -, hl, -⟩
    · exact .inl (by rw [he]; exact ⟨rfl, rfl⟩)
    · rw [hc] at ho
      rcases ho with ho | ho <;> cases ho
    · rw [hr] at ho
      rcases ho with ho | ho <;> cases ho
    · -- FAULTED again, for the same group
      have hst : s.sh.slot.state = .faulted := ho.resolve_right hne
      refine .inl ?_
      rw [he, hst]
      exact ⟨rfl, (h.faulted ⟨.inr hpc, hf, hm⟩ hst).symm⟩
    · rcases ho with ho | ho <;> rw [ho] at hl <;> cases hl

/-- what one step keeps, for the run -/
structure FinalInv (s : Server) : Prop where
  shape : s.Shape
  outcomes : s.Outcomes

theorem FinalInv.step (ids : SessionIds) (h : s.FinalInv) {e : Event} (hk : KeepsOutcome cfg s e) :
    (s.step cfg ids e).FinalInv := by
  obtain ⟨t, hc, hm⟩ := step_cases cfg ids s h.shape e
  obtain ⟨h1, h2⟩ := h
  suffices ht : t.FinalInv from ⟨ht.1.congr hc, ht.2.congr hc⟩
  cases hm with
  | same => exact ⟨h1, h2⟩
  | move env _ hm _ => exact ⟨h1.move hm, h2.move hm hk⟩
  | enter => exact ⟨⟨h1.1, h1.2, h1.3, h1.4⟩, ⟨h2.1, h2.2, h2.3, h2.4, h2.5⟩⟩
  | tick env _ ht => exact ⟨h1.tick ht, h2.tick ht⟩

theorem finalInv_init : FinalInv {} where
  shape := ⟨by simp, by simp, by simp, by simp⟩
  outcomes := ⟨by simp, by simp, by simp, fun _ h => (by cases h), fun _ h => (by cases h)⟩

/-- the outcome after `es` stands after `mid`, if no JOIN was accepted in between -/
def OutcomeKept (cfg : ServerConfig) (ids : SessionIds) (es mid : List Event) : Prop :=
  let s := run (Server.step cfg ids) {} es
  let s' := run (Server.step cfg ids) {} (es ++ mid)
  outcome s.sh.slot.state → s'.joinedIds = s.joinedIds →
    s'.sh.slot.state = s.sh.slot.state ∧ s'.sh.slot.groupId = s.sh.slot.groupId

theorem joinedIds_step (hs : s.Shape) (e : Event) :
    s.joinedIds.length ≤ (s.step cfg ids e).joinedIds.length := by
  obtain ⟨t, hc, hm⟩ := step_cases cfg ids s hs e
  have hids : (s.step cfg ids e).joinedIds = t.joinedIds := by
    show (s.step cfg ids e).core.joinedIds = t.core.joinedIds
    rw [hc]
  rw [hids]
  cases hm with
  | move env _ hm _ =>
    cases hm with
    | join => simp
    | _ => exact le_refl _
  | tick env _ ht =>
    obtain ⟨r, slot, rfl⟩ := ht.frame
    exact le_refl _
  | _ => exact le_refl _

theorem shape_run (hs : s.Shape) (es : List Event) : (run (Server.step cfg ids) s es).Shape := by
  induction es generalizing s with
  | nil => exact hs
  | cons e es ih =>
    rw [run_cons]
    apply ih
    obtain ⟨t, hc, hm⟩ := step_cases cfg ids s hs e
    refine Shape.congr ?_ hc
    cases hm with
    | same => exact hs
    | move env _ hm _ => exact hs.move hm
    | enter => exact ⟨hs.1, hs.2, hs.3, hs.4⟩
    | tick env _ ht => exact hs.tick ht

theorem joinedIds_run (cfg : ServerConfig) (ids : SessionIds) (hs : s.Shape) (es : List Event) :
    s.joinedIds.length ≤ (run (Server.step cfg ids) s es).joinedIds.length := by
  induction es using List.reverseRecOn with
  | nil => exact le_refl _
  | append_singleton es e ih =>
    rw [run_snoc]
    exact ih.trans (joinedIds_step (shape_run hs es) e)

theorem kept_run (mid : List Event) (h : s.FinalInv)
    (hk : Along (Server.step cfg ids) (KeepsOutcome cfg) s mid) (ho : outcome s.sh.slot.state)
    (hids : (run (Server.step cfg ids) s mid).joinedIds.length ≤ s.joinedIds.length) :
    (run (Server.step cfg ids) s mid).sh.slot.state = s.sh.slot.state ∧
      (run (Server.step cfg ids) s mid).sh.slot.groupId = s.sh.slot.groupId := by
  induction mid generalizing s with
  | nil => exact ⟨rfl, rfl⟩
  | cons e mid ih =>
    obtain ⟨hke, hkm⟩ := along_cons.mp hk
    rw [run_cons] at hids ⊢
    have hinv := h.step ids hke
    have hgrow := joinedIds_run cfg ids hinv.shape mid
    obtain ⟨t, hc, hm⟩ := step_cases cfg ids s h.shape e
    have hslot : (s.step cfg ids e).sh.slot = t.sh.slot := by
      show (s.step cfg ids e).core.sh.slot = t.core.sh.slot
      rw [hc]
    have hjoin : (s.step cfg ids e).joinedIds = t.joinedIds := by
      show (s.step cfg ids e).core.joinedIds = t.core.joinedIds
      rw [hc]
    rcases h.outcomes.kept hm hke ho with ⟨hst, hid⟩ | hlt
    · rw [← hslot] at hst hid
      rw [← hst, ← hid]
      refine ih hinv hkm (hst ▸ ho) (hids.trans (joinedIds_step h.shape e))
    · rw [← hjoin] at hlt
      omega

/-- **Group outcomes are final.**  In every run in which the control thread never writes over an
outcome and never accepts a JOIN while a fault mirror is due, FAULTED and DONE stay, with their group
id, until the next accepted JOIN. -/
theorem outcome_final (cfg : ServerConfig) (ids : SessionIds) (es mid : List Event)
    (h : Along (Server.step cfg ids) (KeepsOutcome cfg) {} (es ++ mid)) :
    OutcomeKept cfg ids es mid := by
  intro ho hids
  rw [run_append] at hids ⊢
  have hinv : FinalInv (run (Server.step cfg ids) {} es) :=
    invariant finalInv_init (fun _ _ hk hi => hi.step ids hk) (h.sub (List.prefix_append es mid))
  exact kept_run mid hinv h.rest ho (by rw [hids])

/-! ## a finished member -/

open Pair

/-- member 0 of a group of two runs its reference to the end -/
def finished : List Event :=
  joined 0 ++ commitGroup 0 2000 ++ release 3000 ++ groupTick 4000 ++ groupTick 1000005000

theorem outcome_final_idle :
    outcome (run (Server.step (pairConfig 0) default) {} finished).sh.slot.state ∧
      OutcomeKept (pairConfig 0) default finished (groupTick 1000006000 ++ deliver .disarm 1000007000) :=
  ⟨by decide +kernel, outcome_final _ _ _ _ (by decide +kernel)⟩

/-- the client hangs up: the control thread leaves its loop and ends the session's group -/
def hangup : List Event :=
  [.control {}, .control {}, .control { hangup := true }, .control {}, .control {}]

/-- the end of the session writes CANCELLED over DONE -/
theorem hangup_cancels_done : ¬ OutcomeKept (pairConfig 0) default finished hangup := by
  intro h
  have hkept := h (by decide +kernel) (by decide +kernel)
  revert hkept
  decide +kernel

end Server

end ArmControl.Rt
