import ArmControl.Lib.Run
import ArmControl.Rt.GroupInvariant

/-!
# A COMMITTED slot stands for a selectable commit

Peers release on a COMMITTED slot, so its commit has to be one that RT would still select.  The
group paths keep the two together; a CANCEL_REFERENCE and the fence of a MODE_SELECT publish a
cancel generation and leave the slot alone.

* `Stands`           the commit of the last GROUP_COMMIT is the one held or published, and current;
* `KeepsCommit`      no cancel generation is published over a COMMITTED slot;
* `committed_stands` then a COMMITTED slot stands for its commit in every state of every run.
-/

namespace ArmControl.Rt
namespace Server
open Run

/-- releasing the commit of this member can not be refused as retired -/
structure Stands (s : Server) : Prop where
  held : s.loc.grp.hold = true → s.loc.pending = s.groupPending
  published : s.loc.grp.isCommit = true → s.loc.grp.hold = false → s.pub.referenceIn = s.groupPending
  session : s.groupPending.request.sessionId = s.pub.sessionId
  epoch : s.groupPending.request.armEpoch = s.pub.armGen
  generation : s.groupPending.cancelGeneration = s.pub.referenceCancelGeneration

/-- a GROUP_COMMIT between its checks and its slot write, or a session between its end and its
group's end -/
def midStep (s : Server) : Prop := s.pc = .commitWrite ∨ s.pc = .groupEnd

instance (s : Server) : Decidable s.midStep := inferInstanceAs (Decidable (_ ∨ _))

/-- what the control thread must not receive while its slot is COMMITTED -/
def KeepsCommit (cfg : ServerConfig) (s : Server) : Event → Prop
  | .control env => s.pc = .recv → s.sh.slot.state = .committed →
      ∀ f ∈ env.frame, s.cancels f = false ∧ s.fences cfg f = false
  | _ => True

instance (cfg : ServerConfig) (s : Server) : DecidablePred (KeepsCommit cfg s)
  | .control env => inferInstanceAs (Decidable (_ → _ → ∀ f ∈ env.frame, _))
  | .enterSlot | .servo _ | .datagram _ => isTrue trivial

/-- the commit of the last GROUP_COMMIT carries the session, the group's epoch and the live cancel
generation -/
structure Carries (s : Server) : Prop where
  session : s.groupPending.request.sessionId = s.loc.session
  epoch : s.groupPending.request.armEpoch = s.loc.grp.epoch
  generation : s.groupPending.cancelGeneration = s.pub.referenceCancelGeneration

structure Commits (s : Server) : Prop where
  pending : s.loc.grp.isCommit = true → s.loc.pending = s.groupPending
  published : s.loc.grp.isCommit = true → s.loc.grp.hold = false → s.pub.referenceIn = s.groupPending
  joined : s.sh.slot.state = .committed → s.pc ≠ .closed ∧ s.loc.grp.joined = true
  writes : s.pc = .commitWrite → s.Carries
  carries : s.sh.slot.state = .committed → s.pc ≠ .commitWrite → s.Carries

variable {cfg : ServerConfig} {ids : SessionIds} {s t : Server} {env : CtlEnv} {renv : RtEnv}

theorem Commits.congr {s s' : Server} (h : s.Commits) (hc : s'.core = s.core) : s'.Commits := by
  have hcore : s.core.Commits := ⟨h.1, h.2, h.3, fun p => ⟨(h.4 p).1, (h.4 p).2, (h.4 p).3⟩,
    fun p q => ⟨(h.5 p q).1, (h.5 p q).2, (h.5 p q).3⟩⟩
  rw [← hc] at hcore
  exact ⟨hcore.1, hcore.2, hcore.3,
    fun p => ⟨(hcore.4 p).1, (hcore.4 p).2, (hcore.4 p).3⟩,
    fun p q => ⟨(hcore.5 p q).1, (hcore.5 p q).2, (hcore.5 p q).3⟩⟩

theorem Commits.move (hs : s.Shape) (hse : Sessions ids s) (hme : Membership cfg s) (h : s.Commits)
    (hm : Move cfg ids s env t) (hk : KeepsCommit cfg s (.control env)) : t.Commits := by
  obtain ⟨k1, k2, k3, k4⟩ := hs
  obtain ⟨j1, j2, j3, j4, j5⟩ := hse
  obtain ⟨-, i2, i3, -⟩ := hme
  obtain ⟨h1, h2, h3, h4, h5⟩ := h
  have hleft : s.leftSlot.state = .cancelled := rfl
  have hcancel : ∀ f, env.frame = some f → s.pc = .recv → s.sh.slot.state = .committed →
      s.cancels f = false ∧ s.fences cfg f = false := fun f hf hpc hc => hk hpc hc f hf
  clear hk
  cases hm <;> constructor <;>
    grind -ring -linarith -order -ac [goto, quit, QuitOk, CtlPc.inRound, joins, Current, Carries, committedSlot, goneSlot]

theorem Commits.tick (h : s.Commits) (hm : Tick cfg s renv t) : t.Commits := by
  have hslot := fun hc => hm.committed hc ▸ hc
  obtain ⟨r, slot, rfl⟩ := hm.frame
  refine ⟨h.1, h.2, fun hc => h.3 (hslot hc), fun hp => ?_, fun hc hp => ?_⟩
  · obtain ⟨h1, h2, h3⟩ := h.4 hp
    exact ⟨h1, h2, h3⟩
  · obtain ⟨h1, h2, h3⟩ := h.5 (hslot hc) hp
    exact ⟨h1, h2, h3⟩

theorem Commits.step (hb : Base cfg ids s) (h : s.Commits) {e : Event}
    (hk : KeepsCommit cfg s e) : (s.step cfg ids e).Commits := by
  refine step_rule hb.shape (fun _ _ hc h => h.congr hc) (fun env t he hm => ?_) (fun _ => ?_)
    (fun env t _ ht => h.tick ht) h
  · subst he
    exact h.move hb.shape hb.sessions hb.members hm hk
  · exact ⟨h.1, h.2, h.3, fun p => ⟨(h.4 p).1, (h.4 p).2, (h.4 p).3⟩,
      fun p q => ⟨(h.5 p q).1, (h.5 p q).2, (h.5 p q).3⟩⟩

theorem commits_init : Commits {} :=
  ⟨by simp, by simp, by simp, by simp, by simp⟩

/-- **A COMMITTED slot stands for a selectable commit** in every state of every run in which no
cancel generation is published while the slot is COMMITTED. -/
theorem committed_stands (cfg : ServerConfig) (ids : SessionIds) (es : List Event)
    (h : Along (Server.step cfg ids) (KeepsCommit cfg) {} es)
    (hc : (run (Server.step cfg ids) {} es).sh.slot.state = .committed)
    (hmid : ¬ (run (Server.step cfg ids) {} es).midStep) :
    (run (Server.step cfg ids) {} es).Stands := by
  have hinv : Base cfg ids (run (Server.step cfg ids) {} es) ∧
      (run (Server.step cfg ids) {} es).Commits :=
    invariant (I := fun s => Base cfg ids s ∧ s.Commits) ⟨base_init cfg ids, commits_init⟩
      (fun _ e hk hi => ⟨hi.1.step e, hi.2.step hi.1 hk⟩) h
  generalize run (Server.step cfg ids) {} es = s at hc hmid hinv
  obtain ⟨hb, hcom⟩ := hinv
  rw [midStep, not_or] at hmid
  obtain ⟨hpc, hj⟩ := hcom.joined hc
  obtain ⟨h1, h2, h3⟩ := hcom.carries hc hmid.1
  refine ⟨fun hh => hcom.pending (hb.shape.hold hh).2, hcom.published, ?_, ?_, h3⟩
  · rw [h1, hb.sessions.live hpc hmid.2]
  · rw [h2, hb.sessions.epoch hpc hj]

/-! ## a held commit that is cancelled -/

open Pair

/-- member 0 of a group of two holds its commit -/
def holding : List Event := joined 0 ++ commitGroup 0 2000

theorem committed_stands_holding : (run (Server.step (pairConfig 0) default) {} holding).Stands :=
  committed_stands (pairConfig 0) default holding (by decide +kernel) (by decide +kernel)
    (by decide +kernel)

def cancelFrame : ControlPacket :=
  { body := .cancelReference { sessionId := 1, id := 1, armEpoch := 1, revision := 1 } }

/-- a round of the hold (the peer has not committed yet) that receives a CANCEL_REFERENCE -/
def cancelHeld : List Event :=
  List.replicate 6 (.control
    { now := 3000, snap := { committedPeer with slot := { state := .staged, groupId := 5 } } }) ++
  [.control { now := 3000, frame := some cancelFrame }]

/-- the cancel is answered REF_OK and the slot still says COMMITTED -/
theorem cancelled_still_committed :
    let s := run (Server.step (pairConfig 0) default) {} (holding ++ cancelHeld)
    s.sh.slot.state = .committed ∧ ¬ s.midStep ∧
      .reference { operation := 37, referenceId := 1, revision := 1, result := .ok } 0 ∈ s.sent ∧
      ¬ s.Stands := by
  refine ⟨by decide +kernel, by decide +kernel, by decide +kernel, fun h => ?_⟩
  have hgen := h.generation
  revert hgen
  decide +kernel

end Server

end ArmControl.Rt
