import ArmControl.Rt.GroupFinality
import ArmControl.Rt.WireSession

/-!
# What the control thread answers

Status replies echo fields of the request, of an earlier request, of the group and of what the tick
has answered.  A reply is legible when the restricted fields are in their ranges.

* `Reply.Legible`     the ranges of the restricted fields;
* `Echoes`            the fields a later reply can copy are in range as well;
* `Server.garbles`    the frames whose reply copies a field that is out of range: a MODE_SELECT of no
                      mode, and the opcodes of v7 that the reference status has no number for;
* `legible_run`       without such a frame all replies are legible.
-/

namespace ArmControl.Rt
open Run

/-! ## legible replies -/

def GroupIdOk (gid : ℕ) : Prop := 0 < gid ∧ gid < 2 ^ 64

def IsMode (code : ℕ) : Prop := code = ModeId.streamed.code ∨ code = ModeId.reference.code

instance (code : ℕ) : Decidable (IsMode code) := inferInstanceAs (Decidable (_ ∨ _))

/-- a result of the reference operations, not of the group ones -/
def ReferenceResult.Plain (r : ReferenceResult) : Prop := r ≠ .groupRefused ∧ r ≠ .groupPeer

instance (r : ReferenceResult) : Decidable r.Plain := inferInstanceAs (Decidable (_ ∧ _))

def ReferenceReplyPayload.Legible (r : ReferenceReplyPayload) : Prop :=
  r.result.Plain ∧ 32 ≤ r.operation ∧ r.operation ≤ 37

def GroupStatusPayload.Legible (r : GroupStatusPayload) : Prop :=
  GroupIdOk r.groupId ∧ (r.operation = 0 ∨ (39 ≤ r.operation ∧ r.operation ≤ 41)) ∧ r.peerVerdict ≤ 4

def Reply.Legible : Reply → Prop
  | .reference r _ => r.Legible
  | .group r _ => r.Legible
  | .mode r _ => IsMode r.requestedMode
  | .status .. | .pong => True

/-! ## the results of the upload are plain -/

namespace ReferenceUpload
variable (u : ReferenceUpload)

theorem begin_plain (b : ReferenceBeginPayload) (id revision : ℕ) : (u.begin b id revision).1.Plain := by
  unfold «begin»
  split_ifs <;> exact ⟨nofun, nofun⟩

theorem chunk_plain (c : ReferenceChunkPayload) : (u.chunk c).1.Plain := by
  unfold chunk
  dsimp only
  split_ifs <;> exact ⟨nofun, nofun⟩

theorem seal_plain (sha256 : List (BitVec 8) → Digest) (c : ReferenceSealPayload) (now : ℕ) :
    (u.seal sha256 c now).1.Plain := by
  unfold «seal»
  dsimp only
  split_ifs <;> exact ⟨nofun, nofun⟩

theorem abort_plain (id : ℕ) : (u.abort id).1.Plain := by
  unfold abort
  split_ifs <;> exact ⟨nofun, nofun⟩

end ReferenceUpload

/-- the group a frame names -/
def Body.group : Body → Option ℕ
  | .groupJoin g | .groupCancel g => some g.groupId
  | .groupCommit g => some g.groupId
  | _ => none

theorem Body.group_pos {b : Body} (hv : b.valid = true) {G : ℕ} (h : b.group = some G) : 0 < G := by
  cases b with
  | groupJoin g =>
    obtain rfl := Option.some.inj h
    simp only [Body.valid, GroupMemberPayload.valid, Bool.and_eq_true, bne_iff_ne] at hv
    omega
  | groupCancel g =>
    obtain rfl := Option.some.inj h
    simp only [Body.valid, GroupMemberPayload.valid, Bool.and_eq_true, bne_iff_ne] at hv
    omega
  | groupCommit g =>
    obtain rfl := Option.some.inj h
    simp only [Body.valid, GroupCommitPayload.valid, Bool.and_eq_true, bne_iff_ne] at hv
    omega
  | _ => cases h

theorem Wire.body7_group {type : ℕ} {t : List Bytes.Byte} {G : ℕ}
    (h : (Wire.body7 type t).group = some G) : G < 2 ^ 64 := by
  unfold Wire.body7 at h
  split at h
  all_goals first
    | (obtain rfl := Option.some.inj h; exact BitVec.isLt _)
    | cases h

/-- a group id on the wire has 64 bits -/
theorem Wire.ofFrame_group {t : List Bytes.Byte} {f : Rt.ControlPacket}
    (hf : Wire.ofFrame t = some f) {G : ℕ} (h : f.body.group = some G) : G < 2 ^ 64 := by
  unfold Wire.ofFrame at hf
  dsimp only at hf
  split_ifs at hf with _ h7 h5
  · obtain rfl := Option.some.inj hf
    exact Wire.body7_group h
  · obtain rfl := Option.some.inj hf
    dsimp only at h
    unfold Wire.body5 at h
    split at h <;> cases h
  · obtain rfl := Option.some.inj hf
    cases h

theorem PeerVerdict.code_le (v : PeerVerdict) : v.code ≤ 4 := by cases v <;> decide

theorem latchFault_event (x : Shared) (code : FaultCode) (text : String) (gen : ℕ) :
    (x.latchFault code text gen).groupEvent = x.groupEvent := by
  show (x.latchFault code text gen).unlatched.groupEvent = x.unlatched.groupEvent
  rw [Server.latchFault_unlatched]

/-! ## what the tick answers -/

/-- the tick's answers are in range -/
structure RtLoop.Replies (r : RtLoop) : Prop where
  confirmed : r.modeDone ≠ 0 → IsMode r.modeFeedback.requestedMode
  result : r.referenceResult.Plain

namespace RtLoop
variable {cfg : ServerConfig} {r : RtLoop} {p : Published} {now : ℕ} {faulted : Bool}

theorem Replies.answerMode (h : r.Replies)
    (hp : p.modePublished ≠ 0 → IsMode p.modeIn.request.desiredMode) :
    (r.answerMode p now faulted).Replies := by
  unfold RtLoop.answerMode
  split_ifs
  · exact h
  · refine ⟨hp, ?_⟩
    show (if (modeVerdict r.mode p faulted p.modeIn.request).2 = true then
      r.confirmMode p.modeIn.request now else r).referenceResult.Plain
    split_ifs <;> exact h.result

theorem commitResult_plain (x : ReferenceSelection) (c : ReferenceCommit) (g : ℕ) :
    (x.commitResult c now g).Plain := by
  unfold ReferenceSelection.commitResult
  dsimp only
  split_ifs <;> decide

theorem admitCommit_plain : (r.admitCommit p now faulted).1.Plain := by
  unfold admitCommit
  split_ifs
  · exact ⟨nofun, nofun⟩
  · exact commitResult_plain _ _ _
  · exact ⟨nofun, nofun⟩

theorem Replies.commitStep (h : r.Replies) (slot : GroupSlot) (contended : Bool) :
    (r.commitStep slot p now faulted contended).1.Replies := by
  unfold RtLoop.commitStep
  split_ifs
  · exact h
  · dsimp only
    split_ifs <;> exact ⟨h.1, admitCommit_plain⟩

theorem Replies.front {sh : Shared} {env : RtEnv} (h : r.Replies)
    (hp : p.modePublished ≠ 0 → IsMode p.modeIn.request.desiredMode) :
    (r.front cfg sh p env).1.Replies := by
  unfold RtLoop.front
  by_cases hr : env.readOk = false
  · rw [if_pos hr]
    exact ⟨h.1, h.2⟩
  rw [if_neg hr]
  dsimp only
  have hprep : (r.prepared cfg sh p env.now).Replies := by
    unfold RtLoop.prepared
    obtain ⟨m, g, e, h1⟩ := seedMode_frame cfg (r.load sh p env.now) p
    have hseed : ((r.load sh p env.now).seedMode cfg p).Replies := by
      rw [h1]
      exact ⟨h.1, h.2⟩
    have hans : (((r.load sh p env.now).seedMode cfg p).answerMode p env.now sh.fault).Replies :=
      hseed.answerMode hp
    obtain ⟨ref, c, q, h3⟩ := prepareReference_frame
      (((r.load sh p env.now).seedMode cfg p).answerMode p env.now sh.fault) p env.now sh.fault
    rw [h3]
    exact ⟨hans.1, hans.2⟩
  have hcom : ((r.prepared cfg sh p env.now).commitStep sh.slot p env.now sh.fault
      sh.slotBusy).1.Replies := hprep.commitStep sh.slot sh.slotBusy
  obtain ⟨a, f, w, d, i, hhead⟩ := RtLoop.groupHead_frame cfg
    (((r.prepared cfg sh p env.now).commitStep sh.slot p env.now sh.fault
      sh.slotBusy).1.publishReference env.now) p
    ((r.prepared cfg sh p env.now).commitStep sh.slot p env.now sh.fault sh.slotBusy).2 sh.slotBusy
  rw [hhead]
  exact ⟨hcom.1, hcom.2⟩

theorem actuate_event (sh : Shared) (fresh : Bool) (env : RtEnv) :
    (r.actuate cfg sh fresh env).2.groupEvent = sh.groupEvent := by
  show (r.actuate cfg sh fresh env).2.unlatched.groupEvent = sh.unlatched.groupEvent
  rw [Server.actuate_unlatched]

theorem Replies.step {sh : Shared} {env : RtEnv} (h : r.Replies)
    (hp : p.modePublished ≠ 0 → IsMode p.modeIn.request.desiredMode) :
    (r.step cfg sh p env).1.Replies := by
  unfold RtLoop.step
  cases r.pc with
  | front => exact h.front hp
  | done =>
    show RtLoop.Replies { (r.doneWrite sh.slot p.groupCommitted sh.slotBusy).1 with pc := .mirror }
    unfold doneWrite
    split_ifs <;> exact ⟨h.1, h.2⟩
  | mirror =>
    show RtLoop.Replies { (r.faultMirror sh).1 with pc := .peers }
    unfold faultMirror
    split_ifs <;> exact ⟨h.1, h.2⟩
  | peers =>
    show RtLoop.Replies { (r.peerCheck cfg sh p.groupCommitted env).1 with pc := .servo }
    rcases peerCheck_cases cfg r sh p.groupCommitted env with he | ⟨-, v, he⟩
    · rw [he]
      exact ⟨h.1, h.2⟩
    · rw [he]
      exact ⟨h.1, h.2⟩
  | servo =>
    show RtLoop.Replies (r.servo cfg sh p.sessionId env).1
    unfold servo
    dsimp only
    obtain ⟨k, t, ht, -⟩ := actuate_frame cfg
      ((r.observeCommand cfg).retireExpired cfg (r.referenceGap cfg)).armEdge sh
      (((r.observeCommand cfg).retireExpired cfg (r.referenceGap cfg)).fresh cfg p.sessionId) env
    obtain ⟨g, k', he⟩ := armEdge_frame ((r.observeCommand cfg).retireExpired cfg (r.referenceGap cfg))
    rw [ht, he]
    unfold retireExpired
    split_ifs <;> exact ⟨h.1, h.2⟩

theorem step_event {sh : Shared} {env : RtEnv} (h : sh.groupEvent ≤ 5) :
    (r.step cfg sh p env).2.groupEvent ≤ 5 := by
  unfold RtLoop.step
  cases r.pc with
  | front =>
    show (r.front cfg sh p env).2.groupEvent ≤ 5
    unfold RtLoop.front
    split_ifs
    · rw [latchFault_event]
      exact h
    · exact h
    · exact h
    · exact h
  | done => exact h
  | mirror => exact h
  | peers =>
    show (r.peerCheck cfg sh p.groupCommitted env).2.groupEvent ≤ 5
    rcases peerCheck_cases cfg r sh p.groupCommitted env with he | ⟨-, v, he⟩
    · rw [he]
      exact h
    · rw [he]
      exact Nat.succ_le_succ v.code_le
  | servo =>
    show (r.servo cfg sh p.sessionId env).2.groupEvent ≤ 5
    unfold servo
    dsimp only
    rw [actuate_event]
    exact h

end RtLoop

namespace Server

/-! ## the fields that replies copy -/

structure Echoes (s : Server) : Prop where
  sent : ∀ r ∈ s.sent, r.Legible
  member : s.loc.grp.joined = true → GroupIdOk s.loc.grp.id
  waiting : s.loc.commitWaiting = true → s.loc.grp.isCommit = false → s.loc.commitReply.operation = 35
  replied : s.loc.haveCommitReply = true → s.loc.commitReply.Legible
  stored : s.loc.haveGcommitStatus = true → s.loc.gcommitStatus.Legible
  asked : s.loc.modeOutstanding = true → IsMode s.loc.modeRequest.desiredMode ∧ s.loc.modeTicket ≠ 0
  published : s.pub.modePublished ≠ 0 → IsMode s.pub.modeIn.request.desiredMode
  confirmed : s.rt.modeDone ≠ 0 → IsMode s.rt.modeFeedback.requestedMode
  result : s.rt.referenceResult.Plain
  event : s.sh.groupEvent ≤ 5

variable {cfg : ServerConfig} {ids : SessionIds} {s : Server} {env : CtlEnv}

/-! ## the lambdas -/

namespace Echoes

theorem goto (h : s.Echoes) (p : CtlPc) : ({ s with pc := p } : Server).Echoes :=
  ⟨h.1, h.2, h.3, h.4, h.5, h.6, h.7, h.8, h.9, h.10⟩

theorem ite {c : Prop} [Decidable c] {a b : Server} (ha : c → a.Echoes) (hb : ¬ c → b.Echoes) :
    (if c then a else b).Echoes := by
  split_ifs with hc
  · exact ha hc
  · exact hb hc

theorem goOn (h : s.Echoes) (p : CtlPc) (ok : Bool) : (s.goOn p ok).Echoes := h.goto _

theorem send (h : s.Echoes) {r : Reply} {b : Bool} (hr : b = true → r.Legible) :
    (s.send r b).Echoes := by
  unfold Server.send
  split_ifs with hok
  · refine ⟨?_, h.2, h.3, h.4, h.5, h.6, h.7, h.8, h.9, h.10⟩
    intro x hx
    rcases List.mem_append.mp hx with hx | hx
    · exact h.sent x hx
    · rw [List.mem_singleton.mp hx]
      exact hr hok
  · exact h

theorem status (h : s.Echoes) (text : String) (seq : ℕ) : (s.status text seq env).Echoes := by
  unfold Server.status
  refine goto (h.send fun _ => ?_) _
  trivial

theorem answer (h : s.Echoes) {seq : ℕ} {reply : ReferenceReplyPayload} {result : ReferenceResult}
    (op : ℕ) (hr : result.Plain) (hop : reply.operation = op) (hrange : 32 ≤ op ∧ op ≤ 37) :
    (s.answer seq reply result env).Echoes := by
  refine goOn (h.send fun _ => ?_) _ _
  exact ⟨hr, hop ▸ hrange⟩

theorem modeStatus (h : s.Echoes) {r : ModeSelectReplyPayload} {seq : ℕ}
    (hr : env.sendOk = true → IsMode r.requestedMode) : (s.modeStatus r seq env).Echoes :=
  (h.send hr).goto _

theorem groupReply (h : s.Echoes) {gid op verdict seq : ℕ} {result : ReferenceResult}
    (hg : GroupIdOk gid) (hop : op = 0 ∨ (39 ≤ op ∧ op ≤ 41)) (hv : verdict ≤ 4) :
    (s.groupReply cfg gid op result verdict seq env).Echoes := by
  have hst : (s.groupStatus cfg gid op result verdict env.ownOk).Legible := ⟨hg, hop, hv⟩
  unfold Server.groupReply
  refine send ?_ fun _ => hst
  dsimp only
  split_ifs
  · exact ⟨h.1, h.2, h.3, h.4, fun _ => hst, h.6, h.7, h.8, h.9, h.10⟩
  · exact h

theorem setUpload (h : s.Echoes) (u : ReferenceUpload) : (s.setUpload u).Echoes :=
  ⟨h.1, h.2, h.3, h.4, h.5, h.6, h.7, h.8, h.9, h.10⟩

theorem discardUpload (h : s.Echoes) : s.discardUpload.Echoes :=
  ⟨h.1, h.2, h.3, h.4, h.5, h.6, h.7, h.8, h.9, h.10⟩

theorem publishCancel (h : s.Echoes) (id epoch revision : ℕ) :
    (s.publishCancel id epoch revision).Echoes :=
  ⟨h.1, h.2, h.3, h.4, h.5, h.6, h.7, h.8, h.9, h.10⟩

theorem readSelection (h : s.Echoes) : s.readSelection.Echoes :=
  ⟨h.1, h.2, h.3, h.4, h.5, h.6, h.7, h.8, h.9, h.10⟩

theorem unwait (h : s.Echoes) : ({ s with loc := { s.loc with commitWaiting := false } } : Server).Echoes :=
  ⟨h.1, h.2, fun hw => absurd hw Bool.false_ne_true, h.4, h.5, h.6, h.7, h.8, h.9, h.10⟩

theorem groupRetire (h : s.Echoes) : s.groupRetire.Echoes := by
  unfold Server.groupRetire
  split_ifs
  · exact ⟨h.1, h.2, fun hw => absurd hw Bool.false_ne_true, h.4, h.5, h.6, h.7, h.8, h.9, h.10⟩
  · dsimp only
    split_ifs
    · exact h
    · exact (h.publishCancel _ _ _).discardUpload

theorem groupLeave (h : s.Echoes) : s.groupLeave.Echoes := by
  unfold Server.groupLeave
  split_ifs
  · exact h
  · refine ⟨h.1, fun hj => absurd hj Bool.false_ne_true, ?_, h.4, h.5, h.6, h.7, h.8, h.9, h.10⟩
    intro hw _
    dsimp only at hw
    split_ifs at hw with hc
    exact h.waiting hw (by simpa using hc)

/-! ## the loop before a frame -/

theorem top (h : s.Echoes) : (s.top cfg env).Echoes := by
  have h1 := h.readSelection
  unfold Server.top
  generalize s.readSelection = s₁ at h1
  dsimp only
  refine ite (fun _ => h1.goto _) fun hj => ?_
  have hid : GroupIdOk s₁.loc.grp.id := h1.member (by simpa using hj)
  refine ite (fun _ => ite (fun _ => ?_) fun _ => h1.groupRetire.groupLeave.goto _) fun _ => ?_
  · exact (h1.groupRetire.groupLeave.groupReply hid (.inr (by decide)) (by omega)).goOn _ _
  refine ite (fun _ => ?_) fun _ => ite (fun _ => h1.goto _) fun _ => h1.goto _
  have hclear : ({ s₁ with sh := { s₁.sh with groupEvent := 0 } } : Server).Echoes :=
    ⟨h1.1, h1.2, h1.3, h1.4, h1.5, h1.6, h1.7, h1.8, h1.9, Nat.zero_le _⟩
  have hop : ∀ w : Bool, (if w = true then groupCommitOp else 0) = 0 ∨
      (39 ≤ (if w = true then groupCommitOp else 0) ∧ (if w = true then groupCommitOp else 0) ≤ 41) := by
    decide
  have hv : s₁.sh.groupEvent - 1 ≤ 4 := by
    have := h1.event
    omega
  exact (hclear.groupRetire.groupLeave.unwait.groupReply hid (hop _) hv).goOn _ _

theorem holdDecide (h : s.Echoes) (hj : s.loc.grp.joined = true) {gnow : ℕ} {release : Bool}
    {bad : Option PeerVerdict} : (s.holdDecide cfg gnow release bad env).Echoes := by
  unfold Server.holdDecide
  dsimp only
  have hd : ∀ d, ({ s with loc := { s.loc with grp := { s.loc.grp with deadlineNs := d } } } :
      Server).Echoes := fun d => ⟨h.1, h.2, h.3, h.4, h.5, h.6, h.7, h.8, h.9, h.10⟩
  refine ite (fun _ => ?_) fun _ => ite (fun _ => ?_) fun _ => ?_
  · refine ((hd _).groupRetire.groupLeave.groupReply (h.member hj) (.inr (by decide)) ?_).goOn _ _
    cases bad with
    | none => exact Nat.zero_le 4
    | some v => exact v.code_le
  all_goals exact ⟨h.1, h.2, h.3, h.4, h.5, h.6, h.7, h.8, h.9, h.10⟩

theorem poll (h : s.Echoes) (hj : s.loc.grp.joined = true) {m gnow : ℕ} {release : Bool}
    {bad : Option PeerVerdict} : (s.poll cfg m gnow release bad env).Echoes := by
  unfold Server.poll
  refine ite (fun _ => h.holdDecide hj) fun _ => ite (fun _ => h.goto _) fun _ => ?_
  exact ite (fun _ => h.goto _) fun _ => h.goto _

theorem modeAck (h : s.Echoes) : (s.modeAck env).Echoes := by
  unfold Server.modeAck
  dsimp only
  refine ite (fun _ => h.goto _) fun hout => ?_
  have hask := h.asked (by simpa using hout)
  refine ite (fun hdone => ite (fun _ => h.goto _) fun _ => ?_) fun _ => ?_
  · have hs : (if s.loc.modePendingSent = true then s
        else s.send (.mode s.rt.modeFeedback s.loc.modeFrame.seq) env.sendOk).Echoes :=
      ite (fun _ => h) fun _ => h.send fun _ => h.confirmed (hdone ▸ hask.2)
    exact ⟨hs.1, hs.2, hs.3, hs.4, hs.5, fun ha => absurd ha Bool.false_ne_true, hs.7, hs.8, hs.9,
      hs.10⟩
  · refine ite (fun _ => ite (fun _ => h.goto _) fun _ => ?_) fun _ => h.goto _
    have hs := h.send (b := true) (r := .mode
      { sessionId := s.loc.modeRequest.sessionId, generation := s.loc.modeRequest.generation
        armEpoch := s.loc.modeRequest.armEpoch, requestedMode := s.loc.modeRequest.desiredMode
        selectedMode := s.rt.modeEffective, predecessor := s.rt.modeGeneration, result := .pending }
      s.loc.modeFrame.seq) fun _ => hask.1
    exact ⟨hs.1, h.2, h.3, h.4, h.5, h.6, h.7, h.8, h.9, h.10⟩

/-- the commit was answered: nothing waits any more -/
theorem answered (h : s.Echoes) {b : Bool} (hr : b = true → s.loc.commitReply.Legible) (c : Bool) :
    ({ s with loc := { s.loc with commitWaiting := false, haveCommitReply := b
                                  grp := { s.loc.grp with isCommit := c } } } : Server).Echoes :=
  ⟨h.1, h.2, fun hw => absurd hw Bool.false_ne_true, hr, h.5, h.6, h.7, h.8, h.9, h.10⟩

theorem commitAck (h : s.Echoes) (hshape : s.Shape) : (s.commitAck cfg env).Echoes := by
  unfold Server.commitAck
  refine ite (fun _ => h.goto _) fun hidle => ?_
  have hwait : s.loc.commitWaiting = true := by
    by_contra hw
    exact hidle (.inl (by simpa using hw))
  dsimp only
  have hres : ({ s with loc := { s.loc with
      commitReply := { s.loc.commitReply with result := s.rt.referenceResult } } } : Server).Echoes :=
    ⟨h.1, h.2, h.3, fun hr => ⟨h.result, (h.replied hr).2⟩, h.5, h.6, h.7, h.8, h.9, h.10⟩
  refine ite (fun hc => ?_) fun hc => ite (fun _ => hres.goto _) fun _ => ?_
  · have hid : GroupIdOk s.loc.grp.id := h.member (hshape.commit hc).1
    refine goOn (groupReply (ite (fun _ => discardUpload ?_) fun _ => ?_) hid (.inr (by decide))
      (Nat.zero_le 4)) _ _
    all_goals
      refine answered (ite (fun _ => hres) fun _ => hres.groupRetire.groupLeave) ?_ false
      exact fun hf => absurd hf Bool.false_ne_true
  · have hop : s.loc.commitReply.operation = 35 := h.waiting hwait (by simpa using hc)
    have hleg : ReferenceReplyPayload.Legible
        { s.loc.commitReply with result := s.rt.referenceResult } := by
      refine ⟨h.result, ?_, ?_⟩
      · show 32 ≤ s.loc.commitReply.operation
        omega
      · show s.loc.commitReply.operation ≤ 37
        omega
    have hs := (hres.send (r := .reference _ s.loc.commitFrame.seq) (b := true) fun _ => hleg).answered
      (b := true) (fun _ => hleg) s.loc.grp.isCommit
    exact goto (ite (fun _ => discardUpload hs) fun _ => hs) _

/-! ## reference frames -/

theorem onBegin (h : s.Echoes) (u : ReferenceUpload) (seq : ℕ) (b : ReferenceBeginPayload) :
    (s.onBegin u seq b env).Echoes := by
  unfold Server.onBegin
  dsimp only
  refine ite (fun _ => h.answer 32 (by decide) rfl (by decide)) fun _ => ?_
  exact (h.setUpload _).answer 32 (u.begin_plain _ _ _) rfl (by decide)

theorem publishCommit (h : s.Echoes) {f : ControlPacket} {c : ReferenceCommitPayload}
    {a : AdmittedReference} {reply : ReferenceReplyPayload} (hop : reply.operation = 35) :
    (s.publishCommit f c a reply).Echoes :=
  ⟨h.1, h.2, fun _ _ => hop, fun hr => absurd hr Bool.false_ne_true, h.5, h.6, h.7, h.8, h.9, h.10⟩

theorem onCommit (h : s.Echoes) (u : ReferenceUpload) (f : ControlPacket) (c : ReferenceCommitPayload) :
    (s.onCommit u f c env).Echoes := by
  unfold Server.onCommit
  dsimp only
  refine ite (fun _ => h.answer 35 (by decide) rfl (by decide)) fun _ => ?_
  refine ite (fun _ => h.answer 35 (by decide) rfl (by decide)) fun _ => ?_
  refine ite (fun _ => ite (fun _ => ?_) fun _ => h.answer 35 (by decide) rfl (by decide)) fun _ => ?_
  · exact ⟨h.1, h.2, h.3, h.4, h.5, h.6, h.7, h.8, h.9, h.10⟩
  refine ite (fun hrep => ?_) fun _ => ?_
  · obtain ⟨hplain, hop⟩ := h.replied hrep.1
    refine h.answer _ ?_ rfl hop
    split_ifs
    · exact hplain
    · decide
  cases u.admitted with
  | none => exact h.answer 35 (by decide) rfl (by decide)
  | some a =>
    exact ite (fun _ => h.answer 35 (by decide) rfl (by decide)) fun _ => h.publishCommit rfl

theorem onCancel (h : s.Echoes) (u : ReferenceUpload) (seq : ℕ) (c : ReferenceRetirePayload) :
    (s.onCancel u seq c env).Echoes := by
  unfold Server.onCancel
  dsimp only
  refine ite (fun _ => h.answer 37 (by decide) rfl (by decide)) fun _ => ?_
  refine ite (fun _ => h.answer 37 (by decide) rfl (by decide)) fun _ => ?_
  refine ite (fun _ => h.answer 37 (by decide) rfl (by decide)) fun _ => ?_
  have hc := (h.publishCancel (s.retireId c.id) c.armEpoch c.revision).discardUpload
  refine answer ?_ 37 (by decide) rfl (by decide)
  exact ⟨hc.1, hc.2, hc.3, hc.4, hc.5, hc.6, hc.7, hc.8, hc.9, hc.10⟩

theorem onGroupJoin (h : s.Echoes)
    (hc : s.loc.grp.isCommit = true → s.loc.grp.joined = true) (seq : ℕ) {g : GroupMemberPayload}
    (hg : GroupIdOk g.groupId) : (s.onGroupJoin cfg seq g env).Echoes := by
  unfold Server.onGroupJoin
  dsimp only
  refine goOn (groupReply (ite (fun hnew => ?_) fun _ => h) hg (.inr (by decide)) (Nat.zero_le 4)) _ _
  refine ⟨h.1, fun _ => hg, ?_, h.4, h.5, h.6, h.7, h.8, h.9, Nat.zero_le 5⟩
  intro hw _
  apply h.waiting hw
  by_contra hno
  rw [hc (by simpa using hno)] at hnew
  exact Bool.noConfusion hnew.2

theorem onGroupCancel (h : s.Echoes) (seq : ℕ) {g : GroupMemberPayload} (hg : GroupIdOk g.groupId) :
    (s.onGroupCancel cfg seq g env).Echoes := by
  unfold Server.onGroupCancel
  dsimp only
  refine ite (fun _ => (h.groupReply hg (.inr (by decide)) (Nat.zero_le 4)).goOn _ _) fun _ => ?_
  refine ite (fun _ => ?_) fun _ => (h.groupReply hg (.inr (by decide)) (Nat.zero_le 4)).goOn _ _
  have hl : (if (env.ownOk && s.sh.slot.groupId == s.loc.grp.id && s.sh.slot.state == .done) = true
      then s else s.groupRetire).groupLeave.Echoes := (ite (fun _ => h) fun _ => h.groupRetire).groupLeave
  refine goOn (groupReply (ite (fun _ => ?_) fun _ => hl) hg (.inr (by decide)) (Nat.zero_le 4)) _ _
  exact hl.groupReply hg (.inr (by decide)) (Nat.zero_le 4)

/-- the verdict of a failed check -/
theorem groupCommitCheck_verdict (u : ReferenceUpload) (g : GroupCommitPayload) :
    (s.groupCommitCheck cfg u g env).2.1 ≤ 4 := by
  unfold Server.groupCommitCheck
  dsimp only
  cases firstBadPeer env.peers s.loc.grp.count s.loc.grp.index s.loc.grp.id env.now
    cfg.groupMaxAgeNs with
  | none => split_ifs <;> exact Nat.zero_le 4
  | some v => split_ifs <;> first | exact Nat.zero_le 4 | exact v.code_le

theorem holdCommit (h : s.Echoes) (u : ReferenceUpload) (f : ControlPacket) (g : GroupCommitPayload)
    (deadline now : ℕ) : (s.holdCommit u f g deadline now).Echoes :=
  ⟨h.1, h.2, fun _ hc => absurd hc Bool.noConfusion, fun hr => absurd hr Bool.false_ne_true, h.5, h.6,
    h.7, h.8, h.9, h.10⟩

theorem onGroupCommit (h : s.Echoes) (u : ReferenceUpload) (f : ControlPacket) {g : GroupCommitPayload}
    (hg : GroupIdOk g.groupId) : (s.onGroupCommit cfg u f g env).Echoes := by
  unfold Server.onGroupCommit
  dsimp only
  refine ite (fun _ => ?_) fun _ => ite (fun hrep => ?_) fun _ => ?_
  · exact ⟨h.1, h.2, h.3, h.4, h.5, h.6, h.7, h.8, h.9, h.10⟩
  · have hst := h.stored (by simp_all)
    refine goOn (h.send fun _ => ?_) _ _
    exact hst
  · have hnew : ({ s with loc := { s.loc with gcommitReq := f, haveGcommitStatus := false } } :
        Server).Echoes :=
      ⟨h.1, h.2, h.3, h.4, fun hr => absurd hr Bool.false_ne_true, h.6, h.7, h.8, h.9, h.10⟩
    refine ite (fun _ => hnew.holdCommit _ _ _ _ _) fun _ => ?_
    refine goOn (groupReply (ite (fun _ => hnew.groupLeave) fun _ => hnew) hg (.inr (by decide)) ?_) _ _
    exact groupCommitCheck_verdict u g

end Echoes

/-! ## the frames with an illegible reply -/

/-- the reference status has no number for these opcodes -/
def unnumbered (cfg : ServerConfig) : Body → Bool
  | .referenceStatus _ | .groupStatus _ => true
  | .groupJoin _ | .groupCancel _ | .groupCommit _ => !cfg.groupEnabled
  | _ => false

/-- the reply to this frame copies a field that is out of range -/
def garbles (cfg : ServerConfig) (s : Server) (f : ControlPacket) : Bool :=
  match f.body with
  | .modeSelect want => !decide (IsMode want.desiredMode)
  | body => s.loc.upload.isSome && f.arg == 0 && body.valid && unnumbered cfg body

namespace Echoes

theorem referenceFrame (h : s.Echoes) (hc : s.loc.grp.isCommit = true → s.loc.grp.joined = true)
    (u : ReferenceUpload) {f : ControlPacket} (hid : ∀ G, f.body.group = some G → GroupIdOk G)
    (hok : env.sendOk = true → unnumbered cfg f.body = false) :
    (s.referenceFrame cfg u f env).Echoes := by
  have hquiet : ∀ {seq : ℕ} {r : ReferenceReplyPayload} {res : ReferenceResult},
      (unnumbered cfg f.body = true) → (s.answer seq r res env).Echoes :=
    fun hno => (h.send fun ht => absurd (hno.symm.trans (hok ht)) Bool.noConfusion).goOn _ _
  obtain ⟨seq, arg, body⟩ := f
  unfold Server.referenceFrame
  cases body with
  | referenceBegin b => exact h.onBegin u _ b
  | referenceChunk c => exact (h.setUpload _).answer 33 (u.chunk_plain c) rfl (by decide)
  | referenceSeal c => exact (h.setUpload _).answer 34 (u.seal_plain _ c _) rfl (by decide)
  | referenceAbort a =>
    refine ite (fun _ => h.answer 36 (by decide) rfl (by decide)) fun _ => ?_
    refine ite (fun _ => h.answer 36 (by decide) rfl (by decide)) fun _ => ?_
    exact (h.setUpload _).answer 36 (u.abort_plain a.id) rfl (by decide)
  | referenceCommit c => exact h.onCommit u _ c
  | cancelReference c => exact h.onCancel u _ c
  | groupJoin g =>
    exact ite (fun _ => h.onGroupJoin hc _ (hid _ rfl)) fun hoff => hquiet (by simpa [unnumbered] using hoff)
  | groupCancel g =>
    exact ite (fun _ => h.onGroupCancel _ (hid _ rfl)) fun hoff => hquiet (by simpa [unnumbered] using hoff)
  | groupCommit g =>
    exact ite (fun _ => h.onGroupCommit u _ (hid _ rfl)) fun hoff => hquiet (by simpa [unnumbered] using hoff)
  | referenceStatus w => exact hquiet rfl
  | groupStatus w => exact hquiet rfl
  | _ => exact h.goto _

/-! ## session frames -/

theorem onReferenceMode (h : s.Echoes) (f : ControlPacket) (want : ReferenceModePayload) :
    (s.onReferenceMode cfg f want env).Echoes := by
  unfold Server.onReferenceMode
  refine ite (fun _ => h.status _ _) fun _ => ite (fun _ => h.status _ _) fun _ => ?_
  refine ite (fun _ => h.status _ _) fun _ => ite (fun _ => h.status _ _) fun _ => ?_
  refine status (ite (fun _ => h) fun _ => ?_) _ _
  exact ⟨h.1, h.2, h.3, h.4, h.5, h.6, h.7, h.8, h.9, h.10⟩

theorem fenceMode (h : s.Echoes) {f : ControlPacket} {want : ModeSelectPayload} {now : ℕ}
    (hm : IsMode want.desiredMode) : (s.fenceMode f want now).Echoes :=
  ⟨h.1, h.2, h.3, h.4, h.5, fun _ => ⟨hm, Nat.succ_ne_zero _⟩, fun _ => hm, h.8, h.9, h.10⟩

theorem modeCheck_valid {f : ControlPacket} {want : ModeSelectPayload}
    (h : s.modeCheck cfg f want = .ok) : want.valid = true := by
  unfold modeCheck at h
  by_contra hv
  split_ifs at h with _ hm
  all_goals exact hm (.inr (.inl (by simpa using hv)))

theorem valid_mode {want : ModeSelectPayload} (h : want.valid = true) : IsMode want.desiredMode := by
  unfold ModeSelectPayload.valid at h
  simp only [Bool.and_eq_true, Bool.or_eq_true, beq_iff_eq] at h
  exact h.1.1.1.2

theorem onModeSelect (h : s.Echoes) {f : ControlPacket} {want : ModeSelectPayload}
    (hm : env.sendOk = true → IsMode want.desiredMode) : (s.onModeSelect cfg f want env).Echoes := by
  unfold Server.onModeSelect
  dsimp only
  refine ite (fun _ => ite (fun _ => h.modeStatus hm) fun _ => h.modeStatus hm) fun _ => ?_
  refine ite (fun _ => h.modeStatus hm) fun hok => ite (fun _ => h.modeStatus hm) fun _ => ?_
  refine ite (fun _ => h.modeStatus hm) fun _ => h.fenceMode ?_
  exact valid_mode (modeCheck_valid (not_not.mp hok))

theorem onClaim (h : s.Echoes) (want : IdentityPayload) : (s.onClaim cfg want env).Echoes := by
  unfold Server.onClaim
  cases s.claimMismatch cfg want with
  | some why => exact h.status _ _
  | none =>
    refine status ?_ _ _
    exact ⟨h.1, h.2, h.3, h.4, h.5, h.6, h.7, h.8, h.9, h.10⟩

theorem onArm (h : s.Echoes) : (s.onArm cfg env).Echoes := by
  unfold Server.onArm
  refine ite (fun _ => h.status _ _) fun _ => ite (fun _ => h.status _ _) fun _ => ?_
  split
  · exact h.status _ _
  · exact h.status _ _
  · refine status ?_ _ _
    exact ⟨h.1, h.2, h.3, h.4, h.5, h.6, h.7, h.8, h.9, h.10⟩

theorem onDisarm (h : s.Echoes) : (s.onDisarm env).Echoes := by
  refine status ?_ _ _
  exact ⟨h.1, h.2, h.3, h.4, h.5, h.6, h.7, h.8, h.9, h.10⟩

/-- a v7 frame: the decoder stands before the opcodes -/
theorem frame7 (h : s.Echoes) (hc : s.loc.grp.isCommit = true → s.loc.grp.joined = true)
    {f : ControlPacket} (hwire : ∀ G, f.body.group = some G → G < 2 ^ 64)
    (hok : env.sendOk = true →
      (s.loc.upload.isSome && f.arg == 0 && f.body.valid && unnumbered cfg f.body) = false) :
    (match s.readSelection.loc.upload with
      | none => { s.readSelection with pc := .top }
      | some u =>
        if f.arg ≠ 0 ∨ f.body.valid = false then { s.readSelection with pc := .top }
        else
          let u := u.observeEpoch
            (if s.readSelection.pub.armed then low32 s.readSelection.pub.armGen else 0)
          (s.readSelection.setUpload u).referenceFrame cfg u f env).Echoes := by
  have hsel : s.readSelection.loc.upload = s.loc.upload := rfl
  rw [hsel]
  cases hu : s.loc.upload with
  | none => exact h.readSelection.goto _
  | some u =>
    refine ite (fun _ => h.readSelection.goto _) fun hd => ?_
    obtain ⟨harg, hv⟩ : f.arg = 0 ∧ f.body.valid = true := by simpa [not_or] using hd
    rw [hu, harg, hv] at hok
    exact referenceFrame (h.readSelection.setUpload _) hc _
      (fun G hG => ⟨f.body.group_pos hv hG, hwire G hG⟩) hok

theorem frame (h : s.Echoes) (hc : s.loc.grp.isCommit = true → s.loc.grp.joined = true)
    {f : ControlPacket} (hwire : ∀ G, f.body.group = some G → G < 2 ^ 64)
    (hok : env.sendOk = true → s.garbles cfg f = false) : (s.frame cfg f env).Echoes := by
  obtain ⟨seq, arg, body⟩ := f
  unfold Server.frame
  cases body with
  | arm => exact h.onArm
  | disarm => exact h.onDisarm
  | ping =>
    refine goto (h.send fun _ => ?_) _
    trivial
  | status => exact h.status _ _
  | setActive => exact h.goto _
  | unknown => exact h.goto _
  | claim want => exact h.onClaim want
  | referenceMode want => exact h.onReferenceMode _ want
  | modeSelect want => exact h.onModeSelect fun ht => by simpa [garbles] using hok ht
  | _ => exact h.frame7 hc hwire hok

/-! ## the thread -/

theorem accept (h : s.Echoes) : (s.accept ids env).Echoes := by
  unfold Server.accept
  refine ite (fun _ => h) fun _ => ?_
  exact ⟨h.1, nofun, nofun, nofun, nofun, nofun, h.7, h.8, h.9, h.10⟩

theorem ending (h : s.Echoes) : s.ending.Echoes := by
  refine ⟨h.1, h.2, h.3, h.4, h.5, h.6, h.7, h.8, h.9, ?_⟩
  show (if s.pub.armed = true then
    s.sh.latchFault .ctlLost "control session lost while armed" s.pub.armGen else s.sh).groupEvent ≤ 5
  split_ifs
  · rw [latchFault_event]
    exact h.event
  · exact h.event

theorem groupEnd (h : s.Echoes) : (s.groupEnd cfg).Echoes := by
  unfold Server.groupEnd
  refine ite (fun _ => h.goto _) fun _ => ?_
  refine ⟨h.1, h.2, h.3, h.4, h.5, h.6, h.7, h.8, h.9, ?_⟩
  dsimp only
  split_ifs <;> exact h.event

theorem controlStep (h : s.Echoes) (hs : s.Shape)
    (hwire : ∀ f, env.frame = some f → ∀ G, f.body.group = some G → G < 2 ^ 64)
    (hok : s.pc = .recv → env.hangup = false → env.sendOk = true → ∀ f, env.frame = some f →
      s.garbles cfg f = false) : (s.controlStep cfg ids env).Echoes := by
  unfold Server.controlStep
  cases hpc : s.pc with
  | closed => exact h.accept
  | top => exact h.top
  | poll m gnow release bad =>
    have hj := (hs.commit (hs.hold (hs.poll _ _ _ _ hpc)).2).1
    exact h.poll hj
  | modeAck => exact h.modeAck
  | commitAck => exact h.commitAck hs
  | recv =>
    refine ite (fun _ => h.goto _) fun hup => ?_
    cases hf : env.frame with
    | none => exact h.goto _
    | some f =>
      exact h.frame (fun hc => (hs.commit hc).1) (hwire f hf)
        fun ht => hok hpc (by simpa using hup) ht f hf
  | commitWrite => exact ⟨h.1, h.2, h.3, h.4, h.5, h.6, h.7, h.8, h.9, h.10⟩
  | ending => exact h.ending
  | groupEnd => exact h.groupEnd

theorem servo (h : s.Echoes) (renv : RtEnv) : (s.step cfg ids (.servo renv)).Echoes := by
  have hr : s.rt.Replies := ⟨h.confirmed, h.result⟩
  have hr' : (s.rt.step cfg s.sh s.pub renv).1.Replies := hr.step h.published
  exact ⟨h.1, h.2, h.3, h.4, h.5, h.6, h.7, hr'.1, hr'.2, RtLoop.step_event h.event⟩

end Echoes

/-! ## runs -/

/-- no frame that the control thread answers gets an illegible reply -/
def Answerable (cfg : ServerConfig) (s : Server) : Event → Prop
  | .control env => s.pc = .recv → env.hangup = false → env.sendOk = true → ∀ f ∈ env.frame,
      s.garbles cfg f = false
  | _ => True

instance (cfg : ServerConfig) (s : Server) : DecidablePred (Answerable cfg s)
  | .control _ => inferInstanceAs (Decidable (_ → _ → _ → ∀ f ∈ _, _))
  | .servo _ | .enterSlot | .datagram _ => isTrue trivial

theorem Echoes.step (h : s.Echoes) (hs : s.Shape) {e : Event} (hc : Answerable cfg s e)
    (hwire : ∀ cenv, e = .control cenv → ∀ f ∈ cenv.frame, ∀ G ∈ f.body.group, G < 2 ^ 64) :
    (s.step cfg ids e).Echoes := by
  cases e with
  | control cenv =>
    refine ite (fun _ => h) fun _ => ?_
    exact h.controlStep hs (fun f hf G hG => hwire cenv rfl f hf G hG) hc
  | enterSlot => exact ⟨h.1, h.2, h.3, h.4, h.5, h.6, h.7, h.8, h.9, h.10⟩
  | servo renv => exact h.servo renv
  | datagram _ => exact ⟨h.1, h.2, h.3, h.4, h.5, h.6, h.7, h.8, h.9, h.10⟩

theorem decode_group (e : WireEvent) {cenv : CtlEnv} (he : e.decode = .control cenv)
    {f : ControlPacket} (hf : f ∈ cenv.frame) {G : ℕ} (hG : G ∈ f.body.group) : G < 2 ^ 64 := by
  unfold WireEvent.decode at he
  split at he
  · obtain rfl := Event.control.inj he
    obtain ⟨t, -, ht⟩ := Option.bind_eq_some_iff.mp hf
    exact Wire.ofFrame_group ht hG
  · rename_i hno
    exact absurd he (hno cenv)

/-- **Replies.**  In a run whose frames are all answerable, every reply is legible. -/
theorem legible_run (cfg : ServerConfig) (ids : SessionIds) {es : List WireEvent}
    (h : Along (wireStep cfg ids) (fun s e => Answerable cfg s e.decode) {} es) :
    ∀ r ∈ (run (wireStep cfg ids) {} es).sent, r.Legible := by
  have h0 : ({} : Server).Shape ∧ ({} : Server).Echoes := by
    refine ⟨⟨nofun, nofun, nofun, nofun⟩, nofun, nofun, nofun, nofun, nofun, nofun, ?_, ?_, ?_, ?_⟩
    · exact fun h => absurd rfl h
    · exact fun h => absurd rfl h
    · exact ⟨nofun, nofun⟩
    · exact Nat.zero_le 5
  refine (invariant (I := fun s : Server => s.Shape ∧ s.Echoes) h0 ?_ h).2.sent
  rintro s e hc ⟨hs, he⟩
  refine ⟨shape_run hs [e.decode], he.step hs hc ?_⟩
  intro cenv hd f hf G hG
  exact decode_group e hd hf hG

end Server

end ArmControl.Rt
