import ArmControl.Rt.ControlSession

/-!
# What the control thread does to the staged upload

* `SendsSeals`         the replies sent, and the SEALs answered OK in them: upload and frame sequence;
* `Fades`              the candidate is as it was, or gone;
* `KeepsUpload`        a step with no BEGIN, CHUNK or SEAL in it;
* `controlStep_upload` every step is one of these, or one call on the upload.
-/

namespace ArmControl.Rt

/-- a candidate of `o'` is the candidate of `o`, and the last upload id is the same -/
structure Fades (o o' : Option ReferenceUpload) : Prop where
  last : ∀ u ∈ o, ∃ u' ∈ o', u'.lastUpload = u.lastUpload
  candidate : ∀ u' ∈ o', u'.present = true → ∃ u ∈ o, u.present = true ∧ u'.candidate = u.candidate ∧
    u'.isSealed = u.isSealed ∧ u'.bytes = u.bytes

namespace Fades

variable {o a b : Option ReferenceUpload}

theorem refl (o : Option ReferenceUpload) : Fades o o :=
  ⟨fun u hu => ⟨u, hu, rfl⟩, fun u hu hp => ⟨u, hu, hp, rfl, rfl, rfl⟩⟩

theorem trans (h : Fades o a) (h' : Fades a b) : Fades o b := by
  constructor
  · intro u hu
    obtain ⟨v, hv, h1⟩ := h.last u hu
    obtain ⟨w, hw, h2⟩ := h'.last v hv
    exact ⟨w, hw, h2.trans h1⟩
  · intro u hu hp
    obtain ⟨v, hv, hvp, h1, h2, h3⟩ := h'.candidate u hu hp
    obtain ⟨w, hw, hwp, h4, h5, h6⟩ := h.candidate v hv hvp
    exact ⟨w, hw, hwp, h1.trans h4, h2.trans h5, h3.trans h6⟩

/-- the upload may only let its candidate go -/
theorem map {f : ReferenceUpload → ReferenceUpload} (hf : ∀ u, Fades (some u) (some (f u))) (o) :
    Fades o (o.map f) := by
  cases o with
  | none => exact refl none
  | some u => exact hf u

theorem gone {u u' : ReferenceUpload} (h : u'.present = false) (hlast : u'.lastUpload = u.lastUpload) :
    Fades (some u) (some u') := by
  constructor
  · intro v hv
    obtain rfl := Option.mem_some_iff.mp hv
    exact ⟨u', rfl, hlast⟩
  · intro v hv hp
    obtain rfl := Option.mem_some_iff.mp hv
    rw [h] at hp
    cases hp

/-- a new upload has no candidate -/
theorem opened {u' : ReferenceUpload} (ho : o.isSome = false) (h : u'.present = false) : Fades o (some u') := by
  obtain rfl := Option.isNone_iff_eq_none.mp (Option.isSome_eq_false_iff.mp ho)
  constructor
  · exact fun _ hu => nomatch hu
  · intro v hv hp
    obtain rfl := Option.mem_some_iff.mp hv
    rw [h] at hp
    cases hp

theorem discard (u : ReferenceUpload) : Fades (some u) (some u.discard) := gone rfl rfl

theorem observeEpoch (u : ReferenceUpload) (epoch : ℕ) : Fades (some u) (some (u.observeEpoch epoch)) := by
  unfold ReferenceUpload.observeEpoch
  split
  · exact gone rfl rfl
  · exact refl _

theorem abort (u : ReferenceUpload) (id : ℕ) : Fades (some u) (some (u.abort id).2) := by
  unfold ReferenceUpload.abort
  split
  · exact refl _
  · split
    · exact refl _
    · split
      · exact refl _
      · exact gone rfl rfl

end Fades

def sealOp : ℕ := 34

def sealOk : Reply → Option (ℕ × ℕ)
  | .reference r seq => if r.operation = sealOp ∧ r.result = .ok then some (r.uploadId, seq) else none
  | _ => none

/-- `s'` has sent these SEALs more than `s` -/
def SendsSeals (l l' : List Reply) (oks : List (ℕ × ℕ)) : Prop := ∃ new, l' = l ++ new ∧ new.filterMap sealOk = oks

namespace Server

/-- the upload fades, and no SEAL is answered OK; the stored COMMIT reply is no SEAL's -/
structure KeepsUpload (s s' : Server) : Prop where
  upload : Fades s.loc.upload s'.loc.upload
  sent : s.loc.commitReply.operation ≠ sealOp → SendsSeals s.sent s'.sent []
  commitReply : s.loc.commitReply.operation ≠ sealOp → s'.loc.commitReply.operation ≠ sealOp

namespace KeepsUpload

variable {s a b : Server}

theorem refl (s : Server) : KeepsUpload s s := ⟨.refl _, fun _ => ⟨[], (List.append_nil _).symm, rfl⟩, id⟩

theorem trans (h : KeepsUpload s a) (h' : KeepsUpload a b) : KeepsUpload s b := by
  refine ⟨h.upload.trans h'.upload, fun hs => ?_, fun hs => h'.commitReply (h.commitReply hs)⟩
  obtain ⟨new, he, hn⟩ := h.sent hs
  obtain ⟨new', he', hn'⟩ := h'.sent (h.commitReply hs)
  refine ⟨new ++ new', by rw [he', he, List.append_assoc], ?_⟩
  rw [List.filterMap_append, hn, hn']
  rfl

theorem branch {c : Prop} [Decidable c] (ha : KeepsUpload s a) (hb : KeepsUpload s b) :
    KeepsUpload s (if c then a else b) := by
  split
  · exact ha
  · exact hb

/-- the upload fades -/
theorem fade (h : KeepsUpload s a) (hupload : Fades a.loc.upload b.loc.upload)
    (hreply : b.loc.commitReply.operation = a.loc.commitReply.operation) (hsent : b.sent = a.sent) :
    KeepsUpload s b :=
  ⟨h.upload.trans hupload, fun hs => hsent ▸ h.sent hs, fun hs => hreply ▸ h.commitReply hs⟩

/-- neither the upload nor the stored reply is touched, and nothing is sent -/
theorem silent (h : KeepsUpload s a) (hupload : b.loc.upload = a.loc.upload)
    (hreply : b.loc.commitReply.operation = a.loc.commitReply.operation) (hsent : b.sent = a.sent) :
    KeepsUpload s b :=
  h.fade (hupload ▸ .refl _) hreply hsent

theorem send (s : Server) {r : Reply} (hr : s.loc.commitReply.operation ≠ sealOp → sealOk r = none) (ok : Bool) :
    KeepsUpload s (s.send r ok) := by
  cases ok with
  | false => exact refl s
  | true =>
    refine ⟨.refl _, fun hs => ⟨[r], rfl, ?_⟩, id⟩
    rw [List.filterMap_cons, hr hs]
    rfl

theorem goOn (h : KeepsUpload s a) (next : CtlPc) (ok : Bool) : KeepsUpload s (a.goOn next ok) :=
  h.silent rfl rfl rfl

theorem groupReply (cfg : ServerConfig) (s : Server) (gid op : ℕ) (result : ReferenceResult) (verdict seq : ℕ)
    (env : CtlEnv) : KeepsUpload s (s.groupReply cfg gid op result verdict seq env) := by
  unfold Server.groupReply
  dsimp only
  refine trans ?_ (send _ (fun _ => rfl) _)
  refine (refl s).silent ?_ ?_ rfl
  all_goals split <;> rfl

theorem groupLeave (s : Server) : KeepsUpload s s.groupLeave := by
  unfold Server.groupLeave
  exact branch (refl s) ((refl s).silent rfl rfl rfl)

theorem discardUpload (s : Server) : KeepsUpload s s.discardUpload :=
  (refl s).fade (.map .discard _) rfl rfl

theorem groupRetire (s : Server) : KeepsUpload s s.groupRetire := by
  unfold Server.groupRetire
  refine branch ((refl s).fade (.map (fun u => .abort u _) _) rfl rfl) (branch (refl s) ?_)
  refine trans ?_ (discardUpload _)
  exact (refl s).silent rfl rfl rfl

/-- the member leaves its group -/
theorem leave (s : Server) : KeepsUpload s s.groupRetire.groupLeave := (groupRetire s).trans (groupLeave _)

theorem status (h : KeepsUpload s a) (text : String) (seq : ℕ) (env : CtlEnv) :
    KeepsUpload s (a.status text seq env) :=
  (h.trans (send a (fun _ => rfl) env.sendOk)).silent rfl rfl rfl

theorem modeStatus (h : KeepsUpload s a) (r : ModeSelectReplyPayload) (seq : ℕ) (env : CtlEnv) :
    KeepsUpload s (a.modeStatus r seq env) :=
  (h.trans (send a (fun _ => rfl) env.sendOk)).silent rfl rfl rfl

/-- an answer to anything but a SEAL -/
theorem answer (h : KeepsUpload s a) (seq : ℕ) {reply : ReferenceReplyPayload}
    (hop : a.loc.commitReply.operation ≠ sealOp → reply.operation ≠ sealOp) (result : ReferenceResult)
    (env : CtlEnv) : KeepsUpload s (a.answer seq reply result env) := by
  refine (h.trans (send a (fun hs => ?_) env.sendOk)).goOn _ _
  exact if_neg fun hc => hop hs hc.1

end KeepsUpload

open KeepsUpload

variable (cfg : ServerConfig) (ids : SessionIds) (s : Server) (env : CtlEnv)

/-! ## the loop before a frame -/

theorem top_keepsUpload : KeepsUpload s (s.top cfg env) := by
  have hread : KeepsUpload s s.readSelection := (refl s).silent rfl rfl rfl
  unfold Server.top
  dsimp only
  refine branch (hread.silent rfl rfl rfl) (branch (branch ?_ ?_) (branch ?_ (branch ?_ ?_)))
  case refine_1 => exact ((hread.trans (leave _)).trans (KeepsUpload.groupReply ..)).silent rfl rfl rfl
  case refine_2 => exact (hread.trans (leave _)).silent rfl rfl rfl
  case refine_3 =>
    have hevent : KeepsUpload s { s.readSelection with sh := { s.readSelection.sh with groupEvent := 0 } } :=
      hread.silent rfl rfl rfl
    refine KeepsUpload.silent (KeepsUpload.trans ?_ (KeepsUpload.groupReply ..)) rfl rfl rfl
    exact (hevent.trans (leave _)).silent rfl rfl rfl
  all_goals exact hread.silent rfl rfl rfl

theorem holdDecide_keepsUpload (gnow : ℕ) (release : Bool) (bad : Option PeerVerdict) :
    KeepsUpload s (s.holdDecide cfg gnow release bad env) := by
  unfold Server.holdDecide
  dsimp only
  refine branch ?_ (branch ((refl s).silent rfl rfl rfl) ((refl s).silent rfl rfl rfl))
  refine KeepsUpload.silent ((KeepsUpload.trans ?_ (leave _)).trans (KeepsUpload.groupReply ..)) rfl rfl rfl
  exact (refl s).silent rfl rfl rfl

theorem poll_keepsUpload (m gnow : ℕ) (release : Bool) (bad : Option PeerVerdict) :
    KeepsUpload s (s.poll cfg m gnow release bad env) := by
  have hquiet (p : CtlPc) : KeepsUpload s { s with pc := p } := (refl s).silent rfl rfl rfl
  unfold Server.poll
  dsimp only
  exact branch (holdDecide_keepsUpload ..) (branch (hquiet _) (branch (hquiet _) (hquiet _)))

theorem modeAck_keepsUpload : KeepsUpload s (s.modeAck env) := by
  have hquiet (p : CtlPc) : KeepsUpload s { s with pc := p } := (refl s).silent rfl rfl rfl
  have hmode (r : ModeSelectReplyPayload) (seq : ℕ) (ok : Bool) : KeepsUpload s (s.send (.mode r seq) ok) :=
    KeepsUpload.send s (fun _ => rfl) ok
  unfold Server.modeAck
  dsimp only
  refine branch (hquiet _) (branch (branch (hquiet _) ?_) (branch (branch (hquiet _) ?_) (hquiet _)))
  case refine_1 =>
    split
    · exact (refl s).silent rfl rfl rfl
    · exact (hmode s.rt.modeFeedback s.loc.modeFrame.seq env.sendOk).silent rfl rfl rfl
  case refine_2 => exact (hmode _ _ _).silent rfl rfl rfl

theorem commitAck_keepsUpload : KeepsUpload s (s.commitAck cfg env) := by
  have hresult (result : ReferenceResult) : KeepsUpload s { s with loc := { s.loc with
      commitReply := { s.loc.commitReply with result := result } } } := (refl s).silent rfl rfl rfl
  have hdiscard {a : Server} (h : KeepsUpload s a) : KeepsUpload s a.discardUpload :=
    h.trans (KeepsUpload.discardUpload a)
  unfold Server.commitAck
  refine branch ((refl s).silent rfl rfl rfl) ?_
  dsimp only
  refine branch ?_ (branch ((refl s).silent rfl rfl rfl) ?_)
  case refine_1 =>
    have hleft := branch (c := s.rt.referenceResult = .ok) (hresult s.rt.referenceResult)
      ((hresult s.rt.referenceResult).trans (leave _))
    refine (trans (branch (hdiscard ?_) ?_) (KeepsUpload.groupReply ..)).silent rfl rfl rfl
    all_goals exact hleft.silent rfl rfl rfl
  case refine_2 =>
    have hsent := (hresult s.rt.referenceResult).trans (KeepsUpload.send _ (r := .reference
      { s.loc.commitReply with result := s.rt.referenceResult } s.loc.commitFrame.seq)
      (fun hs => if_neg fun hc => hs hc.1) true)
    refine (branch (hdiscard ?_) ?_).silent rfl rfl rfl
    all_goals exact hsent.silent rfl rfl rfl

/-! ## frames -/

theorem onReferenceMode_keepsUpload (f : ControlPacket) (want : ReferenceModePayload) :
    KeepsUpload s (s.onReferenceMode cfg f want env) := by
  unfold Server.onReferenceMode
  refine branch ((refl s).status ..) (branch ((refl s).status ..) (branch ((refl s).status ..)
    (branch ((refl s).status ..) ?_)))
  refine KeepsUpload.status ?_ _ _ _
  split
  · exact refl s
  · rename_i hopened
    exact (refl s).fade (.opened (Bool.eq_false_iff.mpr hopened) rfl) rfl rfl

theorem onModeSelect_keepsUpload (f : ControlPacket) (want : ModeSelectPayload) :
    KeepsUpload s (s.onModeSelect cfg f want env) := by
  unfold Server.onModeSelect
  dsimp only
  refine branch (branch ((refl s).modeStatus ..) ((refl s).modeStatus ..)) (branch ((refl s).modeStatus ..)
    (branch ((refl s).modeStatus ..) (branch ((refl s).modeStatus ..) ?_)))
  exact (KeepsUpload.discardUpload s).silent rfl rfl rfl

theorem onClaim_keepsUpload (want : IdentityPayload) : KeepsUpload s (s.onClaim cfg want env) := by
  unfold Server.onClaim
  split
  · exact (refl s).status ..
  · refine KeepsUpload.status ?_ _ _ _
    exact (refl s).silent rfl rfl rfl

theorem onArm_keepsUpload : KeepsUpload s (s.onArm cfg env) := by
  unfold Server.onArm
  refine branch ((refl s).status ..) (branch ((refl s).status ..) ?_)
  split
  · exact (refl s).status ..
  · exact (refl s).status ..
  · refine KeepsUpload.status ?_ _ _ _
    exact (refl s).silent rfl rfl rfl

theorem onDisarm_keepsUpload : KeepsUpload s (s.onDisarm env) := by
  unfold Server.onDisarm
  refine KeepsUpload.status ?_ _ _ _
  exact (refl s).fade (.map (fun u => .observeEpoch u 0) _) rfl rfl

variable {a : Server}

theorem onCommit_keepsUpload (h : KeepsUpload s a) (u : ReferenceUpload) (f : ControlPacket)
    (c : ReferenceCommitPayload) : KeepsUpload s (a.onCommit u f c env) := by
  have hop : (35 : ℕ) ≠ sealOp := by decide
  unfold Server.onCommit
  dsimp only
  refine branch (h.answer _ (fun _ => hop) _ _) (branch (h.answer _ (fun _ => hop) _ _) (branch (branch ?_ ?_)
    (branch (h.answer _ id _ _) ?_)))
  · exact h.silent rfl rfl rfl
  · exact h.answer _ (fun _ => hop) _ _
  · split
    · exact h.answer _ (fun _ => hop) _ _
    · refine branch (h.answer _ (fun _ => hop) _ _) ?_
      exact ⟨h.upload, h.sent, fun _ => hop⟩

theorem onCancel_keepsUpload (h : KeepsUpload s a) (u : ReferenceUpload) (seq : ℕ) (c : ReferenceRetirePayload) :
    KeepsUpload s (a.onCancel u seq c env) := by
  have hop : (37 : ℕ) ≠ sealOp := by decide
  unfold Server.onCancel
  dsimp only
  refine branch (h.answer _ (fun _ => hop) _ _) (branch (h.answer _ (fun _ => hop) _ _)
    (branch (h.answer _ (fun _ => hop) _ _) ?_))
  refine KeepsUpload.answer ?_ _ (fun _ => hop) _ _
  have hpublish : KeepsUpload s (a.publishCancel (a.retireId c.id) c.armEpoch c.revision) := h.silent rfl rfl rfl
  exact (hpublish.trans (KeepsUpload.discardUpload _)).silent rfl rfl rfl

theorem onGroupJoin_keepsUpload (h : KeepsUpload s a) (seq : ℕ) (g : GroupMemberPayload) :
    KeepsUpload s (a.onGroupJoin cfg seq g env) := by
  unfold Server.onGroupJoin
  dsimp only
  refine KeepsUpload.goOn (KeepsUpload.trans (branch ?_ h) (KeepsUpload.groupReply ..)) _ _
  exact h.silent rfl rfl rfl

theorem onGroupCancel_keepsUpload (h : KeepsUpload s a) (seq : ℕ) (g : GroupMemberPayload) :
    KeepsUpload s (a.onGroupCancel cfg seq g env) := by
  unfold Server.onGroupCancel
  dsimp only
  refine branch ((h.trans (KeepsUpload.groupReply ..)).goOn _ _) (branch ?_
    ((h.trans (KeepsUpload.groupReply ..)).goOn _ _))
  refine KeepsUpload.goOn (KeepsUpload.trans ?_ (KeepsUpload.groupReply ..)) _ _
  have hleft : KeepsUpload s ((if (env.ownOk && a.sh.slot.groupId == a.loc.grp.id && a.sh.slot.state == .done) = true
      then a else a.groupRetire).groupLeave) :=
    (branch h (h.trans (KeepsUpload.groupRetire a))).trans (KeepsUpload.groupLeave _)
  exact branch (hleft.trans (KeepsUpload.groupReply ..)) hleft

theorem onGroupCommit_keepsUpload (h : KeepsUpload s a) (u : ReferenceUpload) (f : ControlPacket)
    (g : GroupCommitPayload) : KeepsUpload s (a.onGroupCommit cfg u f g env) := by
  unfold Server.onGroupCommit
  dsimp only
  refine branch (h.silent rfl rfl rfl) (branch ((h.trans (KeepsUpload.send _ (fun _ => rfl) _)).goOn _ _) ?_)
  have hreq : KeepsUpload s { a with loc := { a.loc with gcommitReq := f, haveGcommitStatus := false } } :=
    h.silent rfl rfl rfl
  refine branch (hreq.silent rfl rfl rfl) (KeepsUpload.goOn (KeepsUpload.trans ?_ (KeepsUpload.groupReply ..)) _ _)
  exact branch (hreq.trans (KeepsUpload.groupLeave _)) hreq

/-- a BEGIN, CHUNK or SEAL on the upload `u`: the upload after it, and what it adds to the SEALs answered OK -/
inductive UploadCall (u : ReferenceUpload) (f : ControlPacket) : ReferenceUpload → List (ℕ × ℕ) → Prop
  | begin (b : ReferenceBeginPayload) (id revision : ℕ) (hf : f.body = .referenceBegin b) :
    UploadCall u f (u.begin b id revision).2 []
  | chunk (c : ReferenceChunkPayload) (hf : f.body = .referenceChunk c) : UploadCall u f (u.chunk c).2 []
  | seal (c : ReferenceSealPayload) (hf : f.body = .referenceSeal c) :
    UploadCall u f (u.seal cfg.sha256 c env.now).2
      (if (u.seal cfg.sha256 c env.now).1 = .ok ∧ env.sendOk = true then [(c.uploadId, f.seq)] else [])

/-- the frame `f` made one call on the upload -/
structure Called (s s' : Server) (f : ControlPacket) : Prop where
  commitReply : s'.loc.commitReply = s.loc.commitReply
  call : ∃ u u' oks, Fades s.loc.upload (some u) ∧ UploadCall cfg env u f u' oks ∧ s'.loc.upload = some u' ∧
    SendsSeals s.sent s'.sent oks

/-- what a step does to the upload -/
def UploadStep (s s' : Server) : Prop := KeepsUpload s s' ∨ ∃ f, env.frame = some f ∧ Called cfg env s s' f

theorem answer_sendsSeals (a : Server) (seq : ℕ) (reply : ReferenceReplyPayload) (result : ReferenceResult) :
    SendsSeals a.sent (a.answer seq reply result env).sent
      (if reply.operation = sealOp ∧ result = .ok ∧ env.sendOk = true then [(reply.uploadId, seq)] else []) := by
  show SendsSeals a.sent ((a.send (.reference { reply with result := result } seq) env.sendOk).goOn .top
    env.sendOk).sent _
  unfold Server.goOn Server.send
  cases env.sendOk with
  | false => exact ⟨[], (List.append_nil _).symm, by simp⟩
  | true =>
    refine ⟨[_], rfl, ?_⟩
    by_cases hc : reply.operation = sealOp ∧ result = .ok <;> simp [sealOk, hc]

theorem answer_loc (a : Server) (seq : ℕ) (reply : ReferenceReplyPayload) (result : ReferenceResult) :
    (a.answer seq reply result env).loc = a.loc := by
  show ((a.send (.reference { reply with result := result } seq) env.sendOk).goOn .top env.sendOk).loc = _
  unfold Server.goOn Server.send
  cases env.sendOk <;> rfl

/-- the call is made, and its result is the answer -/
theorem called_answer {f : ControlPacket} {u u' : ReferenceUpload} {oks : List (ℕ × ℕ)}
    (hupload : Fades s.loc.upload (some u)) (hcall : UploadCall cfg env u f u' oks)
    (ha : a.loc.commitReply = s.loc.commitReply ∧ a.sent = s.sent) {reply : ReferenceReplyPayload}
    {result : ReferenceResult}
    (hoks : oks = if reply.operation = sealOp ∧ result = .ok ∧ env.sendOk = true then [(reply.uploadId, f.seq)] else []) :
    Called cfg env s ((a.setUpload u').answer f.seq reply result env) f := by
  refine ⟨?_, u, u', oks, hupload, hcall, ?_, ?_⟩
  · rw [answer_loc]
    exact ha.1
  · rw [answer_loc]
    rfl
  · have hanswer := answer_sendsSeals env (a.setUpload u') f.seq reply result
    rw [← hoks] at hanswer
    rw [← ha.2]
    exact hanswer

/-- a v7 frame, on the upload as it stands after the decoder -/
theorem referenceFrame_upload {f : ControlPacket} (hframe : env.frame = some f) {u : ReferenceUpload}
    (hupload : Fades s.loc.upload (some u)) (hu : a.loc.upload = some u)
    (ha : a.loc.commitReply = s.loc.commitReply ∧ a.sent = s.sent) :
    UploadStep cfg env s (a.referenceFrame cfg u f env) := by
  have h : KeepsUpload s a := (refl s).fade (hu ▸ hupload) (by rw [ha.1]) ha.2
  have hcalled {s' : Server} (hc : Called cfg env s s' f) : UploadStep cfg env s s' := .inr ⟨f, hframe, hc⟩
  have h32 : (32 : ℕ) ≠ sealOp := by decide
  have h33 : (33 : ℕ) ≠ sealOp := by decide
  have h36 : (36 : ℕ) ≠ sealOp := by decide
  have hother : (38 : ℕ) ≠ sealOp ∧ (39 : ℕ) ≠ sealOp ∧ (40 : ℕ) ≠ sealOp ∧ (41 : ℕ) ≠ sealOp ∧
      (42 : ℕ) ≠ sealOp := by decide
  obtain ⟨h38, h39, h40, h41, h42⟩ := hother
  unfold Server.referenceFrame
  cases hf : f.body with
  | referenceBegin b =>
    dsimp only
    unfold Server.onBegin
    dsimp only
    split
    · exact .inl (h.answer _ (fun _ => h32) _ _)
    · exact hcalled (called_answer cfg s env hupload (.begin b _ _ hf) ha (if_neg fun hc => h32 hc.1).symm)
  | referenceChunk c =>
    exact hcalled (called_answer cfg s env hupload (.chunk c hf) ha (if_neg fun hc => h33 hc.1).symm)
  | referenceSeal c =>
    dsimp only
    refine hcalled (called_answer cfg s env hupload (.seal c hf) ha ?_)
    refine if_congr ?_ rfl rfl
    exact ⟨fun hc => ⟨rfl, hc⟩, fun hc => hc.2⟩
  | referenceAbort c =>
    dsimp only
    split
    · exact .inl (h.answer _ (fun _ => h36) _ _)
    · split
      · exact .inl (h.answer _ (fun _ => h36) _ _)
      · refine .inl (KeepsUpload.answer ?_ _ (fun _ => h36) _ _)
        exact h.fade (hu ▸ .abort u c.id) rfl rfl
  | referenceCommit c => exact .inl (onCommit_keepsUpload s env h u f c)
  | cancelReference c => exact .inl (onCancel_keepsUpload s env h u f.seq c)
  | groupJoin g =>
    dsimp only
    exact .inl (branch (onGroupJoin_keepsUpload cfg s env h f.seq g) (h.answer _ (fun _ => h39) _ _))
  | groupCancel g =>
    dsimp only
    exact .inl (branch (onGroupCancel_keepsUpload cfg s env h f.seq g) (h.answer _ (fun _ => h41) _ _))
  | groupCommit g =>
    dsimp only
    exact .inl (branch (onGroupCommit_keepsUpload cfg s env h u f g) (h.answer _ (fun _ => h40) _ _))
  | referenceStatus w => exact .inl (h.answer _ (fun _ => h38) _ _)
  | groupStatus w => exact .inl (h.answer _ (fun _ => h42) _ _)
  | _ => exact .inl (h.silent rfl rfl rfl)

theorem frame_upload {f : ControlPacket} (hframe : env.frame = some f) : UploadStep cfg env s (s.frame cfg f env) := by
  unfold Server.frame
  cases hf : f.body with
  | arm => exact .inl (onArm_keepsUpload cfg s env)
  | disarm => exact .inl (onDisarm_keepsUpload s env)
  | ping => exact .inl ((KeepsUpload.send s (fun _ => rfl) env.sendOk).silent rfl rfl rfl)
  | status => exact .inl ((refl s).status ..)
  | setActive => exact .inl ((refl s).silent rfl rfl rfl)
  | unknown => exact .inl ((refl s).silent rfl rfl rfl)
  | claim want => exact .inl (onClaim_keepsUpload cfg s env want)
  | referenceMode want => exact .inl (onReferenceMode_keepsUpload cfg s env f want)
  | modeSelect want => exact .inl (onModeSelect_keepsUpload cfg s env f want)
  | _ =>
    have hread : KeepsUpload s s.readSelection := (refl s).silent rfl rfl rfl
    dsimp only
    split
    · exact .inl (hread.silent rfl rfl rfl)
    · rename_i u hu
      split
      · exact .inl (hread.silent rfl rfl rfl)
      · refine referenceFrame_upload cfg s env hframe ?_ rfl ⟨rfl, rfl⟩
        rw [show s.loc.upload = some u from hu]
        exact .observeEpoch u _

/-- one step of the thread within a session -/
theorem controlStep_upload (hopen : s.pc ≠ .closed) : UploadStep cfg env s (s.controlStep cfg ids env) := by
  unfold Server.controlStep
  cases hpc : s.pc with
  | closed => exact absurd hpc hopen
  | top => exact .inl (top_keepsUpload cfg s env)
  | poll m gnow release bad => exact .inl (poll_keepsUpload cfg s env m gnow release bad)
  | modeAck => exact .inl (modeAck_keepsUpload s env)
  | commitAck => exact .inl (commitAck_keepsUpload cfg s env)
  | recv =>
    dsimp only
    split
    · exact .inl ((refl s).silent rfl rfl rfl)
    · cases hframe : env.frame with
      | none => exact .inl ((refl s).silent rfl rfl rfl)
      | some f => exact frame_upload cfg s env hframe
  | commitWrite => exact .inl ((refl s).silent rfl rfl rfl)
  | ending => exact .inl ((refl s).silent rfl rfl rfl)
  | groupEnd =>
    refine .inl ?_
    show KeepsUpload s (s.groupEnd cfg)
    unfold Server.groupEnd
    exact branch ((refl s).silent rfl rfl rfl) ((refl s).silent rfl rfl rfl)

end Server
end ArmControl.Rt
